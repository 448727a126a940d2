import Mathlib.Tactic.Common
import PolicyWarden.Proofs.Dialogue.Counting
import PolicyWarden.Proofs.Remediation.Discipline

/-!
# The number of rounds

The rounds of a remediation are not counted by the loop that makes them: another round begins
whenever a write meets a conflict and a round is left.  So the bound has to come from what is known
between the rounds.  Before round `n` the policy has been read `n - 1` times and written as often,
and `n` is at most the number of rounds that the plan allows (`Plan.Tallied`).  From that follow the
bound on every history, the number that an outcome shows, and what comes of a resource that others
never leave alone: all rounds are made, and the last failure is handed back.
-/

namespace PolicyWarden

/-! ### Readings and writings -/

/-- The query reads a policy. -/
def Query.isReading : Query → Bool
  | .policy _ => true
  | _ => false

/-- The query writes a policy. -/
def Query.isWriting : Query → Bool
  | .write _ _ _ => true
  | _ => false

namespace History

variable {h : History} {kind : Query → Bool}

/-- An operation counts as its own query does, if turns do not count. -/
lemma count_operated {query : Query} {reply : query.Reply} (silent : kind .pause = false) :
    (h.operated query reply).count kind = h.count kind + (kind query).toNat := by
  simp [operated, silent]

/-- A reading counts as such, and a look at the invocation does not count. -/
lemma count_cleared_hasRead {resource : Text} {read : VersionedPolicy} {left : Option Nat}
    (silent : kind .pause = false) (unseen : kind .standing = false) :
    ((h.hasRead resource read).cleared left).count kind =
      h.count kind + (kind (.policy resource)).toNat := by
  rw [cleared, count_append, hasRead, count_operated silent]
  simp [unseen]

/-- Entries of the journal are no readings. -/
lemma count_recorded (resource : Text) (removals : List Removal) :
    (recorded resource removals).count Query.isReading = 0 := by
  apply count_eq_zero
  intro exchange mem
  obtain ⟨removal, -, rfl⟩ := List.mem_map.mp mem
  rfl

end History

/-! ### The limit of a plan -/

namespace Plan

/-- A plan with an integer for a limit, three if it has none, allows as many rounds as the limit
says, and at least one. -/
lemma furtherRounds_add_one {plan : Plan} {m : Int}
    (limited : (plan.writeAttempts.getD (.whole 3)).toInt? = some m) :
    plan.furtherRounds + 1 = (max 1 m).toNat := by
  have given : plan.limit = (plan.writeAttempts.getD (.whole 3)).atLeastOne := rfl
  have rounds : plan.limit = .whole (max 1 m) := by
    rw [given]
    cases number : plan.writeAttempts.getD (.whole 3) with
    | whole n =>
      rw [number] at limited
      obtain rfl : n = m := Option.some.inj limited
      rfl
    | negativeZero =>
      rw [number] at limited
      obtain rfl : 0 = m := Option.some.inj limited
      rfl
    | dyadic negative numerator shift | infinite negative | notANumber =>
      rw [number] at limited
      cases limited
  have further : plan.furtherRounds = (max 1 m - 1).toNat := by
    rw [furtherRounds, rounds]
    rfl
  omega

/-- What a remediation meets at every turn if others never leave its resource alone: each policy
that is read has a member that is not permitted, the invocation may go on, and each write meets a
conflict. -/
def IsContestedBy (plan : Plan) (organization : Organization) : Exchange → Prop
  | ⟨.organization _, reply⟩ => reply = .ok organization
  | ⟨.policy _, reply⟩ =>
      ∃ read, reply = .ok read ∧ ¬ read.policy.Complies (plan.allowance organization)
  | ⟨.standing, reply⟩ => ∃ left, reply = .active left
  | ⟨.write _ _ _, reply⟩ =>
      ∃ failure, reply = .error failure ∧ Remediation.isConcurrent failure = true
  | _ => True

/-- What is known before round `n`: the organization was shown, every round so far has read and
written once, and the plan allows this round. -/
structure Tallied (plan : Plan) (organization : Organization) (n : Nat) (h : History) : Prop where
  shown : ⟨.organization plan.organizationId, .ok organization⟩ ∈ h
  readings : h.count Query.isReading + 1 = n
  writings : h.count Query.isWriting + 1 = n
  allowed : n ≤ plan.furtherRounds + 1

/-- A policy is read and written only while there have been fewer rounds than the plan allows. -/
def Allots (plan : Plan) (h : History) (query : Query) : Prop :=
  (query.isReading = true → h.count Query.isReading < plan.furtherRounds + 1) ∧
    (query.isWriting = true → h.count Query.isWriting < plan.furtherRounds + 1)

/-- What can be said of a remediation with a limit on its rounds that has come to its end. -/
structure Exhausts (plan : Plan) (limit : Nat) (h : History) (result : Except Failure Outcome) :
    Prop where
  /-- An outcome shows how often the policy was read. -/
  counted : ∀ outcome, result = .ok outcome → outcome.status ≠ .skipped →
    outcome.attempts = h.count Query.isReading ∧ 1 ≤ outcome.attempts ∧
      outcome.attempts ≤ limit
  /-- If others never leave the resource alone, all rounds are made, and the failure of the last
  write is handed back. -/
  exhausted : ¬ plan.IsExcluded → ∀ organization,
    (∀ exchange ∈ h, plan.IsContestedBy organization exchange) →
    h.count Query.isReading = limit ∧ h.count Query.isWriting = limit ∧
      ∃ policy version failure,
        h.calls.getLast? = some ⟨.write plan.resource policy version, .error failure⟩ ∧
          result = .error failure

variable {plan : Plan} {h : History}

/-- A query that neither reads nor writes may be asked at any time. -/
lemma allots_of_idle {query : Query} (unread : query.isReading = false)
    (unwritten : query.isWriting = false) : plan.Allots h query := by
  refine ⟨fun reads => ?_, fun writes => ?_⟩
  · rw [unread] at reads
    cases reads
  · rw [unwritten] at writes
    cases writes

/-- An end with a failure is all right if something happened that others do not account for. -/
lemma Exhausts.of_failure {limit : Nat} {failure : Failure} (exchange : Exchange)
    (mem : exchange ∈ h) (calm : ∀ organization, ¬ plan.IsContestedBy organization exchange) :
    plan.Exhausts limit h (.error failure) where
  counted _ := (nomatch ·)
  exhausted _ organization contested := absurd (contested exchange mem) (calm organization)

end Plan

namespace Remediation

variable {plan : Plan} {organization : Organization} {n : Nat} {h : History}
  {read : VersionedPolicy}

/-- What others never leave alone is contested by the organization that was shown. -/
lemma eq_of_contested {other : Organization} (tallied : plan.Tallied organization n h)
    {later : History}
    (contested : ∀ exchange ∈ h ++ later, plan.IsContestedBy other exchange) :
    other = organization := by
  have shown : plan.IsContestedBy other ⟨.organization plan.organizationId, .ok organization⟩ :=
    contested _ (List.mem_append_left later tallied.shown)
  have same : (.ok organization : Except Failure Organization) = .ok other := shown
  exact (Except.ok.inj same).symm

/-- A failure that is a conflict is known as what it is. -/
lemma classify_of_isConcurrent {failure : Failure} (p : Problem)
    (conflict : isConcurrent failure = true) : failure.classify p = failure := by
  cases failure with
  | problem => rfl
  | _ => cases conflict

/-! ### Between the rounds -/

/-- What was known before a round shows how often the policy has been read when its purge is
written. -/
lemma count_cleared (tallied : plan.Tallied organization n h) (read : VersionedPolicy)
    (left : Option Nat) :
    ((h.hasRead plan.resource read).cleared left).count Query.isReading = n ∧
      ((h.hasRead plan.resource read).cleared left).count Query.isWriting + 1 = n := by
  have readings := tallied.readings
  have writings := tallied.writings
  rw [History.count_cleared_hasRead rfl rfl, History.count_cleared_hasRead rfl rfl]
  exact ⟨readings, writings⟩

/-- What is known before round `n` shows how often the policy has been read and written after
it. -/
lemma count_operated_writing (tallied : plan.Tallied organization n h) (read : VersionedPolicy)
    (left : Option Nat) (reply : Except Failure Unit) :
    let past := ((h.hasRead plan.resource read).cleared left).operated
      (Round.writing ⟨plan, organization, n⟩ read) reply
    past.count Query.isReading = n ∧ past.count Query.isWriting = n := by
  intro past
  obtain ⟨readings, writings⟩ := count_cleared tallied read left
  have reading : past.count Query.isReading = _ := History.count_operated rfl
  have writing : past.count Query.isWriting = _ := History.count_operated rfl
  rw [reading, writing]
  exact ⟨readings, writings⟩

/-- The tally is kept from round to round, and what a round ends with agrees with it. -/
lemma roundsKeep_tallied (plan : Plan) (organization : Organization) :
    RoundsKeep plan organization plan.Allots (plan.Exhausts (plan.furtherRounds + 1))
      (plan.Tallied organization) where
  pause _ := Plan.allots_of_idle rfl rfl
  reading tallied := by
    have readings := tallied.readings
    have allowed := tallied.allowed
    refine ⟨fun _ => ?_, fun writes => ?_⟩
    · omega
    · cases writes
  unread {n h} failure tallied := by
    refine .of_failure ⟨.policy plan.resource, .error failure⟩ ?_ ?_
    · exact List.mem_append_right h List.mem_cons_self
    · rintro organization ⟨read, eq, -⟩
      cases eq
  compliant {n h read} tallied complies := by
    refine ⟨Plan.allots_of_idle rfl rfl, fun _ => ⟨?_, ?_⟩⟩
    · rintro outcome ⟨⟩ -
      have readings := tallied.readings
      have positive : 1 ≤ n := by omega
      have read : History.count Query.isReading (h.hasRead plan.resource read) = n :=
        (History.count_operated rfl).trans readings
      rw [History.count_append, read]
      exact ⟨rfl, positive, tallied.allowed⟩
    · intro _ other contested
      obtain ⟨same, eq, complies'⟩ : plan.IsContestedBy other ⟨.policy plan.resource, .ok read⟩ :=
        contested _ (by simp [History.hasRead, History.operated])
      rw [History.hasRead, History.operated, List.append_assoc] at contested
      obtain rfl := eq_of_contested tallied contested
      obtain rfl := Except.ok.inj eq
      exact absurd complies complies'
  standing _ _ := Plan.allots_of_idle rfl rfl
  expired {n h read} reason tallied _ := by
    refine .of_failure ⟨.standing, .expired reason⟩ ?_ ?_
    · exact List.mem_append_right _ List.mem_cons_self
    · rintro organization ⟨left, eq⟩
      cases eq
  writing {n h read} left tallied _ := by
    have allowed := tallied.allowed
    obtain ⟨-, writings⟩ := count_cleared tallied read left
    refine ⟨fun reads => ?_, fun _ => ?_⟩
    · cases reads
    · omega
  written {n h read} left tallied complies := by
    refine ensures_recordRemovals (fun _ _ _ _ => Plan.allots_of_idle rfl rfl) ⟨?_, ?_⟩
    · rintro outcome ⟨⟩ -
      have readings := tallied.readings
      have positive : 1 ≤ n := by omega
      rw [History.count_append, (count_operated_writing tallied read left (.ok ())).1,
        History.count_recorded]
      exact ⟨rfl, positive, tallied.allowed⟩
    · intro _ other contested
      obtain ⟨failure, eq, -⟩ : plan.IsContestedBy other
          ⟨Round.writing ⟨plan, organization, n⟩ read, .ok ()⟩ :=
        contested _ (by simp [History.operated])
      cases eq
  lost {n h read} left failure tallied complies last := by
    refine ⟨fun _ eq => (by cases eq), fun _ other contested => ?_⟩
    obtain ⟨same, eq, conflict⟩ : plan.IsContestedBy other
        ⟨Round.writing ⟨plan, organization, n⟩ read, .error failure⟩ :=
      contested _ (by simp [History.operated])
    obtain rfl := Except.error.inj eq
    rcases last with other | last
    · rw [conflict] at other
      cases other
    · obtain ⟨readings, writings⟩ := count_operated_writing tallied read left (.error failure)
      rw [readings, writings]
      refine ⟨last, last, (Round.purge ⟨plan, organization, n⟩ read).policy, read.version, failure,
        ?_, ?_⟩
      · rw [History.calls_operated rfl, List.getLast?_concat]
      · rw [classify_of_isConcurrent _ conflict]
  conflict {n h read} left failure tallied complies conflict more := by
    obtain ⟨readings, writings⟩ := count_operated_writing tallied read left (.error failure)
    refine ⟨Plan.allots_of_idle rfl rfl, ?_, ?_, ?_, by omega⟩
    · refine List.mem_append_left _ (List.mem_append_left _ (List.mem_append_left _ ?_))
      exact List.mem_append_left _ tallied.shown
    · rw [History.count_append, readings]
      rfl
    · rw [History.count_append, writings]
      rfl

/-- A remediation reads and writes as often as its plan allots, and ends accordingly. -/
lemma ensures_exhausts (plan : Plan) :
    (execute .direct plan).Ensures plan.Allots (plan.Exhausts (plan.furtherRounds + 1)) [] := by
  refine ensures_execute (fun covers => ?_) (fun _ => Plan.allots_of_idle rfl rfl)
    (fun _ failure => ?_) (fun _ organization => ?_) (roundsKeep_tallied plan)
  · refine ⟨Plan.allots_of_idle rfl rfl, fun _ => ⟨?_, fun included => ?_⟩⟩
    · rintro outcome ⟨⟩ other
      exact absurd rfl other
    · exact absurd (Plan.covers_eq_false_iff.mp covers) included
  · refine .of_failure ⟨.organization plan.organizationId, .error failure⟩ ?_ ?_
    · exact List.mem_cons_self
    · intro organization eq
      cases eq
  · exact ⟨List.mem_cons_self, rfl, rfl, by omega⟩

/-- **Number of rounds.**  A remediation with the integer `m` for a limit, three if none is given,
makes `max 1 m` rounds at most.  Over any gateway it is the one over the direct gateway with that
gateway in the place of its queries, and it comes to an end whatever is replied; at no time has it
read or written the policy more than `max 1 m` times.  An outcome shows how often the policy was
read.  If others never leave the resource alone, all rounds are made, and the failure of the last
write is handed back. -/
theorem execute_within_attempts (plan : Plan) {m : Int}
    (limited : (plan.writeAttempts.getD (.whole 3)).toInt? = some m) :
    (∀ gateway, execute gateway plan = (execute .direct plan).through gateway) ∧
      (∀ gateway replies, ∃ h result, (execute gateway plan).Ends h result ∧
        h.IsToldBy replies) ∧
      (∀ h rest, (execute .direct plan).Reaches h rest →
        h.count Query.isReading ≤ (max 1 m).toNat ∧
          h.count Query.isWriting ≤ (max 1 m).toNat) ∧
      ∀ h result, (execute .direct plan).Ends h result →
        plan.Exhausts (max 1 m).toNat h result := by
  have ensured := ensures_exhausts plan
  have limit : plan.furtherRounds + 1 = (max 1 m).toNat := Plan.furtherRounds_add_one limited
  have allots {k : History} {query : Query} (asks : (execute .direct plan).Asks k query) :
      plan.Allots k query := by
    obtain ⟨next, reach⟩ := asks
    exact reach.asks_of_ensures ensured
  rw [← limit]
  refine ⟨fun gateway => execute_eq_through gateway plan, fun gateway replies => ?_,
    fun h rest reach => ⟨?_, ?_⟩, fun h result ends => ends.ends_of_ensures ensured⟩
  · exact Dialogue.exists_ends_isToldBy replies (execute gateway plan)
  · exact reach.count_le fun k query asks reads => (allots asks).1 reads
  · exact reach.count_le fun k query asks writes => (allots asks).2 writes

/-! ### A resource that others never leave alone -/

/-- The replies that a remediation gets if a policy that is not permitted is read each time and
each write meets a conflict. -/
def contest : History → (query : Query) → query.Reply
  | _, .record _ | _, .retain _ _ | _, .release _ | _, .pause => ()
  | _, .settings | _, .configuration | _, .invoke _ => .error default
  | _, .standing => .active none
  | _, .organization _ => .ok plainOrganization
  | _, .policy _ => .ok ⟨mixedPolicy, "7"⟩
  | _, .write resource _ _ => .error (.ofProblem (.concurrentModification resource))
  | _, .call _ _ | _, .errand _ => .aborted default

/-- A remediation that may make two rounds makes both of them. -/
theorem execute_within_attempts_contest :
    let plan : Plan := ⟨⟨[], none⟩, "1", some (.whole 2)⟩
    (plan.writeAttempts.getD (.whole 3)).toInt? = some 2 ∧
      ∃ h result, (execute .direct plan).Ends h result ∧
        h.count Query.isReading = 2 ∧ h.count Query.isWriting = 2 ∧
        ∃ policy version failure,
          h.calls.getLast? = some ⟨.write plan.resource policy version, .error failure⟩ ∧
            result = .error failure := by
  intro plan
  have limited : (plan.writeAttempts.getD (.whole 3)).toInt? = some 2 := rfl
  obtain ⟨-, settles, -, exhausts⟩ := execute_within_attempts plan limited
  obtain ⟨h, result, ends, told⟩ := settles .direct contest
  have included : ¬ plan.IsExcluded := by
    rintro ⟨listed, eq, -⟩
    cases eq
  refine ⟨limited, h, result, ends, ?_⟩
  apply (exhausts h result ends).exhausted included plainOrganization
  intro exchange mem
  obtain ⟨past, rest, split⟩ := List.append_of_mem mem
  have reply : exchange.reply = contest past exchange.query := told past exchange rest split
  obtain ⟨query, given⟩ := exchange
  obtain rfl : given = contest past query := reply
  cases query with
  | organization id => rfl
  | policy resource => exact ⟨_, rfl, mt Policy.removals_eq_nil_iff.mpr (by decide)⟩
  | standing => exact ⟨none, rfl⟩
  | write resource policy version => exact ⟨_, rfl, rfl⟩
  | _ => trivial

end Remediation

end PolicyWarden
