import Mathlib.Tactic.Common
import PolicyWarden.Proofs.Remediation.Attempts

/-!
# The trail of a remediation

For each member that it takes out of a policy a remediation leaves an entry in the journal, and these
entries are its trail.  A purge is made in every round, but only the one that has been written leaves
a trail: the entries come after the write, and they are the removals of the policy that was read last
of all.  Every other end leaves none.

Between two rounds stands one entry that says that the policy changed.  So there are as many of these
entries as there are writes after which the policy was read again; `refetches` counts those in the
order of the calls.
-/

namespace PolicyWarden

/-! ### Entries about removals and conflicts -/

namespace Entry

/-- The entry says that a member was removed. -/
def isRemoval (entry : Entry) : Bool :=
  ("Removed " : Text).isPrefixOf entry.message

/-- The entry says that the policy changed and is read again. -/
def isConflict (entry : Entry) : Bool :=
  ("IAM policy changed while remediating, re-fetching" : Text).isPrefixOf entry.message

/-- What is recorded about a removal says that a member was removed. -/
@[simp]
lemma isRemoval_removed (resource : Text) (removal : Removal) :
    (removed resource removal).isRemoval = true := by
  rw [isRemoval, List.isPrefixOf_iff_prefix, message, List.append_assoc, List.append_assoc]
  exact List.prefix_append _ _

/-- A removal is no conflict. -/
@[simp]
lemma isConflict_removed (resource : Text) (removal : Removal) :
    (removed resource removal).isConflict = false :=
  rfl

end Entry

/-- The query records that the policy changed. -/
def Query.recordsConflict : Query → Bool
  | .record entry => entry.isConflict
  | _ => false

/-- The entry about a removal that the query records. -/
def Query.removal? : Query → Option Entry
  | .record entry => if entry.isRemoval then some entry else none
  | _ => none

namespace History

variable {h k : History}

/-- The entries about removals in a history, in their order. -/
def trail (h : History) : List Entry :=
  h.filterMap fun exchange => exchange.query.removal?

@[simp]
lemma trail_append : (h ++ k).trail = h.trail ++ k.trail :=
  List.filterMap_append

/-- An operation of the gateway leaves no trail. -/
lemma trail_operated {query : Query} {reply : query.Reply} (call : query.isGatewayCall = true) :
    (h.operated query reply).trail = h.trail := by
  have none : query.removal? = none := by
    cases query with
    | record entry => cases call
    | _ => rfl
  rw [operated, trail_append, trail, trail, List.filterMap_cons, none]
  exact List.append_nil _

/-- A reading and a look at the invocation leave no trail. -/
lemma trail_cleared_hasRead {resource : Text} {read : VersionedPolicy} {left : Option Nat} :
    ((h.hasRead resource read).cleared left).trail = h.trail := by
  rw [cleared, trail_append, hasRead, trail_operated rfl]
  exact List.append_nil _

/-- Removals that are recorded are a trail, in the same order. -/
lemma trail_recorded (resource : Text) (removals : List Removal) :
    (recorded resource removals).trail = removals.map (Entry.removed resource) := by
  induction removals with
  | nil => rfl
  | cons removal removals ih =>
    have first : Query.removal? (.record (.removed resource removal)) =
        some (.removed resource removal) := by
      rw [Query.removal?, if_pos (Entry.isRemoval_removed resource removal)]
    rw [recorded, List.map_cons, List.map_cons, trail, List.filterMap_cons, first]
    exact congrArg (Entry.removed resource removal :: ·) ih

/-- Removals that are recorded are no calls. -/
lemma calls_recorded (resource : Text) (removals : List Removal) :
    (recorded resource removals).calls = [] := by
  refine List.filter_eq_nil_iff.mpr fun exchange mem => ?_
  obtain ⟨removal, -, rfl⟩ := List.mem_map.mp mem
  exact Bool.false_ne_true

/-- Removals that are recorded are no conflicts. -/
lemma count_recordsConflict_recorded (resource : Text) (removals : List Removal) :
    (recorded resource removals).count Query.recordsConflict = 0 := by
  refine count_eq_zero fun exchange mem => ?_
  obtain ⟨removal, -, rfl⟩ := List.mem_map.mp mem
  exact Entry.isConflict_removed resource removal

end History

/-! ### Reading again -/

/-- How often a writing is followed by a reading at once. -/
def refetches : List Query → Nat
  | first :: second :: rest =>
      (first.isWriting && second.isReading).toNat + refetches (second :: rest)
  | _ => 0

/-- One more query reads again if the one before it writes and it reads. -/
lemma refetches_concat (queries : List Query) (last next : Query) :
    refetches (queries ++ [last, next]) =
      refetches (queries ++ [last]) + (last.isWriting && next.isReading).toNat := by
  induction queries with
  | nil => exact Nat.add_comm _ _
  | cons first queries ih =>
    cases queries with
    | nil =>
      show _ + (_ + 0) = (_ + 0) + _
      omega
    | cons second queries =>
      show _ + refetches (second :: queries ++ [last, next]) =
        (_ + refetches (second :: queries ++ [last])) + _
      rw [ih, Nat.add_assoc]

/-- A query that does not read reads nothing again. -/
lemma refetches_concat_of_not_reading (queries : List Query) {next : Query}
    (unread : next.isReading = false) : refetches (queries ++ [next]) = refetches queries := by
  rcases List.eq_nil_or_concat queries with rfl | ⟨before, last, rfl⟩
  · rfl
  · rw [List.concat_eq_append, List.append_assoc]
    refine (refetches_concat before last next).trans ?_
    rw [unread, Bool.and_false]
    rfl

/-- As many conflicts have been noted as there are writings that a reading followed. -/
def History.IsNoted (h : History) : Prop :=
  h.count Query.recordsConflict = refetches (h.calls.map Exchange.query)

/-- What is neither a call nor a conflict leaves everything noted. -/
lemma History.IsNoted.append {h k : History} (noted : h.IsNoted) (idle : k.calls = [])
    (none : k.count Query.recordsConflict = 0) : (h ++ k).IsNoted := by
  rw [IsNoted, count_append, none, calls_append, idle, List.append_nil]
  exact noted

/-! ### What is recorded, and when -/

/-- What entitles to a query as far as the journal is concerned.  A removal is recorded when a write
has just been accepted, and when a call is made, all readings that come after a writing have been
noted as conflicts. -/
structure Plan.Notes (plan : Plan) (h : History) (query : Query) : Prop where
  written : ∀ entry, query = .record entry → entry.isRemoval = true →
    ∃ policy version,
      h.calls.getLast? = some ⟨.write plan.resource policy version, .ok ()⟩
  noted : query.isGatewayCall = true →
    h.count Query.recordsConflict = refetches (h.calls.map Exchange.query ++ [query])

/-- The history of an update: in the end a policy was read and its purge was written, nothing had
been left as a trail up to there, and after it the removals of that very purge were recorded. -/
def Plan.RecordsUpdate (plan : Plan) (h : History) (removals : List Removal) : Prop :=
  ∃ past calls organization read,
    let purge := Policy.purge (plan.allowance organization) read.policy
    h = past ++ History.recorded plan.resource removals ∧
      past.trail = [] ∧
      past.calls = calls ++ [⟨.policy plan.resource, .ok read⟩,
        ⟨.write plan.resource purge.policy read.version, .ok ()⟩] ∧
      past.calls.head? = some ⟨.organization plan.organizationId, .ok organization⟩ ∧
      removals = purge.removals

/-- What can be said of the trail of a remediation that has come to its end. -/
structure Plan.Accounts (plan : Plan) (h : History) (result : Except Failure Outcome) : Prop where
  /-- The trail of an update is what its outcome lists. -/
  updated : ∀ outcome, result = .ok outcome → outcome.status = .updated →
    h.trail = outcome.removals.map (Entry.removed plan.resource) ∧
      plan.RecordsUpdate h outcome.removals
  /-- Any other end leaves no trail. -/
  silent : (∀ outcome, result = .ok outcome → outcome.status ≠ .updated) → h.trail = []
  /-- As many conflicts were noted as there are writings that a reading followed. -/
  noted : h.IsNoted

/-- What holds between the rounds: the organization was shown, there is no trail, and the reading
that comes next has been noted as a conflict if a writing came before it. -/
structure Plan.Untold (plan : Plan) (organization : Organization) (h : History) : Prop where
  shown : h.calls.head? = some ⟨.organization plan.organizationId, .ok organization⟩
  silent : h.trail = []
  noted : h.count Query.recordsConflict =
    refetches (h.calls.map Exchange.query ++ [.policy plan.resource])

namespace Remediation

variable {plan : Plan} {organization : Organization} {h : History} {read : VersionedPolicy}

/-- Anything that is neither a removal nor a call may be asked at any time. -/
lemma notes_of_idle {query : Query} (none : query.removal? = none)
    (idle : query.isGatewayCall = false) : plan.Notes h query := by
  refine ⟨fun entry eq removes => ?_, fun call => ?_⟩
  · rw [eq, Query.removal?, if_pos removes] at none
    cases none
  · rw [idle] at call
    cases call

/-- A call may be made when all readings that come after a writing have been noted. -/
lemma notes_of_call {query : Query} (call : query.isGatewayCall = true)
    (noted : h.count Query.recordsConflict = refetches (h.calls.map Exchange.query ++ [query])) :
    plan.Notes h query := by
  refine ⟨fun entry eq _ => ?_, fun _ => noted⟩
  rw [eq] at call
  cases call

/-- An end without an update has no trail if its history has none. -/
lemma accounts_of_silent {result : Except Failure Outcome}
    (other : ∀ outcome, result = .ok outcome → outcome.status ≠ .updated)
    (silent : h.trail = []) (noted : h.IsNoted) : plan.Accounts h result :=
  ⟨fun outcome eq updated => absurd updated (other outcome eq), fun _ => silent, noted⟩

/-- An end with a failure has no trail if its history has none. -/
lemma accounts_of_failure (failure : Failure) (silent : h.trail = []) (noted : h.IsNoted) :
    plan.Accounts h (.error failure) := by
  refine accounts_of_silent (fun outcome eq => ?_) silent noted
  cases eq

/-- A reading has been noted if it came after a writing. -/
lemma isNoted_operated_policy (untold : plan.Untold organization h)
    (reply : Except Failure VersionedPolicy) :
    (h.operated (.policy plan.resource) reply).IsNoted := by
  rw [History.IsNoted, History.count_operated rfl, History.calls_operated rfl, List.map_append]
  exact untold.noted

/-- What was noted before a round is all that is noted when its purge is written. -/
lemma noted_cleared (untold : plan.Untold organization h) (left : Option Nat) {query : Query}
    (unread : query.isReading = false) :
    ((h.hasRead plan.resource read).cleared left).count Query.recordsConflict =
      refetches (((h.hasRead plan.resource read).cleared left).calls.map Exchange.query ++
        [query]) := by
  rw [refetches_concat_of_not_reading _ unread, calls_cleared_hasRead,
    History.count_cleared_hasRead rfl rfl, List.map_append]
  exact untold.noted

/-- A writing is no conflict and reads nothing again. -/
lemma isNoted_operated_write (untold : plan.Untold organization h) (left : Option Nat) {n : Nat}
    (reply : Except Failure Unit) :
    (((h.hasRead plan.resource read).cleared left).operated
      (Round.writing ⟨plan, organization, n⟩ read) reply).IsNoted := by
  rw [History.IsNoted, History.count_operated rfl, History.calls_operated rfl, List.map_append]
  exact noted_cleared untold left rfl

/-- No trail is left before a writing has been accepted. -/
lemma trail_operated_write (untold : plan.Untold organization h) (left : Option Nat) {n : Nat}
    (reply : Except Failure Unit) :
    (((h.hasRead plan.resource read).cleared left).operated
      (Round.writing ⟨plan, organization, n⟩ read) reply).trail = [] := by
  rw [History.trail_operated rfl, History.trail_cleared_hasRead, untold.silent]

/-- A purge that was written is told of by its removals and nothing else. -/
lemma accounts_written (untold : plan.Untold organization h) (left : Option Nat) {n : Nat} :
    let removals := (Round.purge ⟨plan, organization, n⟩ read).removals
    plan.Accounts
      (((h.hasRead plan.resource read).cleared left).operated
          (Round.writing ⟨plan, organization, n⟩ read) (.ok ()) ++
        History.recorded plan.resource removals)
      (.ok ⟨.updated, plan.resource, removals, n⟩) := by
  intro removals
  let past := ((h.hasRead plan.resource read).cleared left).operated
    (Round.writing ⟨plan, organization, n⟩ read) (.ok ())
  have silent : past.trail = [] := trail_operated_write untold left (.ok ())
  have calls : past.calls = h.calls ++ [⟨.policy plan.resource, .ok read⟩,
      ⟨Round.writing ⟨plan, organization, n⟩ read, .ok ()⟩] := by
    refine (History.calls_operated rfl).trans ?_
    rw [calls_cleared_hasRead, List.append_assoc]
    rfl
  have first : past.calls.head? = some ⟨.organization plan.organizationId, .ok organization⟩ :=
    History.head?_calls_append (History.head?_calls_cleared_hasRead untold.shown _ _ _)
  refine ⟨?_, fun other => absurd rfl (other _ rfl), ?_⟩
  · intro outcome eq _
    obtain rfl : ⟨.updated, plan.resource, removals, n⟩ = outcome := Except.ok.inj eq
    refine ⟨?_, past, h.calls, organization, read, rfl, silent, calls, first, rfl⟩
    rw [History.trail_append, silent, History.trail_recorded]
    rfl
  · exact (isNoted_operated_write untold left (.ok ())).append (History.calls_recorded _ _)
      (History.count_recordsConflict_recorded _ _)

/-- A conflict is noted once, and the reading that follows it is one more. -/
lemma untold_conflict (untold : plan.Untold organization h) (left : Option Nat) {n : Nat}
    (failure : Failure) :
    plan.Untold organization
      (((h.hasRead plan.resource read).cleared left).operated
          (Round.writing ⟨plan, organization, n⟩ read) (.error failure) ++
        [⟨.record (.conflict plan.resource n plan.limit), ()⟩]) := by
  let past := ((h.hasRead plan.resource read).cleared left).operated
    (Round.writing ⟨plan, organization, n⟩ read) (.error failure)
  have calls : past.calls = h.calls ++ [⟨.policy plan.resource, .ok read⟩] ++
      [⟨Round.writing ⟨plan, organization, n⟩ read, .error failure⟩] := by
    rw [← calls_cleared_hasRead]
    exact History.calls_operated rfl
  have silent : past.trail = [] := trail_operated_write untold left (.error failure)
  have noted : past.IsNoted := isNoted_operated_write untold left (.error failure)
  have entry : History.calls [⟨.record (.conflict plan.resource n plan.limit), ()⟩] = [] := rfl
  refine ⟨?_, ?_, ?_⟩
  · exact History.head?_calls_append <| History.head?_calls_append <|
      History.head?_calls_cleared_hasRead untold.shown _ _ _
  · rw [History.trail_append, silent]
    rfl
  · rw [History.count_append, noted, History.calls_append, entry, List.append_nil, calls,
      List.map_append, List.append_assoc]
    exact (refetches_concat _ (Round.writing ⟨plan, organization, n⟩ read)
      (.policy plan.resource)).symm

/-- Nothing is told between the rounds, and an end tells what came of it. -/
lemma roundsKeep_untold (plan : Plan) (organization : Organization) :
    RoundsKeep plan organization plan.Notes plan.Accounts (fun _ => plan.Untold organization) where
  pause _ := notes_of_idle rfl rfl
  reading untold := notes_of_call rfl untold.noted
  unread failure untold := by
    refine accounts_of_failure _ ?_ (isNoted_operated_policy untold _)
    rw [History.trail_operated rfl, untold.silent]
  compliant {n h read} untold _ := by
    refine ⟨notes_of_idle rfl rfl, fun _ => accounts_of_silent ?_ ?_ ?_⟩
    · intro outcome eq
      obtain rfl := Except.ok.inj eq
      exact Status.noConfusion
    · rw [History.trail_append, History.hasRead, History.trail_operated rfl, untold.silent]
      rfl
    · exact (isNoted_operated_policy untold (.ok read)).append rfl rfl
  standing _ _ := notes_of_idle rfl rfl
  expired {n h read} reason untold _ := by
    refine accounts_of_failure _ ?_ ?_
    · rw [History.trail_append, History.hasRead, History.trail_operated rfl, untold.silent]
      rfl
    · exact (isNoted_operated_policy untold (.ok read)).append rfl rfl
  writing left untold _ := notes_of_call rfl (noted_cleared untold left rfl)
  written {n h read} left untold _ := by
    refine ensures_recordRemovals (fun past removal rest _ => ⟨fun entry _ _ => ?_, fun call => ?_⟩)
      (accounts_written untold left)
    · refine ⟨(Round.purge ⟨plan, organization, n⟩ read).policy, read.version, ?_⟩
      rw [History.calls_append, History.calls_recorded, List.append_nil,
        History.calls_operated rfl, List.getLast?_concat]
    · cases call
  lost left failure untold _ _ :=
    accounts_of_failure _ (trail_operated_write untold left _)
      (isNoted_operated_write untold left _)
  conflict left failure untold _ _ _ :=
    ⟨notes_of_idle rfl rfl, untold_conflict untold left failure⟩

/-- A remediation notes conflicts and removals in their places, and its end accounts for them. -/
lemma ensures_accounts (plan : Plan) :
    (execute .direct plan).Ensures plan.Notes plan.Accounts [] := by
  refine ensures_execute (fun _ => ⟨notes_of_idle rfl rfl, fun _ => ?_⟩)
    (fun _ => notes_of_call rfl rfl) (fun _ failure => accounts_of_failure _ rfl rfl)
    (fun _ organization => ⟨rfl, rfl, rfl⟩) (roundsKeep_untold plan)
  refine accounts_of_silent (fun outcome eq => ?_) rfl rfl
  obtain rfl := Except.ok.inj eq
  exact Status.noConfusion

/-- **Trail.**  A remediation over any gateway is the one over the direct gateway with that gateway in
the place of its queries.  It records a removal only when a write has just been accepted, and a call
is made only when every reading after a writing has been noted as a conflict.  When it has come to
its end, its trail lists the removals of the outcome one by one if that is `updated`, all of them
after the last write and from the policy that was read last, and is empty if not; and there are as
many conflicts as there are writings that were followed by a reading. -/
theorem execute_leaves_trail (plan : Plan) :
    (∀ gateway, execute gateway plan = (execute .direct plan).through gateway) ∧
      (∀ h query, (execute .direct plan).Asks h query → plan.Notes h query) ∧
      ∀ h result, (execute .direct plan).Ends h result → plan.Accounts h result := by
  refine ⟨fun gateway => execute_eq_through gateway plan, fun h query asks => ?_,
    fun h result ends => ends.ends_of_ensures (ensures_accounts plan)⟩
  obtain ⟨next, reach⟩ := asks
  exact reach.asks_of_ensures (ensures_accounts plan)

/-! ### A conflict and an update -/

/-- The replies that a remediation gets if the first write meets a conflict and the others are
accepted. -/
def yielding : History → (query : Query) → query.Reply
  | h, .write resource _ _ =>
      if h.count Query.isWriting = 0 then .error (.ofProblem (.concurrentModification resource))
      else .ok ()
  | h, query => contest h query

/-- After one conflict a remediation tells of the removals of its second round alone. -/
theorem execute_leaves_trail_yielding :
    let course := (execute .direct plainPlan).course yielding []
    let removal : Removal := ⟨"owner", "user:a@b"⟩
    (execute .direct plainPlan).Ends course.1 course.2 ∧
      course.2 = .ok ⟨.updated, plainPlan.resource, [removal], 2⟩ ∧
      course.1.trail = [.removed plainPlan.resource removal] ∧
      course.1.count Query.recordsConflict = 1 ∧
      refetches (course.1.calls.map Exchange.query) = 1 := by
  intro course removal
  have ends : (execute .direct plainPlan).Ends course.1 course.2 :=
    Dialogue.ends_course yielding (execute .direct plainPlan) []
  have reached : course.2 = .ok ⟨.updated, plainPlan.resource, [removal], 2⟩ := by
    rfl
  have accounts : plainPlan.Accounts course.1 course.2 :=
    (execute_leaves_trail plainPlan).2.2 course.1 course.2 ends
  have conflicts : course.1.count Query.recordsConflict = 1 := by
    rfl
  exact ⟨ends, reached, (accounts.updated _ reached rfl).1, conflicts,
    accounts.noted.symm.trans conflicts⟩

end Remediation

end PolicyWarden
