import Mathlib.Tactic.Common
import PolicyWarden.Proofs.Remediation.Attempts

/-!
# What a failed remediation is blamed on

Things can go wrong for a remediation at each of its calls and when it looks at the invocation.  One
kind of trouble is overcome: a write that lost to somebody else, as long as a round is left.  The
first trouble of any other kind is the last thing that happens, and the failure that is handed back
is about that very trouble.

A problem that was raised is handed back as it is, whichever call raised it.  Anything else that was
raised becomes the cause of a problem, which names the call and the resource.
-/

namespace PolicyWarden

/-! ### Troubles -/

/-- What went wrong in an exchange: what a call of the gateway raised, or the reason for which the
invocation may not go on. -/
def Exchange.trouble? : Exchange → Option Failure
  | ⟨.organization _, .error raised⟩ => some raised
  | ⟨.policy _, .error raised⟩ => some raised
  | ⟨.write _ _ _, .error raised⟩ => some raised
  | ⟨.standing, .expired reason⟩ => some reason
  | _ => none

/-- The exchange is a write that found the policy changed. -/
def Exchange.isLostWrite : Exchange → Bool
  | ⟨.write _ _ _, .error raised⟩ => Remediation.isConcurrent raised
  | _ => false

namespace History

variable {h k : History}

/-- The exchanges of a history in which something went wrong. -/
def troubles (h : History) : History :=
  h.filter fun exchange => exchange.trouble?.isSome

@[simp]
lemma troubles_append : (h ++ k).troubles = h.troubles ++ k.troubles :=
  List.filter_append h k

/-- In an operation something goes wrong if the reply says so. -/
lemma troubles_operated {query : Query} {reply : query.Reply} :
    (h.operated query reply).troubles = h.troubles ++ troubles [⟨query, reply⟩] := by
  rw [operated, troubles_append]
  rfl

/-- Nothing goes wrong when a policy is read. -/
lemma troubles_hasRead {resource : Text} {read : VersionedPolicy} :
    (h.hasRead resource read).troubles = h.troubles := by
  rw [hasRead, troubles_operated]
  exact List.append_nil _

/-- Nothing goes wrong when the invocation is found to be active. -/
lemma troubles_cleared {left : Option Nat} : (h.cleared left).troubles = h.troubles := by
  rw [cleared, troubles_append]
  exact List.append_nil _

/-- Nothing goes wrong when removals are recorded. -/
lemma troubles_recorded (resource : Text) (removals : List Removal) :
    (recorded resource removals).troubles = [] := by
  refine List.filter_eq_nil_iff.mpr fun exchange mem => ?_
  obtain ⟨removal, -, rfl⟩ := List.mem_map.mp mem
  exact Bool.false_ne_true

end History

/-! ### Blame -/

namespace Failure

/-- The failure is a problem of a kind that came up in a stage about a resource, with a cause; there
is no cause if that is `absent`. -/
def IsProblemOf (failure : Failure) (kind stage resource : Text) (cause : Failure) : Prop :=
  ∃ p : Problem, failure = .problem p cause ∧ p.kindName = kind ∧ p.stage.name = stage ∧
    p.resource? = some resource

/-- What was raised surfaces in a failure: a problem as it is, and anything else as the cause of a
problem of a kind that came up in a stage about a resource. -/
structure SurfacesIn (raised : Failure) (kind stage resource : Text) (failure : Failure) : Prop where
  same : raised.problem?.isSome = true → failure = raised
  wrapped : raised.problem? = none → failure.IsProblemOf kind stage resource raised

variable {raised failure : Failure} {kind stage resource : Text}

/-- A failure that is classified surfaces as the problem that it is classified by. -/
lemma surfacesIn_classify (p : Problem) (about : p.resource? = some resource) :
    raised.SurfacesIn p.kindName p.stage.name resource (raised.classify p) := by
  cases raised with
  | problem known cause => exact ⟨fun _ => rfl, fun other => (by cases other)⟩
  | _ => exact ⟨fun known => (by cases known), fun _ => ⟨p, rfl, rfl, rfl, about⟩⟩

/-- What was raised surfaces as a problem in any case. -/
lemma SurfacesIn.isSome_problem? (surfaces : raised.SurfacesIn kind stage resource failure) :
    failure.problem?.isSome = true := by
  cases known : raised.problem? with
  | some p =>
    have same : failure = raised := surfaces.same (by rw [known]; rfl)
    rw [same, known]
    rfl
  | none =>
    obtain ⟨p, eq, -⟩ := surfaces.wrapped known
    rw [eq]
    rfl

end Failure

namespace Plan

/-- The failure is about what went wrong in an exchange. -/
def Surfaces (plan : Plan) (failure : Failure) : Exchange → Prop
  | ⟨.organization _, .error raised⟩ =>
      raised.SurfacesIn "PolicyFetchError" "fetch-organization" plan.resource failure
  | ⟨.policy _, .error raised⟩ =>
      raised.SurfacesIn "PolicyFetchError" "fetch-policy" plan.resource failure
  | ⟨.write _ _ _, .error raised⟩ =>
      raised.SurfacesIn "PolicyWriteError" "write-policy" plan.resource failure
  | ⟨.standing, .expired reason⟩ =>
      failure.IsProblemOf "DeadlineExceededError" "write-policy" plan.resource reason
  | _ => False

/-- All that went wrong are writes that were lost to somebody else, each with a round left. -/
structure Overcomes (plan : Plan) (h : History) : Prop where
  lost : ∀ exchange ∈ h.troubles, exchange.isLostWrite = true
  few : h.troubles.length ≤ plan.furtherRounds

/-- The last exchange is to blame for a failure: all that went wrong before was overcome.  A write
that was lost is to blame only if it was the last that could be made, and an invocation that may not
go on only if it was looked at right after a reading, so that nothing was written in that round. -/
structure Blames (plan : Plan) (past : History) (last : Exchange) (failure : Failure) : Prop where
  overcome : plan.Overcomes past
  surfaces : plan.Surfaces failure last
  problem : failure.problem?.isSome = true
  exhausted : last.isLostWrite = true → past.troubles.length = plan.furtherRounds
  unwritten : last.query = .standing →
    ∃ read, past.calls.getLast? = some ⟨.policy plan.resource, .ok read⟩

/-- A remediation ends with an outcome if all that went wrong was overcome, and otherwise with a
failure that the last thing that happened is to blame for; only turns may have passed since. -/
def Explains (plan : Plan) (h : History) (result : Except Failure Outcome) : Prop :=
  (∃ outcome, result = .ok outcome ∧ plan.Overcomes h) ∨
    ∃ failure past last turns, result = .error failure ∧ h = past ++ last :: turns ∧
      (∀ turn ∈ turns, turn.query = .pause) ∧ plan.Blames past last failure

/-- What is known before round `n`: a write was lost in each round so far, and nothing else went
wrong. -/
structure Beset (plan : Plan) (n : Nat) (h : History) : Prop where
  lost : ∀ exchange ∈ h.troubles, exchange.isLostWrite = true
  number : h.troubles.length + 1 = n
  allowed : n ≤ plan.furtherRounds + 1

end Plan

namespace Remediation

variable {plan : Plan} {organization : Organization} {n : Nat} {h : History}
  {read : VersionedPolicy}

/-- Nothing has gone wrong before the first round. -/
lemma beset_of_calm (calm : h.troubles = []) : plan.Beset 1 h := by
  refine ⟨fun exchange mem => ?_, ?_, Nat.le_add_left 1 _⟩
  · rw [calm] at mem
    cases mem
  · rw [calm]
    rfl

/-- What went wrong before a round has been overcome if nothing went wrong in the round. -/
lemma overcomes_of_beset (beset : plan.Beset n h) {k : History} (same : k.troubles = h.troubles) :
    plan.Overcomes k := by
  have number := beset.number
  have allowed := beset.allowed
  refine ⟨?_, ?_⟩
  · rw [same]
    exact beset.lost
  · rw [same]
    omega

/-- An outcome is explained if nothing went wrong in the last round. -/
lemma explains_of_outcome (beset : plan.Beset n h) {k : History} (same : k.troubles = h.troubles)
    (outcome : Outcome) : plan.Explains k (.ok outcome) :=
  .inl ⟨outcome, rfl, overcomes_of_beset beset same⟩

/-- The call that failed last is to blame for what it raised. -/
lemma explains_operated {past : History} {query : Query} {reply : query.Reply} {failure : Failure}
    (blames : plan.Blames past ⟨query, reply⟩ failure) :
    plan.Explains (past.operated query reply) (.error failure) := by
  refine .inr ⟨failure, past, ⟨query, reply⟩, [⟨.pause, ()⟩, ⟨.pause, ()⟩], rfl, rfl, ?_, blames⟩
  intro turn mem
  have twice : turn = ⟨.pause, ()⟩ ∨ turn = ⟨.pause, ()⟩ := by simpa using mem
  obtain rfl | rfl := twice <;> rfl

/-- A reading that fails is to blame for its failure. -/
lemma blames_reading (beset : plan.Beset n h) (raised : Failure) :
    plan.Blames h ⟨.policy plan.resource, .error raised⟩
      (raised.classify (.policyFetch plan.resource .fetchPolicy)) := by
  have surfaces : raised.SurfacesIn "PolicyFetchError" "fetch-policy" plan.resource
      (raised.classify (.policyFetch plan.resource .fetchPolicy)) :=
    Failure.surfacesIn_classify (.policyFetch plan.resource .fetchPolicy) rfl
  exact ⟨overcomes_of_beset beset rfl, surfaces, surfaces.isSome_problem?, fun lost => (nomatch lost),
    fun other => (nomatch other)⟩

/-- An invocation that may not go on is to blame for its reason. -/
lemma blames_standing (beset : plan.Beset n h) (read : VersionedPolicy) (reason : Failure) :
    plan.Blames (h.hasRead plan.resource read) ⟨.standing, .expired reason⟩
      (Deadline.exceeded .writePolicy (some plan.resource) reason) := by
  refine ⟨overcomes_of_beset beset History.troubles_hasRead, ?_, rfl, fun lost => (nomatch lost),
    fun _ => ⟨read, ?_⟩⟩
  · exact ⟨.deadlineExceeded .writePolicy (some plan.resource), rfl, rfl, rfl, rfl⟩
  · rw [History.hasRead, History.calls_operated rfl, List.getLast?_concat]

/-- A write that fails for good is to blame for its failure. -/
lemma blames_writing (beset : plan.Beset n h) (left : Option Nat) (raised : Failure)
    (last : isConcurrent raised = false ∨ n = plan.furtherRounds + 1) :
    plan.Blames ((h.hasRead plan.resource read).cleared left)
      ⟨Round.writing ⟨plan, organization, n⟩ read, .error raised⟩
      (raised.classify (.policyWrite plan.resource)) := by
  have same : ((h.hasRead plan.resource read).cleared left).troubles = h.troubles := by
    rw [History.troubles_cleared, History.troubles_hasRead]
  have surfaces : raised.SurfacesIn "PolicyWriteError" "write-policy" plan.resource
      (raised.classify (.policyWrite plan.resource)) :=
    Failure.surfacesIn_classify (.policyWrite plan.resource) rfl
  refine ⟨overcomes_of_beset beset same, surfaces, surfaces.isSome_problem?, fun lost => ?_,
    fun other => (nomatch other)⟩
  have number := beset.number
  have conflict : isConcurrent raised = true := lost
  rw [conflict] at last
  have all : n = plan.furtherRounds + 1 := last.resolve_left Bool.noConfusion
  rw [same]
  omega

/-- A write that is lost while a round is left is one more trouble that is overcome. -/
lemma beset_conflict (beset : plan.Beset n h) (left : Option Nat) {raised : Failure}
    (conflict : isConcurrent raised = true) (more : n ≤ plan.furtherRounds) (entry : Entry) :
    plan.Beset (n + 1)
      (((h.hasRead plan.resource read).cleared left).operated
          (Round.writing ⟨plan, organization, n⟩ read) (.error raised) ++
        [⟨.record entry, ()⟩]) := by
  let lost : Exchange := ⟨Round.writing ⟨plan, organization, n⟩ read, .error raised⟩
  have number := beset.number
  have troubles : (((h.hasRead plan.resource read).cleared left).operated
      (Round.writing ⟨plan, organization, n⟩ read) (.error raised) ++
        ([⟨.record entry, ()⟩] : History)).troubles = h.troubles ++ [lost] := by
    rw [History.troubles_append, History.troubles_operated, History.troubles_cleared,
      History.troubles_hasRead]
    exact List.append_nil _
  refine ⟨?_, ?_, by omega⟩
  · intro exchange mem
    rw [troubles, List.mem_append, List.mem_singleton] at mem
    rcases mem with before | rfl
    · exact beset.lost exchange before
    · exact conflict
  · rw [troubles, List.length_append, List.length_singleton]
    omega

/-- Only lost writes go wrong between the rounds, and every end is explained. -/
lemma roundsKeep_beset (plan : Plan) (organization : Organization) :
    RoundsKeep plan organization (fun _ _ => True) plan.Explains plan.Beset where
  pause _ := trivial
  reading _ := trivial
  unread raised beset := explains_operated (blames_reading beset raised)
  compliant beset _ := by
    refine ⟨trivial, fun _ => explains_of_outcome beset ?_ _⟩
    rw [History.troubles_append, History.troubles_hasRead]
    exact List.append_nil _
  standing _ _ := trivial
  expired {n h read} reason beset _ := by
    refine .inr ⟨_, h.hasRead plan.resource read, ⟨.standing, .expired reason⟩, [], rfl, rfl, ?_,
      blames_standing beset read reason⟩
    exact fun turn mem => (nomatch mem)
  writing _ _ _ := trivial
  written left beset _ := by
    refine ensures_recordRemovals (fun _ _ _ _ => trivial) (explains_of_outcome beset ?_ _)
    rw [History.troubles_append, History.troubles_operated, History.troubles_cleared,
      History.troubles_hasRead, History.troubles_recorded]
    exact (List.append_nil _).trans (List.append_nil _)
  lost left raised beset _ last := explains_operated (blames_writing beset left raised last)
  conflict left raised beset _ conflict more :=
    ⟨trivial, beset_conflict beset left conflict more _⟩

/-- Every end of a remediation is explained. -/
lemma ensures_explains (plan : Plan) :
    (execute .direct plan).Ensures (fun _ _ => True) plan.Explains [] := by
  refine ensures_execute
    (fun _ => ⟨trivial, fun _ => explains_of_outcome (beset_of_calm rfl) rfl _⟩) (fun _ => trivial)
    (fun _ raised => explains_operated ?_) (fun _ organization => beset_of_calm rfl)
    (roundsKeep_beset plan)
  have surfaces : raised.SurfacesIn "PolicyFetchError" "fetch-organization" plan.resource
      (raised.classify (.policyFetch plan.resource .fetchOrganization)) :=
    Failure.surfacesIn_classify (.policyFetch plan.resource .fetchOrganization) rfl
  have calm : plan.Beset 1 [] := beset_of_calm rfl
  exact ⟨overcomes_of_beset calm rfl, surfaces, surfaces.isSome_problem?,
    fun lost => (nomatch lost), fun other => (nomatch other)⟩

/-- **Blame.**  A remediation over any gateway is the one over the direct gateway with that gateway in
the place of its queries.  Whatever the calls raise and whenever the invocation may not go on, an end
with an outcome has only met writes that were lost while a round was left.  Any other end hands back
a problem, and the last thing that happened is to blame for it: a problem that was raised is handed
back as it is, a lost write only when all rounds have been made, and anything else as the cause of a
problem that names the call and the resource.  A limit that is an integer `m` allows `max 1 m`
rounds. -/
theorem execute_blames_last_trouble (plan : Plan) :
    (∀ gateway, execute gateway plan = (execute .direct plan).through gateway) ∧
      (∀ h result, (execute .direct plan).Ends h result → plan.Explains h result) ∧
      ∀ m : Int, (plan.writeAttempts.getD (.whole 3)).toInt? = some m →
        plan.furtherRounds + 1 = (max 1 m).toNat :=
  ⟨fun gateway => execute_eq_through gateway plan,
    fun _ _ ends => ends.ends_of_ensures (ensures_explains plan),
    fun _ limited => Plan.furtherRounds_add_one limited⟩

/-! ### A conflict and a failed reading -/

/-- The replies that a remediation gets if the first write meets a conflict and the policy cannot be
read any more after that. -/
def failing : History → (query : Query) → query.Reply
  | h, .policy resource =>
      if h.count Query.isWriting = 0 then contest h (.policy resource) else .error (.text "down")
  | h, query => contest h query

/-- A reading that fails after a conflict is to blame, and not the conflict. -/
theorem execute_blames_last_trouble_failing :
    let course := (execute .direct plainPlan).course failing []
    let failure : Failure := .problem (.policyFetch plainPlan.resource .fetchPolicy) (.text "down")
    (execute .direct plainPlan).Ends course.1 course.2 ∧
      (plainPlan.writeAttempts.getD (.whole 3)).toInt? = some 3 ∧
      course.2 = .error failure ∧ course.1.troubles.length = 2 ∧
      plainPlan.Explains course.1 (.error failure) ∧ plainPlan.furtherRounds + 1 = 3 := by
  intro course failure
  have ends : (execute .direct plainPlan).Ends course.1 course.2 :=
    Dialogue.ends_course failing (execute .direct plainPlan) []
  have limited : (plainPlan.writeAttempts.getD (.whole 3)).toInt? = some 3 := rfl
  have reached : course.2 = .error failure := by
    rfl
  have troubles : course.1.troubles.length = 2 := by
    rfl
  obtain ⟨-, explains, limits⟩ := execute_blames_last_trouble plainPlan
  exact ⟨ends, limited, reached, troubles, reached ▸ explains course.1 course.2 ends,
    limits 3 limited⟩

end Remediation

end PolicyWarden
