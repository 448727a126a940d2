import Mathlib.Tactic.Common
import PolicyWarden.Proofs.Dialogue.History
import PolicyWarden.Proofs.Policy.Compliance
import PolicyWarden.Remediation.Basic

/-!
# What a remediation ensures

A remediation over the direct gateway asks for an organization and then makes rounds of reading,
purging and writing.  This file says once in which ways a round can go on.  `RoundsKeep` lists them
as conditions on an invariant between the rounds, and `ensures_execute` concludes from them what the
whole remediation ensures, under every behaviour of the gateway and of the invocation.
-/

namespace PolicyWarden

/-! ### Operations in a history -/

namespace History

/-- The history after an operation of the gateway: two turns pass until its result is taken. -/
def operated (h : History) (query : Query) (reply : query.Reply) : History :=
  h ++ [⟨query, reply⟩, ⟨.pause, ()⟩, ⟨.pause, ()⟩]

/-- The history after a policy of a resource was read. -/
def hasRead (h : History) (resource : Text) (read : VersionedPolicy) : History :=
  h.operated (.policy resource) (.ok read)

/-- The history after the invocation was found to be active, with some time left. -/
def cleared (h : History) (left : Option Nat) : History :=
  h ++ [⟨.standing, .active left⟩]

/-- The removals as they are recorded. -/
def recorded (resource : Text) (removals : List Removal) : History :=
  removals.map fun removal => ⟨.record (.removed resource removal), ()⟩

end History

namespace Remediation

variable {α : Type} {asks : History → Query → Prop} {h : History}

/-- The result of an operation that is one query is classified and taken after two turns. -/
lemma ensures_operation {ends : History → Except Failure α → Prop} {p : Problem} (query : Query)
    (result : query.Reply → Except Failure α) (pause : ∀ h, asks h .pause) (asked : asks h query)
    (taken : ∀ reply, ends (h.operated query reply)
      ((result reply).mapError (Failure.classify p))) :
    (attributed p (.ask query fun reply => .done (result reply))).Ensures asks ends h := by
  refine ⟨asked, fun reply => ⟨pause _, fun _ => ⟨pause _, fun _ => ?_⟩⟩⟩
  simpa [History.operated] using taken reply

/-- Removals are recorded one by one. -/
lemma ensures_recordRemovals {ends : History → α → Prop} {resource : Text}
    {removals : List Removal} {d : Dialogue α}
    (each : ∀ past removal left, removals = past ++ removal :: left →
      asks (h ++ History.recorded resource past) (.record (.removed resource removal)))
    (after : d.Ensures asks ends (h ++ History.recorded resource removals)) :
    (recordRemovals resource removals d).Ensures asks ends h := by
  induction removals generalizing h with
  | nil => simpa [recordRemovals, History.recorded] using after
  | cons removal rest ih =>
    refine ⟨by simpa [History.recorded] using each [] removal rest rfl, fun _ => ih ?_ ?_⟩
    · intro past next left split
      simpa [History.recorded] using each (removal :: past) next left (by rw [split]; rfl)
    · simpa [History.recorded] using after

/-- Whether a failure is a conflict does not depend on its being classified as a failed write. -/
@[simp]
lemma isConcurrent_classify {resource : Text} {failure : Failure} :
    isConcurrent (failure.classify (.policyWrite resource)) = isConcurrent failure := by
  cases failure <;> rfl

/-! ### Rounds -/

/-- From the first round on, another one may follow as long as there are further rounds; an infinite
limit always allows another one. -/
lemma exceeds_limit_iff {plan : Plan} {n : Nat} (first : 1 ≤ n) :
    plan.limit.exceeds n = true ↔ n ≤ plan.furtherRounds ∨ plan.limit = .infinite false := by
  unfold Plan.furtherRounds Plan.limit
  generalize plan.writeAttempts.getD Settings.defaultWriteAttempts = given
  have one : (Number.whole 1).exceeds n = true ↔
      n ≤ (((Number.whole 1).ceiling?).getD 1 - 1).toNat ∨ Number.whole 1 = .infinite false := by
    simp only [Number.exceeds, Number.ceiling?, Option.getD_some, decide_eq_true_eq, reduceCtorEq,
      or_false]
    omega
  cases given with
  | whole m =>
    simp only [Number.atLeastOne, Number.exceeds, Number.ceiling?, Option.getD_some,
      decide_eq_true_eq, reduceCtorEq, or_false]
    omega
  | negativeZero => exact one
  | dyadic negative numerator shift =>
    cases negative with
    | true => exact one
    | false =>
      rw [Number.atLeastOne]
      split
      · exact one
      · have positive : 0 < Number.binary shift := Nat.two_pow_pos shift
        simp only [Number.exceeds, Number.ceiling?, Option.getD_some, decide_eq_true_eq,
          reduceCtorEq, or_false]
        rw [← Nat.le_div_iff_mul_le positive]
        omega
  | infinite negative =>
    cases negative with
    | true => exact one
    | false => simp [Number.atLeastOne, Number.exceeds]
  | notANumber =>
    simp only [Number.atLeastOne, Number.exceeds, Number.ceiling?, Option.getD_none,
      Bool.false_eq_true, reduceCtorEq, or_false, false_iff]
    omega

/-- The purge that a round makes of a policy. -/
abbrev Round.purge (r : Round) (read : VersionedPolicy) : Purge :=
  read.policy.purge (r.plan.allowance r.organization)

/-- The query that writes back what a round made of a policy. -/
abbrev Round.writing (r : Round) (read : VersionedPolicy) : Query :=
  .write r.plan.resource (r.purge read).policy read.version

/-- The invariant `inv n` holds before round `n`, whatever comes of the rounds before it; each
condition is one way in which a round can go on. -/
structure RoundsKeep (plan : Plan) (organization : Organization) (asks : History → Query → Prop)
    (ends : History → Except Failure Outcome → Prop) (inv : Nat → History → Prop) : Prop where
  /-- Turns may pass at any time. -/
  pause : ∀ h, asks h .pause
  /-- The policy is read. -/
  reading : ∀ {n h}, inv n h → asks h (.policy plan.resource)
  /-- The policy cannot be read. -/
  unread : ∀ {n h} (failure : Failure), inv n h →
    ends (h.operated (.policy plan.resource) (.error failure))
      (.error (failure.classify (.policyFetch plan.resource .fetchPolicy)))
  /-- The policy that was read complies. -/
  compliant : ∀ {n h read}, inv n h → read.policy.Complies (plan.allowance organization) →
    (unchanged ⟨plan, organization, n⟩).Ensures asks ends (h.hasRead plan.resource read)
  /-- The policy that was read does not comply, and the invocation is looked at. -/
  standing : ∀ {n h read}, inv n h → ¬ read.policy.Complies (plan.allowance organization) →
    asks (h.hasRead plan.resource read) .standing
  /-- The invocation may not go on. -/
  expired : ∀ {n h read} (reason : Failure), inv n h →
    ¬ read.policy.Complies (plan.allowance organization) →
    ends (h.hasRead plan.resource read ++ [⟨.standing, .expired reason⟩])
      (.error (Deadline.exceeded .writePolicy (some plan.resource) reason))
  /-- The purge is written. -/
  writing : ∀ {n h read} (left : Option Nat), inv n h →
    ¬ read.policy.Complies (plan.allowance organization) →
    asks ((h.hasRead plan.resource read).cleared left)
      (Round.writing ⟨plan, organization, n⟩ read)
  /-- The purge has been written. -/
  written : ∀ {n h read} (left : Option Nat), inv n h →
    ¬ read.policy.Complies (plan.allowance organization) →
    (updated ⟨plan, organization, n⟩
      (Round.purge ⟨plan, organization, n⟩ read).removals).Ensures asks ends
      (((h.hasRead plan.resource read).cleared left).operated
        (Round.writing ⟨plan, organization, n⟩ read) (.ok ()))
  /-- The purge could not be written, and no further round is made. -/
  lost : ∀ {n h read} (left : Option Nat) (failure : Failure), inv n h →
    ¬ read.policy.Complies (plan.allowance organization) →
    isConcurrent failure = false ∨ n = plan.furtherRounds + 1 →
    ends (((h.hasRead plan.resource read).cleared left).operated
        (Round.writing ⟨plan, organization, n⟩ read) (.error failure))
      (.error (failure.classify (.policyWrite plan.resource)))
  /-- The policy changed before it could be written, and the next round begins. -/
  conflict : ∀ {n h read} (left : Option Nat) (failure : Failure), inv n h →
    ¬ read.policy.Complies (plan.allowance organization) →
    isConcurrent failure = true → n ≤ plan.furtherRounds →
    let past := ((h.hasRead plan.resource read).cleared left).operated
      (Round.writing ⟨plan, organization, n⟩ read) (.error failure)
    asks past (.record (.conflict plan.resource n plan.limit)) ∧
      inv (n + 1) (past ++ [⟨.record (.conflict plan.resource n plan.limit), ()⟩])

section Rounds

variable {plan : Plan} {organization : Organization}
  {ends : History → Except Failure Outcome → Prop} {inv : Nat → History → Prop}

/-- What follows a round: nothing after the last one, and otherwise what is right after a
conflict. -/
def Followed (plan : Plan) (asks : History → Query → Prop)
    (ends : History → Except Failure Outcome → Prop) (inv : Nat → History → Prop) (n : Nat) :
    Option (Unit → Attempt Outcome) → Prop
  | none => n = plan.furtherRounds + 1
  | some again =>
      1 ≤ n ∧ n ≤ plan.furtherRounds ∧ ∀ h, inv (n + 1) h → (again ()).Ensures asks ends h

/-- A policy that was read is purged and written back as the conditions say. -/
lemma ensures_revise (keep : RoundsKeep plan organization asks ends inv) {n : Nat}
    {again : Option (Unit → Attempt Outcome)} (follows : Followed plan asks ends inv n again)
    (holds : inv n h) (read : VersionedPolicy) :
    (revise .direct ⟨plan, organization, n⟩ again read).Ensures asks ends
      (h.hasRead plan.resource read) := by
  unfold revise
  by_cases complies : read.policy.Complies (plan.allowance organization)
  · rw [if_pos (Policy.sameAccessAll_purge_iff.mpr complies)]
    exact keep.compliant holds complies
  · rw [if_neg (mt Policy.sameAccessAll_purge_iff.mp complies)]
    refine ⟨keep.standing holds complies, fun standing => ?_⟩
    cases standing with
    | expired reason => exact keep.expired reason holds complies
    | active left =>
      rw [writeBack, Dialogue.ensures_bind]
      refine ensures_operation (Round.writing ⟨plan, organization, n⟩ read) id keep.pause
        (keep.writing left holds complies) fun reply => ?_
      cases reply with
      | ok _ => exact keep.written left holds complies
      | error failure =>
        simp only [id, Except.mapError, recover, isConcurrent_classify]
        cases again with
        | none => exact keep.lost left failure holds complies (.inr follows)
        | some again =>
          obtain ⟨first, more, onward⟩ := follows
          have repeats : Round.mayRepeat ⟨plan, organization, n⟩ = true :=
            (exceeds_limit_iff first).mpr (.inl more)
          rw [repeats, Bool.and_true]
          cases conflict : isConcurrent failure with
          | false => exact keep.lost left failure holds complies (.inl conflict)
          | true =>
            obtain ⟨recorded, kept⟩ := keep.conflict left failure holds complies conflict more
            exact ⟨recorded, fun _ => onward _ kept⟩

/-- A round goes on as the conditions say. -/
lemma ensures_round (keep : RoundsKeep plan organization asks ends inv) {n : Nat}
    {again : Option (Unit → Attempt Outcome)} (follows : Followed plan asks ends inv n again)
    (holds : inv n h) :
    (round .direct ⟨plan, organization, n⟩ again).Ensures asks ends h := by
  rw [round, Attempt.next, Dialogue.ensures_bind]
  refine ensures_operation (.policy plan.resource) id keep.pause (keep.reading holds)
    fun reply => ?_
  cases reply with
  | error failure => exact keep.unread failure holds
  | ok read => exact ensures_revise keep follows holds read

/-- All rounds go on as the conditions say. -/
lemma ensures_rounds (keep : RoundsKeep plan organization asks ends inv) {left n : Nat}
    (first : 1 ≤ n) (all : n + left = plan.furtherRounds + 1) (holds : inv n h) :
    (rounds .direct plan organization left n).Ensures asks ends h := by
  induction left generalizing n h with
  | zero => exact ensures_round keep all holds
  | succ left ih =>
    refine ensures_round keep ⟨first, by omega, fun h kept => ?_⟩ holds
    exact ih (Nat.le_add_left 1 n) (by omega) kept

end Rounds

/-! ### All of a remediation -/

/-- What a remediation ensures, if its rounds keep an invariant that holds after the organization
was shown. -/
theorem ensures_execute {plan : Plan} {ends : History → Except Failure Outcome → Prop}
    {inv : Organization → Nat → History → Prop}
    (skips : plan.configuration.covers plan.resource = false →
      (skipped plan).Ensures asks ends [])
    (starts : plan.configuration.covers plan.resource = true →
      asks [] (.organization plan.organizationId))
    (unknown : plan.configuration.covers plan.resource = true → ∀ failure : Failure,
      ends (History.operated [] (.organization plan.organizationId) (.error failure))
        (.error (failure.classify (.policyFetch plan.resource .fetchOrganization))))
    (shown : plan.configuration.covers plan.resource = true → ∀ organization,
      inv organization 1 (History.operated [] (.organization plan.organizationId)
        (.ok organization)))
    (keep : ∀ organization, RoundsKeep plan organization asks ends (inv organization)) :
    (execute .direct plan).Ensures asks ends [] := by
  unfold execute
  cases covers : plan.configuration.covers plan.resource with
  | false => exact skips covers
  | true =>
    have pause := (keep ⟨[], []⟩).pause
    rw [if_pos rfl, Attempt.next, Dialogue.ensures_bind]
    refine ensures_operation (.organization plan.organizationId) id pause (starts covers)
      fun reply => ?_
    cases reply with
    | error failure => exact unknown covers failure
    | ok organization =>
      exact ensures_rounds (keep organization) (Nat.le_refl 1) (Nat.add_comm _ _)
        (shown covers organization)

end Remediation

end PolicyWarden
