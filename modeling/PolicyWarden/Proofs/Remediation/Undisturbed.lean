import Mathlib.Tactic.Common
import PolicyWarden.Proofs.Rehearsal.Quiet
import PolicyWarden.Remediation.Basic

/-!
# Undisturbed remediations

In a quiet world a remediation goes straight through its first round.  If the invocation may go on
and the organization is known, the resource is purged; in any other case the store is left alone.
-/

namespace PolicyWarden

/-- The purging that a plan comes down to, if it covers its resource and knows the organization. -/
def Plan.purging? (plan : Plan) (organization? : Option Organization) :
    Option (Text × Allowance) :=
  if plan.configuration.covers plan.resource then
    organization?.map fun organization => (plan.resource, plan.allowance organization)
  else none

namespace Remediation

open Rehearsal Rehearsal.World

variable {w : World} {run : Run} {α β : Type}

/-! ### Single operations -/

/-- What follows an operation of the gateway goes on where its account ends, when its reply has been
classified. -/
lemma alone_attributed {query : Query} {reply : query.Reply} {p : Problem}
    {next : Except Failure α → Dialogue β} (result : query.Reply → Except Failure α)
    (replied : (w.answer run query).progress.reply? = some reply) :
    alone ((attributed p (.ask query fun r => .done (result r))).bind next) run w =
      (alone (next ((result reply).mapError (Failure.classify p))) (w.answer run query).run
        (w.answer run query).world).after
          [⟨query, reply⟩, ⟨.pause, ()⟩, ⟨.pause, ()⟩] (w.deeds run query) := by
  show alone (.ask query fun r => .ask .pause fun _ => .ask .pause fun _ =>
    next ((result r).mapError (Failure.classify p))) run w = _
  have pause {d : Dialogue β} {run : Run} {w : World} :
      alone (.ask .pause fun _ => d) run w = (alone d run w).after [⟨.pause, ()⟩] [] := alone_ask rfl
  rw [alone_ask replied, pause, pause]
  simp [Account.after]

/-- What follows an operation of the gateway takes over when its reply has been classified. -/
lemma alone_operation {query : Query} {reply : query.Reply} {p : Problem}
    {next : Except Failure α → Dialogue β} (result : query.Reply → Except Failure α)
    (replied : (w.answer run query).progress.reply? = some reply) :
    (alone ((attributed p (.ask query fun r => .done (result r))).bind next) run w).world =
      (alone (next ((result reply).mapError (Failure.classify p))) (w.answer run query).run
        (w.answer run query).world).world := by
  rw [alone_attributed result replied, world_after]

/-- Entries about removals leave the store to what follows. -/
lemma store_recordRemovals {resource : Text} {removals : List Removal} {d : Dialogue α}
    (after : ∀ w : World, (alone d run w).world.desk.store = w.desk.store) :
    (alone (recordRemovals resource removals d) run w).world.desk.store = w.desk.store := by
  induction removals generalizing w with
  | nil => exact after w
  | cons removal rest ih =>
    rw [recordRemovals, world_alone_andThen rfl]
    exact ih (w := w.recordAll [.removed resource removal])

/-- The first of several rounds is a round, whatever may follow it. -/
lemma exists_rounds_eq_round (gateway : Gateway) (plan : Plan) (organization : Organization)
    (left number : Nat) :
    ∃ again, rounds gateway plan organization left number =
      round gateway ⟨plan, organization, number⟩ again := by
  cases left with
  | zero => exact ⟨none, rfl⟩
  | succ left => exact ⟨_, rfl⟩

/-! ### One round -/

section Active

variable {left : Option Nat}

/-- A policy that was read and is still the one of the store is purged. -/
lemma store_revise (quiet : w.IsQuiet) (active : w.standing run = .active left) (r : Round)
    (again : Option (Unit → Attempt Outcome)) :
    (alone (revise .direct r again (w.desk.store.fetch r.plan.resource)) run w).world.desk.store =
      w.desk.store.purgeAt r.plan.resource (r.plan.allowance r.organization) := by
  let resource := r.plan.resource
  let read := w.desk.store.fetch resource
  let purge := read.policy.purge (r.plan.allowance r.organization)
  unfold revise
  by_cases complies : read.policy.Complies (r.plan.allowance r.organization)
  · rw [if_pos (Policy.sameAccessAll_purge_iff.mpr complies), Store.purgeAt_of_complies complies,
      unchanged, world_alone_andThen rfl]
    rfl
  · rw [if_neg (mt Policy.sameAccessAll_purge_iff.mp complies),
      Store.purgeAt_of_not_complies complies]
    -- Nobody has acted in between, so the version is still the one that was read.
    have accepted := quiet.deskWrite_eq active purge.policy (rfl : read.version = _)
    have standing : (w.answer run .standing).progress.reply? = some (.active left) :=
      congrArg some active
    have written : (w.answer run (.write resource purge.policy read.version)).progress.reply? =
        some (.ok ()) := by
      show some (w.deskWrite run resource purge.policy read.version).2 = _
      rw [accepted]
    rw [Deadline.whileActive, alone_ask standing]
    show (alone (writeBack .direct r purge read.version again) run w).world.desk.store = _
    rw [writeBack]
    refine (congrArg (·.desk.store) (alone_operation id written)).trans ?_
    show (alone (updated r purge.removals) run
      (w.deskWrite run resource purge.policy read.version).1).world.desk.store = _
    rw [updated, store_recordRemovals fun _ => rfl, accepted]
    rfl

/-- The first round purges the resource, and no other round follows. -/
lemma store_rounds (quiet : w.IsQuiet) (active : w.standing run = .active left) (plan : Plan)
    (organization : Organization) (further number : Nat) :
    (alone (rounds .direct plan organization further number) run w).world.desk.store =
      w.desk.store.purgeAt plan.resource (plan.allowance organization) := by
  obtain ⟨again, first⟩ := exists_rounds_eq_round .direct plan organization further number
  have answered : w.deskPolicy run plan.resource =
      (w.counted .policy, .ok (w.desk.store.fetch plan.resource)) :=
    quiet.deskPolicy_eq active
  have replied : (w.answer run (.policy plan.resource)).progress.reply? =
      some (.ok (w.desk.store.fetch plan.resource)) := by
    show some (w.deskPolicy run plan.resource).2 = _
    rw [answered]
  rw [first, round, Attempt.next]
  refine (congrArg (·.desk.store) (alone_operation id replied)).trans ?_
  show (alone (revise .direct ⟨plan, organization, number⟩ again
    (w.desk.store.fetch plan.resource)) run (w.deskPolicy run plan.resource).1).world.desk.store = _
  rw [answered]
  exact store_revise (quiet.counted .policy) active ⟨plan, organization, number⟩ again

end Active

/-! ### All of a remediation -/

/-- A remediation goes on with what the store says of its organization. -/
lemma store_execute_of_covers {plan : Plan} {result : Except Failure Organization}
    (covers : plan.configuration.covers plan.resource = true)
    (answered : w.deskOrganization run plan.organizationId = (w.counted .organization, result)) :
    (alone (execute .direct plan) run w).world.desk.store =
      match result with
      | .ok organization =>
          (alone (rounds .direct plan organization plan.furtherRounds 1) run
            (w.counted .organization)).world.desk.store
      | .error _ => w.desk.store := by
  have replied : (w.answer run (.organization plan.organizationId)).progress.reply? =
      some result := by
    show some (w.deskOrganization run plan.organizationId).2 = _
    rw [answered]
  unfold execute
  rw [if_pos covers, Attempt.next]
  refine (congrArg (·.desk.store) (alone_operation id replied)).trans ?_
  have world : (w.answer run (.organization plan.organizationId)).world =
      w.counted .organization := congrArg Prod.fst answered
  rw [world]
  cases result <;> rfl

/-- While the invocation may go on, a remediation does the purging that its plan comes down to. -/
theorem store_execute_of_active (quiet : w.IsQuiet) {left : Option Nat}
    (active : w.standing run = .active left) (plan : Plan) :
    (alone (execute .direct plan) run w).world.desk.store =
      w.desk.store.purgeAll
        (plan.purging? (w.desk.store.organization? plan.organizationId)).toList := by
  unfold Plan.purging?
  cases covers : plan.configuration.covers plan.resource with
  | false =>
    unfold execute
    rw [covers, if_neg Bool.false_ne_true, if_neg Bool.false_ne_true, skipped,
      world_alone_andThen rfl]
    rfl
  | true =>
    rw [if_pos rfl]
    rcases deskOrganization_cases w run plan.organizationId with
      ⟨failure, refused, -⟩ | ⟨-, ⟨organization, found, eq⟩ | ⟨missing, eq⟩⟩
    · rw [quiet.refusal?_eq active] at refused
      cases refused
    · rw [store_execute_of_covers covers eq, found]
      exact store_rounds (quiet.counted .organization) active plan organization _ _
    · rw [store_execute_of_covers covers eq, missing]
      rfl

/-- Under an invocation that may not go on nothing is purged. -/
theorem store_execute_of_expired {reason : Failure} (expired : w.standing run = .expired reason)
    (plan : Plan) : (alone (execute .direct plan) run w).world.desk.store = w.desk.store := by
  cases covers : plan.configuration.covers plan.resource with
  | false =>
    unfold execute
    rw [covers, if_neg Bool.false_ne_true, skipped, world_alone_andThen rfl]
    rfl
  | true =>
    rcases deskOrganization_cases w run plan.organizationId with
      ⟨failure, -, eq⟩ | ⟨letIn, -⟩
    · rw [store_execute_of_covers covers eq]
    · rw [refusal?, expired] at letIn
      cases letIn

end Remediation

end PolicyWarden
