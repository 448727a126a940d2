import PolicyWarden.Gateway.Deadline
import PolicyWarden.Gateway.Basic
import PolicyWarden.Remediation.Plan

/-!
# Remediations

A remediation reads the policy of an organization, purges it and writes it back, on condition that
nobody has changed it in between.  If somebody has, the next round starts from the changed policy;
a purge is never written over anything but the policy that it was made from.
-/

namespace PolicyWarden

namespace Remediation

/-! ### Operations of the gateway -/

/-- Wait for an operation of the gateway and make a problem of any other failure; the remediation
waits for the result of that in turn. -/
def attributed {α : Type} (p : Problem) (operation : Attempt α) : Attempt α :=
  (Attempt.mapFailure (Failure.classify p) operation.awaited).awaited

/-! ### One round -/

/-- What a round has to do with: the plan, the allowance, and the round's number. -/
structure Round where
  plan : Plan
  organization : Organization
  number : Nat

/-- The outcome of a policy that has nothing to remove. -/
def unchanged (r : Round) : Attempt Outcome :=
  .andThen (.record (.nothingToRemove r.plan.resource r.organization.domain))
    (Attempt.ok ⟨.unchanged, r.plan.resource, [], r.number⟩)

/-- Record each removal before a dialogue. -/
def recordRemovals {α : Type} (resource : Text) : List Removal → Dialogue α → Dialogue α
  | [], d => d
  | removal :: rest, d =>
      .andThen (.record (.removed resource removal)) (recordRemovals resource rest d)

/-- The outcome of a purge that has been written. -/
def updated (r : Round) (removals : List Removal) : Attempt Outcome :=
  recordRemovals r.plan.resource removals
    (Attempt.ok ⟨.updated, r.plan.resource, removals, r.number⟩)

/-- The failure says that the policy changed. -/
def isConcurrent (failure : Failure) : Bool :=
  match failure.problem? with
  | some (.concurrentModification _) => true
  | _ => false

/-- Another round may follow this one. -/
def Round.mayRepeat (r : Round) : Bool :=
  r.plan.limit.exceeds r.number

/-- What follows a failed write: the next round, if the policy changed and the limit allows it. -/
def recover (r : Round) (again : Option (Unit → Attempt Outcome)) (failure : Failure) :
    Attempt Outcome :=
  match again, isConcurrent failure && r.mayRepeat with
  | some again, true =>
      .andThen (.record (.conflict r.plan.resource r.number r.plan.limit)) (again ())
  | _, _ => Attempt.fail failure

/-- Write a purge back and deal with the result. -/
def writeBack (gateway : Gateway) (r : Round) (purge : Purge) (version : Text)
    (again : Option (Unit → Attempt Outcome)) : Attempt Outcome :=
  Dialogue.bind
    (attributed (.policyWrite r.plan.resource)
      (gateway.write r.plan.resource purge.policy version))
    fun result =>
      match result with
      | .ok _ => updated r purge.removals
      | .error failure => recover r again failure

/-- Purge a policy that was read, and write it back if that changed anything. -/
def revise (gateway : Gateway) (r : Round) (again : Option (Unit → Attempt Outcome))
    (read : VersionedPolicy) : Attempt Outcome :=
  let purge := read.policy.purge (r.plan.allowance r.organization)
  if Binding.sameAccessAll read.policy.bindings purge.policy.bindings then unchanged r
  else
    Deadline.whileActive .writePolicy (some r.plan.resource) fun _ =>
      writeBack gateway r purge read.version again

/-- One round of reading, purging and writing. -/
def round (gateway : Gateway) (r : Round) (again : Option (Unit → Attempt Outcome)) :
    Attempt Outcome :=
  (attributed (.policyFetch r.plan.resource .fetchPolicy) (gateway.policy r.plan.resource)).next
    (revise gateway r again)

/-! ### All rounds -/

/-- Rounds from a number on, with at most some further rounds.  That is a bound for the recursion
only; whether another round is made is up to the limit. -/
def rounds (gateway : Gateway) (plan : Plan) (organization : Organization) :
    (left number : Nat) → Attempt Outcome
  | 0, number => round gateway ⟨plan, organization, number⟩ none
  | left + 1, number =>
      round gateway ⟨plan, organization, number⟩
        (some fun _ => rounds gateway plan organization left (number + 1))

/-- The outcome of a plan whose resource is not listed. -/
def skipped (plan : Plan) : Attempt Outcome :=
  .andThen (.record (.notListed plan.resource plan.configuration.resources))
    (Attempt.ok ⟨.skipped, plan.resource, [], 0⟩)

/-- Remediate what a plan says. -/
def execute (gateway : Gateway) (plan : Plan) : Attempt Outcome :=
  if plan.configuration.covers plan.resource then
    (attributed (.policyFetch plan.resource .fetchOrganization)
      (gateway.organization plan.organizationId)).next
      fun organization => rounds gateway plan organization plan.furtherRounds 1
  else skipped plan

end Remediation

end PolicyWarden
