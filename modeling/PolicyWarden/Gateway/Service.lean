import PolicyWarden.Gateway.Basic
import PolicyWarden.Gateway.Deadline

/-!
# The gateway over the resource service

Every operation is one call of the service under the deadline of the invocation.  A void reply, or a
void in the place of a binding, has none of the fields that are looked for.  A policy without a
version tag is refused, because the write that follows could not be made conditional on it, and a
refused conditional write is told apart from every other failure.
-/

namespace PolicyWarden

namespace Gateway

namespace Service

open PolicyWarden.Service

/-- Make a call under the deadline and wait for it. -/
def guardedCall (stage : Stage) (resource : Text) (call : Call) : Attempt call.Reply :=
  (Deadline.guarded stage (some resource) fun timeout => .query (.call call timeout)).awaited

/-! ### Organizations -/

/-- An organization has no display name. -/
def noDisplayName (name : Text) : Failure :=
  .error (("Organization " : Text) ++ name ++ " has no display name to derive its domain from")

/-- The organization that is shown; its display name is its domain. -/
def shownOrganization (id : Text) (reply : OrganizationReply) : Attempt Organization :=
  match reply.displayName with
  | some (u :: rest) => Attempt.ok ⟨id, u :: rest⟩
  | _ => Attempt.fail (noDisplayName (Organization.resourceName id))

/-- The organization of a reply. -/
def readOrganization (id : Text) : Except Void OrganizationReply → Attempt Organization
  | .ok reply => shownOrganization id reply
  | .error void => Attempt.fail (.noField "displayName" void)

/-- Get an organization. -/
def organization (id : Text) : Attempt Organization :=
  let name := Organization.resourceName id
  ((guardedCall .fetchOrganization name (.organization name)).next (readOrganization id)).mapFailure
    (Failure.classify (.policyFetch name .fetchOrganization))

/-! ### Reading -/

/-- A policy has no version tag. -/
def noEtag (resource : Text) : Failure :=
  .error (("IAM policy for " : Text) ++ resource ++ " was returned without an etag")

/-- The policy that is shown under a version tag. -/
def versionedPolicy (reply : PolicyReply) (version : Text) : Attempt VersionedPolicy :=
  match reply.toPolicy? with
  | some policy => Attempt.ok ⟨policy, version⟩
  | none => Attempt.fail (.noField "role" .null)

/-- The policy that is shown, and the text of its version tag. -/
def shownPolicy (resource : Text) (reply : PolicyReply) : Attempt VersionedPolicy :=
  match Etag.toText reply.etag with
  | [] => Attempt.fail (noEtag resource)
  | u :: rest =>
      .andThen (.record (.fetchedPolicy resource (u :: rest) (reply.bindings.getD []).length))
        (versionedPolicy reply (u :: rest))

/-- The policy of a reply, and the text of its version tag. -/
def readPolicy (resource : Text) : Except Void PolicyReply → Attempt VersionedPolicy
  | .ok reply => shownPolicy resource reply
  | .error void => Attempt.fail (.noField "etag" void)

/-- Get a policy. -/
def policy (resource : Text) : Attempt VersionedPolicy :=
  ((guardedCall .fetchPolicy resource (.policy resource policyFormat)).next
    (readPolicy resource)).mapFailure (Failure.classify (.policyFetch resource .fetchPolicy))

/-! ### Writing -/

/-- The problem that a failed write is. -/
def writeProblem (resource : Text) (failure : Failure) : Problem :=
  if failure.isConflict then .concurrentModification resource else .policyWrite resource

/-- Replace a policy. -/
def write (resource : Text) (policy : Policy) (version : Text) : Attempt Unit :=
  ((guardedCall .writePolicy resource (.write (.ofPolicy resource policy version))).next
    fun _ => .andThen (.record (.updatedPolicy resource version)) (Attempt.ok ())).mapFailure
    fun failure => failure.classify (writeProblem resource failure)

end Service

/-- The gateway over the resource service. -/
def service : Gateway where
  organization := Service.organization
  policy := Service.policy
  write := Service.write

end Gateway

end PolicyWarden
