import PolicyWarden.Dialogue.Basic

/-!
# Gateways

A gateway gives access to organizations and policies.  `Gateway.direct` leaves each operation to
the world as one query; other gateways break it up into several.
-/

namespace PolicyWarden

/-- How organizations and policies are reached. -/
structure Gateway where
  /-- Get an organization by its id. -/
  organization (id : Text) : Attempt Organization
  /-- Get the policy of a resource. -/
  policy (resource : Text) : Attempt VersionedPolicy
  /-- Replace the policy of a resource that was read at a version. -/
  write (resource : Text) (policy : Policy) (version : Text) : Attempt Unit

/-- The gateway of which each operation is one query. -/
def Gateway.direct : Gateway where
  organization id := .query (.organization id)
  policy resource := .query (.policy resource)
  write resource policy version := .query (.write resource policy version)

end PolicyWarden
