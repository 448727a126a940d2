import PolicyWarden.Configuration.Basic
import PolicyWarden.Failure.Description
import PolicyWarden.Finding.Property
import PolicyWarden.Policy.Purge
import PolicyWarden.Number.Basic

/-!
# Journal entries

Everything that is worth recording is an entry: a value that says what happened.  Its level, its
message and its attributes are functions of it.
-/

namespace PolicyWarden

/-- How a remediation ended. -/
inductive Status where
  | updated
  | unchanged
  | skipped
  deriving DecidableEq, Repr

/-- The name of a status. -/
def Status.name : Status → Text
  | updated => "UPDATED"
  | unchanged => "UNCHANGED"
  | skipped => "SKIPPED"

/-- The result of a remediation: its rounds are counted, and a skipped one has none. -/
structure Outcome where
  status : Status
  resource : Text
  removals : List Removal
  attempts : Nat
  deriving DecidableEq, Repr

/-- The weight of an entry. -/
inductive Level where
  | debug
  | info
  | warn
  | error
  deriving DecidableEq, Repr

/-- The name of a level. -/
def Level.name : Level → Text
  | debug => "debug"
  | info => "info"
  | warn => "warn"
  | error => "error"

/-- What happened. -/
inductive Entry where
  /-- A configuration was taken from the cache. -/
  | cachedConfiguration (path : Text)
  /-- A configuration was read from its file. -/
  | loadedConfiguration (path : Text) (configuration : Configuration)
  /-- A policy was fetched from the service. -/
  | fetchedPolicy (resource etag : Text) (bindings : Nat)
  /-- A policy was written to the service. -/
  | updatedPolicy (resource etag : Text)
  /-- A resource is not listed. -/
  | notListed (resource : Text) (resources : Option (List Text))
  /-- A policy has nothing to remove. -/
  | nothingToRemove (resource orgDomain : Text)
  /-- A policy changed before it could be written. -/
  | conflict (resource : Text) (attempt : Nat) (limit : Number)
  /-- A member was removed. -/
  | removed (resource : Text) (removal : Removal)
  /-- A finding was received. -/
  | received (finding : Finding)
  /-- A finding is no longer active. -/
  | inactive
  /-- A remediation came to its end. -/
  | finished (outcome : Outcome)
  /-- A finding belongs to another remediation. -/
  | unsupported (category expected : Text)
  /-- A notification cannot be used. -/
  | malformed (description : Failure.Description) (messageId : Option Json)
  /-- A remediation failed. -/
  | failed (description : Failure.Description)
  deriving DecidableEq, Repr

namespace Entry

/-- The weight of an entry. -/
def level : Entry → Level
  | cachedConfiguration _ | loadedConfiguration _ _ | fetchedPolicy _ _ _ | updatedPolicy _ _
  | received _ => .debug
  | notListed _ _ | nothingToRemove _ _ | removed _ _ | inactive | finished _
  | unsupported _ _ => .info
  | conflict _ _ _ => .warn
  | malformed _ _ | failed _ => .error

/-- What an entry says. -/
def message : Entry → Text
  | cachedConfiguration _ => "Using cached remediation configuration"
  | loadedConfiguration _ _ => "Loaded remediation configuration"
  | fetchedPolicy _ _ _ => "Fetched IAM policy"
  | updatedPolicy _ _ => "Updated IAM policy"
  | notListed _ _ => "Resource is not listed in the remediation configuration, skipping"
  | nothingToRemove _ _ => "IAM policy has no members outside the organization, nothing to remove"
  | conflict _ _ _ => "IAM policy changed while remediating, re-fetching"
  | removed _ removal => ("Removed " : Text) ++ removal.member ++ " from " ++ removal.role
  | received _ => "Received finding"
  | inactive => "Finding is no longer active, skipping remediation"
  | finished _ => "Remediation finished"
  | unsupported _ _ => "Finding category is not handled by this remediation, discarding event"
  | malformed _ _ =>
      "Received malformed finding notification that is not eligible for a retry, discarding"
  | failed _ => "Remediation failed"

/-! ### Attributes -/

/-- An attribute whose value is a text. -/
def textAttribute (key value : Text) : Text × Json :=
  (key, .text value)

/-- An attribute whose value is a natural number. -/
def countAttribute (key : Text) (n : Nat) : Text × Json :=
  (key, .number (.whole n))

/-- An attribute that is left out if it has no value. -/
def optionalAttribute (key : Text) : Option Json → Members
  | some value => [(key, value)]
  | none => []

/-- An attribute whose value is a text and that is left out if it has none. -/
def optionalTextAttribute (key : Text) (value : Option Text) : Members :=
  optionalAttribute key (value.map .text)

/-- The attributes of a description. -/
def descriptionAttributes (d : Failure.Description) : Members :=
  [textAttribute "errorName" d.name, textAttribute "errorMessage" d.message,
    ("retryable", .bool d.retryable)] ++ optionalTextAttribute "stage" d.stage ++
    optionalTextAttribute "resource" d.resource ++ optionalTextAttribute "cause" d.cause

/-- The details of an entry. -/
def attributes : Entry → Members
  | cachedConfiguration path => [textAttribute "path" path]
  | loadedConfiguration path configuration =>
      [textAttribute "path" path,
        ("allowDomains", .array (configuration.allowDomains.map .text)),
        ("resources", Configuration.resourcesJson configuration.resources)]
  | fetchedPolicy resource etag bindings =>
      [textAttribute "resource" resource, textAttribute "etag" etag,
        countAttribute "bindings" bindings]
  | updatedPolicy resource etag => [textAttribute "resource" resource, textAttribute "etag" etag]
  | notListed resource resources =>
      [textAttribute "resource" resource, ("resources", Configuration.resourcesJson resources)]
  | nothingToRemove resource orgDomain =>
      [textAttribute "resource" resource, textAttribute "orgDomain" orgDomain]
  | conflict resource attempt limit =>
      [textAttribute "resource" resource, countAttribute "attempt" attempt,
        ("maxWriteAttempts", .number limit)]
  | removed resource removal =>
      [textAttribute "resource" resource, textAttribute "role" removal.role,
        textAttribute "member" removal.member]
  | received finding =>
      [textAttribute "organizationID" finding.organizationId,
        textAttribute "state" finding.state.name] ++
        optionalTextAttribute "severity" (finding.reportedText? "SeverityLevel") ++
        optionalTextAttribute "scanner" (finding.reportedText? "ScannerName") ++
        [textAttribute "eventTime" finding.eventTime]
  | inactive => []
  | finished outcome =>
      [textAttribute "status" outcome.status.name, textAttribute "resource" outcome.resource,
        countAttribute "removedMembers" outcome.removals.length,
        countAttribute "attempts" outcome.attempts]
  | unsupported category expected =>
      [textAttribute "category" category, textAttribute "expectedCategory" expected]
  | malformed description messageId =>
      descriptionAttributes description ++ optionalAttribute "messageId" messageId
  | failed description => descriptionAttributes description

end Entry

end PolicyWarden
