import PolicyWarden.Finding.Notification
import PolicyWarden.Failure.Basic
import PolicyWarden.Json.Fault
import PolicyWarden.Organization
import PolicyWarden.Text.Utf8

/-!
# Findings

`Finding.read` takes the text of a notification to the finding that a remediation works on.  The
text must be JSON and fit the schema, then the category must be the expected one, and then one of
the two paths of the finding must lead through an organization; each step has its own failure.
-/

namespace PolicyWarden

/-- A finding whose organization is known. -/
structure Finding where
  name : Text
  organizationId : Text
  category : Text
  state : FindingState
  resourceName : Text
  sourceProperties : Members
  createTime : Text
  eventTime : Text
  deriving DecidableEq, Repr

/-- The category of members outside the organization. -/
def nonOrgMemberCategory : Text :=
  "NON_ORG_IAM_MEMBER"

namespace Notification

/-- Raise a defect of a notification. -/
def malformed {α : Type} (defect : PayloadDefect) (cause : Failure) : Except Failure α :=
  .error (.problem (.malformedPayload defect) cause)

/-- The notification of a document. -/
def ofJson (document : Json) : Except Failure Notification :=
  match check document with
  | .accepted notification => .ok notification
  | .rejected issues => malformed (.schema issues) .absent

/-- The notification that a text holds. -/
def read (t : Text) : Except Failure Notification :=
  match Json.read? t with
  | some document => ofJson document
  | none => malformed .notJson (.notJson (Json.complaint t))

end Notification

namespace ReportedFinding

/-- The organization of a finding: that of its parent, or else that of its resource. -/
def organizationId? (f : ReportedFinding) : Option Text :=
  match Organization.idOfPath? f.parent with
  | some id => some id
  | none => Organization.idOfPath? f.resourceName

/-- The finding with its organization. -/
def toFinding (f : ReportedFinding) (organizationId : Text) : Finding where
  name := f.name
  organizationId := organizationId
  category := f.category
  state := f.state
  resourceName := f.resourceName
  sourceProperties := f.sourceProperties
  createTime := f.createTime
  eventTime := f.eventTime

end ReportedFinding

namespace Finding

/-- The finding that is reported, if it belongs to the expected category. -/
def ofReported (expected : Text) (f : ReportedFinding) : Except Failure Finding :=
  if f.category ≠ expected then
    .error (.ofProblem (.unsupportedCategory f.category expected))
  else
    match f.organizationId? with
    | some id => .ok (f.toFinding id)
    | none => Notification.malformed (.noOrganization f.parent f.resourceName) .absent

/-- The finding of a notification in text form. -/
def read (expected : Text) (t : Text) : Except Failure Finding :=
  match Notification.read t with
  | .ok notification => ofReported expected notification.finding
  | .error failure => .error failure

/-- The finding of a notification in UTF-8. -/
def readBytes (expected : Text) (bytes : Bytes) : Except Failure Finding :=
  read expected (Utf8.decode bytes)

end Finding

end PolicyWarden
