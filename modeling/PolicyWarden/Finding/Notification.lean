import PolicyWarden.Schema.Check

/-!
# Notifications

A notification is a document that carries one finding of a scanner.  `Notification.check` accepts
the documents of this shape, whatever other members they have, and lists every issue of the others
in the order of the fields.
-/

namespace PolicyWarden

/-- The state of a finding. -/
inductive FindingState where
  | active
  | inactive
  deriving DecidableEq, Repr

/-- The name of a state. -/
def FindingState.name : FindingState → Text
  | active => "ACTIVE"
  | inactive => "INACTIVE"

/-- Marks that were set on a finding. -/
structure SecurityMarks where
  name : Text
  marks : Option (List (Text × Text))
  deriving DecidableEq, Repr

/-- A finding as its scanner reports it. -/
structure ReportedFinding where
  name : Text
  parent : Text
  resourceName : Text
  state : FindingState
  category : Text
  externalUri : Option Text
  sourceProperties : Members
  securityMarks : Option SecurityMarks
  eventTime : Text
  createTime : Text
  deriving DecidableEq, Repr

/-- A finding and the name of the configuration under which it is delivered. -/
structure Notification where
  configName : Text
  finding : ReportedFinding
  deriving DecidableEq, Repr

open Schema

/-- Any value. -/
def anyValue (_path : Path) (part : Option Json) : Checked Json :=
  .accepted (part.getD .null)

/-- The two states by name. -/
def FindingState.choices : List (Text × FindingState) :=
  [(active.name, active), (inactive.name, inactive)]

/-- A field of an object is checked at its place. -/
def field {α : Type} (check : Path → Option Json → Checked α) (path : Path) (members : Members)
    (key : Text) : Checked α :=
  check (path.member key) (Json.lookup key members)

/-- Source properties that are missing are none. -/
def propertyMembers (path : Path) (part : Option Json) : Checked Members :=
  (optional (recordOf anyValue) path part).map fun members => members.getD []

/-- Check marks. -/
def SecurityMarks.check (path : Path) (part : Option Json) : Checked SecurityMarks :=
  (record path part).bind fun members =>
    ((field text path members "name").map SecurityMarks.mk)
      |>.apply (field (optional (recordOf text)) path members "marks")

/-- Check a finding. -/
def ReportedFinding.check (path : Path) (part : Option Json) : Checked ReportedFinding :=
  (record path part).bind fun members =>
    ((field text path members "name").map ReportedFinding.mk)
      |>.apply (field text path members "parent")
      |>.apply (field text path members "resourceName")
      |>.apply (field (oneOf FindingState.choices) path members "state")
      |>.apply (field text path members "category")
      |>.apply (field (optional text) path members "externalUri")
      |>.apply (field propertyMembers path members "sourceProperties")
      |>.apply (field (optional SecurityMarks.check) path members "securityMarks")
      |>.apply (field text path members "eventTime")
      |>.apply (field text path members "createTime")

/-- Check a document. -/
def Notification.check (document : Json) : Checked Notification :=
  (record [] (some document)).bind fun members =>
    ((field text [] members "notificationConfigName").map Notification.mk)
      |>.apply (field ReportedFinding.check [] members "finding")

end PolicyWarden
