import PolicyWarden.Json.Printer

/-!
# Issues of a document

An issue says where in a document a schema is not met and in which way.  `Issue.line` is the short
form for messages, and `Issue.toJson` the long form, whose members stand in a fixed order for each
kind of issue.
-/

namespace PolicyWarden

namespace Schema

/-! ### Places and shapes -/

/-- A step from a document into one of its parts. -/
inductive PathStep where
  | key (name : Text)
  | index (position : Nat)
  deriving DecidableEq, Repr

/-- A way into a document, from the outside in. -/
abbrev Path := List PathStep

/-- The shape of a part of a document; a part may be missing. -/
inductive Shape where
  | text
  | number
  | flag
  | record
  | list
  | null
  | missing
  deriving DecidableEq, Repr

/-- The name of a shape. -/
def Shape.name : Shape → Text
  | text => "string"
  | number => "number"
  | flag => "boolean"
  | record => "object"
  | list => "array"
  | null => "null"
  | missing => "undefined"

/-- The shape of a part that may be missing. -/
def Shape.of : Option Json → Shape
  | none => missing
  | some .null => null
  | some (.bool _) => flag
  | some (.number _) => number
  | some (.text _) => text
  | some (.array _) => list
  | some (.object _) => record

/-! ### Issues -/

/-- The way in which a schema is not met. -/
inductive Defect where
  /-- One shape was expected and another one found. -/
  | shape (expected received : Shape)
  /-- One of a few texts was expected and no text found. -/
  | choiceShape (choices : List Text) (received : Shape)
  /-- One of a few texts was expected and another text found. -/
  | choice (choices : List Text) (received : Text)
  /-- A domain is empty. -/
  | emptyDomain
  /-- A domain contains an at sign. -/
  | domainHasAt
  /-- A domain contains white space. -/
  | domainHasBlank
  /-- A resource is not the name of an organization. -/
  | resourceName
  deriving DecidableEq, Repr

/-- A defect and its place. -/
structure Issue where
  path : Path
  defect : Defect
  deriving DecidableEq, Repr

/-! ### Wording -/

/-- The choices between quotes and bars. -/
def quotedChoices (choices : List Text) : Text :=
  Text.join " | " (choices.map fun choice => ("'" : Text) ++ choice ++ "'")

/-- What is said about a shape; a missing part has a wording of its own. -/
def shapeMessage (expected : Text) (received : Shape) : Text :=
  if received = .missing then "Required"
  else "Expected " ++ expected ++ ", received " ++ received.name

/-- What is said about a defect. -/
def Defect.message : Defect → Text
  | shape expected received => shapeMessage expected.name received
  | choiceShape choices received => shapeMessage (quotedChoices choices) received
  | choice choices received =>
      ("Invalid enum value. Expected " : Text) ++ quotedChoices choices ++ ", received '" ++
        received ++ "'"
  | emptyDomain => "Domain must not be empty"
  | domainHasAt => "Domain must not contain \"@\""
  | domainHasBlank => "Domain must not contain whitespace"
  | resourceName => "Resource must look like organizations/\x7bid\x7d"

/-- The text of a step. -/
def PathStep.render : PathStep → Text
  | key name => name
  | index position => Text.ofNat position

/-- The steps of a path between points. -/
def Path.render (path : Path) : Text :=
  Text.join "." (path.map PathStep.render)

/-- The place and the message of an issue; `top` stands for the whole document. -/
def Issue.line (top : Text) (issue : Issue) : Text :=
  let place := Path.render issue.path
  (if place.isEmpty then top else place) ++ ": " ++ issue.defect.message

/-- The lines of several issues. -/
def lines (top : Text) (issues : List Issue) : Text :=
  Text.join "; " (issues.map (Issue.line top))

/-! ### The long form -/

/-- The JSON value of a step. -/
def PathStep.toJson : PathStep → Json
  | key name => .text name
  | index position => .number (.whole position)

/-- A member whose value is a text. -/
def textMember (key value : Text) : Text × Json :=
  (key, .text value)

/-- The members of an issue that describe its defect, before its path and its message. -/
def Defect.members : Defect → Members
  | shape expected received =>
      [textMember "code" "invalid_type", textMember "expected" expected.name,
        textMember "received" received.name]
  | choiceShape choices received =>
      [textMember "expected" (quotedChoices choices), textMember "received" received.name,
        textMember "code" "invalid_type"]
  | choice choices received =>
      [textMember "received" received, textMember "code" "invalid_enum_value",
        ("options", .array (choices.map .text))]
  | emptyDomain =>
      [textMember "code" "too_small", ("minimum", .number (.whole 1)), textMember "type" "string",
        ("inclusive", .bool true), ("exact", .bool false)]
  | domainHasAt | domainHasBlank => [textMember "code" "custom"]
  | resourceName => [textMember "validation" "regex", textMember "code" "invalid_string"]

/-- The path of this defect stands before its message. -/
def Defect.pathFirst : Defect → Bool
  | shape _ _ | choiceShape _ _ | choice _ _ => true
  | _ => false

/-- The JSON value of an issue. -/
def Issue.toJson (issue : Issue) : Json :=
  let path : Text × Json := ("path", .array (issue.path.map PathStep.toJson))
  let message := textMember "message" issue.defect.message
  .object (issue.defect.members ++
    if issue.defect.pathFirst then [path, message] else [message, path])

/-- The full account of several issues, one member a line. -/
def account (issues : List Issue) : Text :=
  Json.pretty (.array (issues.map Issue.toJson))

end Schema

end PolicyWarden
