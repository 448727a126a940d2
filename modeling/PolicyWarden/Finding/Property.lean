import PolicyWarden.Finding.Basic

/-!
# Source properties

Scanners attach properties of any shape to their findings.  `Finding.require` asks for a property
that must be there with a given shape, and `Finding.optional` for one that may be missing.
-/

namespace PolicyWarden

/-- The shapes that may be asked for. -/
inductive PropertyShape where
  | text
  | number
  | flag
  | any
  | texts
  deriving DecidableEq, Repr

/-- Check a property against a shape. -/
def PropertyShape.check (shape : PropertyShape) (value : Json) : Schema.Checked Json :=
  match shape with
  | text => (Schema.text [] (some value)).map .text
  | number => (Schema.number [] (some value)).map .number
  | flag => (Schema.flag [] (some value)).map .bool
  | any => .accepted value
  | texts => (Schema.listOf Schema.text [] (some value)).map fun items => .array (items.map .text)

namespace Finding

/-- The source property under a key, whatever its shape. -/
def property? (f : Finding) (key : Text) : Option Json :=
  Json.lookup key f.sourceProperties

/-- A source property that must be there. -/
def require (f : Finding) (key : Text) (shape : PropertyShape) : Except Failure Json :=
  match f.property? key with
  | none => Notification.malformed (.missingProperty f.name key) .absent
  | some value =>
      match shape.check value with
      | .accepted value => .ok value
      | .rejected issues => Notification.malformed (.misshapenProperty f.name key) (.schema issues)

/-- A source property that may be missing. -/
def optional (f : Finding) (key : Text) (shape : PropertyShape) : Except Failure (Option Json) :=
  match f.property? key with
  | none => .ok none
  | some _ => (f.require key shape).map some

/-- A source property that is only reported, and only if it is a text. -/
def reportedText? (f : Finding) (key : Text) : Option Text :=
  (f.property? key).bind Json.text?

end Finding

end PolicyWarden
