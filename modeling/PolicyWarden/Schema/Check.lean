import PolicyWarden.Schema.Issue

/-!
# Checks that report every issue

A check turns a part of a document into a value or into all the issues it has.  A value built from
several parts (`Checked.apply`) has the issues of all of them, so a document is judged as a whole.
-/

namespace PolicyWarden

namespace Schema

/-- A value, or the issues that stand against it in the order of the schema. -/
inductive Checked (α : Type) where
  | accepted (value : α)
  | rejected (issues : List Issue)
  deriving DecidableEq, Repr

/-- One issue. -/
def reject {α : Type} (path : Path) (defect : Defect) : Checked α :=
  .rejected [⟨path, defect⟩]

namespace Checked

/-- The issues of a check. -/
def issues {α : Type} : Checked α → List Issue
  | accepted _ => []
  | rejected issues => issues

/-- A function of an accepted value. -/
def map {α β : Type} (f : α → β) : Checked α → Checked β
  | accepted value => accepted (f value)
  | rejected issues => rejected issues

/-- A check that needs the value of another one. -/
def bind {α β : Type} (c : Checked α) (next : α → Checked β) : Checked β :=
  match c with
  | accepted value => next value
  | rejected issues => rejected issues

/-- A function of a checked part, or the issues so far followed by those of the part. -/
def apply {α β : Type} (f : Checked (α → β)) (part : Checked α) : Checked β :=
  match f, part with
  | accepted f, accepted x => accepted (f x)
  | f, part => rejected (f.issues ++ part.issues)

/-- All values, or all issues in order. -/
def all {α : Type} : List (Checked α) → Checked (List α)
  | [] => accepted []
  | c :: rest => (c.map List.cons).apply (all rest)

end Checked

/-! ### Parts of a document -/

/-- A way into the member of an object. -/
def Path.member (path : Path) (key : Text) : Path :=
  path ++ [.key key]

/-- A way into the item of an array. -/
def Path.item (path : Path) (position : Nat) : Path :=
  path ++ [.index position]

/-- A text. -/
def text (path : Path) : Option Json → Checked Text
  | some (.text t) => .accepted t
  | part => reject path (.shape .text (.of part))

/-- A number. -/
def number (path : Path) : Option Json → Checked Number
  | some (.number n) => .accepted n
  | part => reject path (.shape .number (.of part))

/-- A truth value. -/
def flag (path : Path) : Option Json → Checked Bool
  | some (.bool b) => .accepted b
  | part => reject path (.shape .flag (.of part))

/-- The members of an object. -/
def record (path : Path) : Option Json → Checked Members
  | some (.object members) => .accepted members
  | part => reject path (.shape .record (.of part))

/-- The items of an array. -/
def list (path : Path) : Option Json → Checked (List Json)
  | some (.array items) => .accepted items
  | part => reject path (.shape .list (.of part))

/-- The items of an array, each of which passes a check. -/
def listOf {α : Type} (item : Path → Option Json → Checked α) (path : Path) (part : Option Json) :
    Checked (List α) :=
  (list path part).bind fun items =>
    .all (items.zipIdx.map fun entry => item (path.item entry.2) (some entry.1))

/-- The members of an object, each of whose values passes a check, walked in the order of records;
the key `__proto__` is left out of the result. -/
def recordOf {α : Type} (value : Path → Option Json → Checked α) (path : Path)
    (part : Option Json) : Checked (List (Text × α)) :=
  (record path part).bind fun members =>
    (Checked.all ((Json.inWalkOrder members).map fun member =>
      (value (path.member member.1) (some member.2)).map fun v => (member.1, v))).map
      fun values => values.filter fun entry => entry.1 ≠ Text.ofString "__proto__"

/-- A part that may be missing. -/
def optional {α : Type} (check : Path → Option Json → Checked α) (path : Path) :
    Option Json → Checked (Option α)
  | none => .accepted none
  | part => (check path part).map some

/-- One of a few texts. -/
def oneOf {α : Type} (choices : List (Text × α)) (path : Path) : Option Json → Checked α
  | some (.text t) =>
      match choices.find? fun choice => choice.1 = t with
      | some choice => .accepted choice.2
      | none => reject path (.choice (choices.map (·.1)) t)
  | part => reject path (.choiceShape (choices.map (·.1)) (.of part))

end Schema

end PolicyWarden
