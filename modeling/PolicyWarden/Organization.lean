import PolicyWarden.Text.Basic

/-!
# Organizations

An organization has an id of decimal digits and the domain of its directory.  Resources are named
by paths, and `Organization.idOfPath?` finds the organization that a path leads through: the id
behind the first segment `organizations` that is followed by a segment of digits.
-/

namespace PolicyWarden

/-- An organization and the primary domain of its members. -/
structure Organization where
  id : Text
  domain : Text
  deriving DecidableEq, Repr

namespace Organization

/-- The separator of path segments. -/
def slash : CodeUnit :=
  CodeUnit.ofChar '/'

/-- How the name of an organization begins. -/
def nameStart : Text :=
  "organizations/"

/-- The name of the resource that is the organization with an id. -/
def resourceName (id : Text) : Text :=
  nameStart ++ id

/-- The text is the name of an organization with an id of digits. -/
def isResourceName (t : Text) : Bool :=
  match Text.dropStart? nameStart t with
  | some id => Text.isDigits id
  | none => false

/-- The digits at the start of a text, if they are a whole segment. -/
def digitSegment? (t : Text) : Option Text :=
  if (t.takeWhile CodeUnit.isDigit).isEmpty then none
  else
    match t.dropWhile CodeUnit.isDigit with
    | [] => some (t.takeWhile CodeUnit.isDigit)
    | u :: _ => if u = slash then some (t.takeWhile CodeUnit.isDigit) else none

/-- The id that a text names at its very start. -/
def idAtStart? (t : Text) : Option Text :=
  (Text.dropStart? nameStart t).bind digitSegment?

/-- The id that a text names at the start of one of its segments; `atBoundary` says that the text
itself starts a segment. -/
def scan? (atBoundary : Bool) : Text → Option Text
  | [] => none
  | u :: rest =>
      match if atBoundary then idAtStart? (u :: rest) else none with
      | some id => some id
      | none => scan? (u == slash) rest

/-- The id of the organization that a path leads through. -/
def idOfPath? (path : Text) : Option Text :=
  scan? true path

end Organization

end PolicyWarden
