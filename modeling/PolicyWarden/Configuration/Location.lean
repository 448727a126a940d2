import PolicyWarden.Text.Basic

/-!
# Locations of files

A location is an absolute path in one normal spelling: no empty segments, no `.` and no `..`.
`Location.resolve` gives the location of any spelling of a path, relative ones being taken from a
directory.  Links are not followed: two dots take back the name before them, whatever it leads to.
-/

namespace PolicyWarden

namespace Location

/-- The separator of path segments. -/
def slash : CodeUnit :=
  CodeUnit.ofChar '/'

/-- The segments so far, the last one first, after one more segment. -/
def enter (done : List Text) (segment : Text) : List Text :=
  if segment = [] || segment = Text.ofString "." then done
  else if segment = Text.ofString ".." then done.tail
  else segment :: done

/-- The path from the root that a path means in a directory. -/
def fromRoot (directory path : Text) : Text :=
  match path with
  | [] => directory
  | u :: _ => if u = slash then path else directory ++ slash :: path

/-- The names on the way from the root to where a path leads in a directory. -/
def names (directory path : Text) : List Text :=
  ((Text.segments slash (fromRoot directory path)).foldl enter []).reverse

/-- The location that is reached from the root by names. -/
def ofNames (names : List Text) : Text :=
  slash :: Text.join [slash] names

/-- The location of a path in a directory. -/
def resolve (directory path : Text) : Text :=
  ofNames (names directory path)

end Location

end PolicyWarden
