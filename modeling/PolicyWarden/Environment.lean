import PolicyWarden.Text.Utf8

/-!
# Environments

Settings, paths and names of services are read from an environment of variables.  A process keeps
its environment in UTF-8, each name and value up to a zero byte.  So what it reads back ends before
the first zero unit, and a surrogate without its partner has become a replacement character.
-/

namespace PolicyWarden

/-- The variables of an environment. -/
abbrev Environment := List (Text × Text)

namespace Environment

/-- The value of a variable. -/
def get? (environment : Environment) (name : Text) : Option Text :=
  (environment.find? fun entry => entry.1 = name).map (·.2)

/-- What a process reads back where it kept a text. -/
def readBack (t : Text) : Text :=
  Utf8.decode ((Utf8.encode t).takeWhile fun b => b != 0)

/-- The environment of a process that was given some variables. -/
def ofProcess (given : List (Text × Text)) : Environment :=
  given.map fun entry => (readBack entry.1, readBack entry.2)

end Environment

end PolicyWarden
