import PolicyWarden.Failure.Problem
import PolicyWarden.Json.Printer

/-!
# Failures

Whatever a component raises is a failure: a problem of this library, a fault of another component,
or any plain value.  `Failure.absent` is the value that is not there; it also serves as the cause
of a failure that has none.  An error always has a message, but not every plain value has a text
that could stand for one.

A plain value is one that can be written down.  Values that run a program of their own when they are
looked at (functions, proxies, fields that are computed when they are read) are not among them.
-/

namespace PolicyWarden

/-- What stands in the place of a value with fields. -/
inductive Void where
  /-- A null is there. -/
  | null
  /-- Nothing is there. -/
  | nothing
  deriving DecidableEq, Repr

/-- The name of a void. -/
def Void.name : Void → Text
  | null => "null"
  | nothing => "undefined"

/-- A raised value. -/
inductive Failure where
  /-- No value. -/
  | absent
  | null
  | text (value : Text)
  | flag (value : Bool)
  | number (value : Number)
  /-- An integer of any size. -/
  | integer (value : Int)
  | symbol (description : Text)
  /-- An array or an object. -/
  | json (value : Json)
  /-- A fault of another component, with the code it carries. -/
  | fault (name message : Text) (code : Option Json) (cause : Failure)
  /-- A text was expected to be JSON and is not, with what the reader of JSON says about it. -/
  | notJson (message : Text)
  /-- A value does not fit a schema. -/
  | schema (issues : List Schema.Issue)
  /-- A problem of this library. -/
  | problem (problem : Problem) (cause : Failure)
  deriving DecidableEq, Repr, Inhabited

namespace Failure

/-! ### Faults with a fixed wording -/

/-- A fault with nothing but a name and a message. -/
def plainFault (name message : Text) : Failure :=
  fault name message none absent

/-- A fault of no particular kind. -/
def error (message : Text) : Failure :=
  plainFault "Error" message

/-- There is no plain text for a value that was to be shown. -/
def unprintable : Failure :=
  plainFault "TypeError" "Cannot convert object to primitive value"

/-- A field was looked for in a void. -/
def noField (field : Text) (void : Void) : Failure :=
  plainFault "TypeError"
    (("Cannot read properties of " : Text) ++ void.name ++ " (reading '" ++ field ++ "')")

/-- A problem without a cause. -/
def ofProblem (p : Problem) : Failure :=
  problem p absent

/-- Leave problems as they are, and make any other failure the cause of a problem. -/
def classify (p : Problem) : Failure → Failure
  | problem known cause => problem known cause
  | other => problem p other

/-! ### Views -/

/-- The failure is a problem of this library. -/
def problem? : Failure → Option Problem
  | problem p _ => some p
  | _ => none

/-- The name under which faults about malformed JSON are known. -/
def notJsonName : Text :=
  "SyntaxError"

/-- The name of an error, and for any other value the name of its type. -/
def kindName : Failure → Text
  | absent => "undefined"
  | null => "object"
  | text _ => "string"
  | flag _ => "boolean"
  | number _ => "number"
  | integer _ => "bigint"
  | symbol _ => "symbol"
  | json _ => "object"
  | fault name _ _ _ => name
  | notJson _ => notJsonName
  | schema _ => "ZodError"
  | problem p _ => p.kindName

/-- The message of an error, and any other value as plain text, if it has one. -/
def message? : Failure → Option Text
  | absent => some "undefined"
  | null => some "null"
  | text value => some value
  | flag value => Json.plain? (.bool value)
  | number value => some value.render
  | integer value => some (Text.ofInt value)
  | symbol description => some (("Symbol(" : Text) ++ description ++ ")")
  | json value => Json.plain? value
  | fault _ message _ _ => some message
  | notJson message => some message
  | schema issues => some (Schema.account issues)
  | problem p _ => some p.message

/-- What an error was caused by; most failures have no cause. -/
def cause : Failure → Failure
  | fault _ _ _ cause => cause
  | problem _ cause => cause
  | _ => absent

/-- The value counts as true where a truth value is asked for. -/
def isTruthy : Failure → Bool
  | absent | null => false
  | text value => !value.isEmpty
  | flag value => value
  | number value => !value.isVoid
  | integer value => value != 0
  | symbol _ | json _ | fault _ _ _ _ | notJson _ | schema _ | problem _ _ => true

/-! ### Conflicts -/

/-- The code with which the service refuses a write over a newer policy. -/
def conflictCode : Json :=
  .number (.whole 10)

/-- The code that a value carries. -/
def code? : Failure → Option Json
  | fault _ _ code _ => code
  | json (.object members) => Json.lookup "code" members
  | _ => none

/-- The value is an error or object that carries the code of a conflict. -/
def isConflict (f : Failure) : Bool :=
  f.code? == some conflictCode

end Failure

end PolicyWarden
