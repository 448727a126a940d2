import PolicyWarden.Configuration.Basic
import PolicyWarden.Environment
import PolicyWarden.Number.Numeral

/-!
# Settings

Two numbers are read from the environment: how long an invocation may take, and how many rounds a
remediation may need.  A variable that is missing or empty leaves the default; any other one must
spell a positive integer.
-/

namespace PolicyWarden

/-- The time limit in milliseconds and the limit of write attempts. -/
structure Settings where
  timeout : Number
  writeAttempts : Number
  deriving DecidableEq, Repr

namespace Settings

/-- The variable of the time limit. -/
def timeoutVariable : Text :=
  "REMEDIATION_TIMEOUT_MS"

/-- The variable of the attempt limit. -/
def writeAttemptsVariable : Text :=
  "MAX_WRITE_ATTEMPTS"

/-- The time limit that applies where none is given. -/
def defaultTimeout : Number :=
  .whole 50000

/-- The attempt limit that applies where none is given. -/
def defaultWriteAttempts : Number :=
  .whole 3

/-- The number is a positive integer. -/
def isPositiveInteger : Number → Bool
  | .whole n => 1 ≤ n
  | _ => false

/-- One setting. -/
def readOne (environment : Environment) (name : Text) (fallback : Number) :
    Except Failure Number :=
  match environment.get? name with
  | none | some [] => .ok fallback
  | some value =>
      if isPositiveInteger (.ofText value) then .ok (.ofText value)
      else Configuration.unusable (.setting name value) .absent

/-- The settings of an environment; of two bad ones the time limit is reported. -/
def read (environment : Environment) : Except Failure Settings := do
  let timeout ← readOne environment timeoutVariable defaultTimeout
  let writeAttempts ← readOne environment writeAttemptsVariable defaultWriteAttempts
  return ⟨timeout, writeAttempts⟩

end Settings

end PolicyWarden
