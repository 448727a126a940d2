import PolicyWarden.Configuration.Settings
import PolicyWarden.Journal.Entry

/-!
# Lines of the log

Outside a rehearsal an entry becomes a line under the name of the service that writes it.  The name
is given, or taken from the environment, or a default; a service without a name is marked as such.
A line has no empty message; it leaves the message out instead.
-/

namespace PolicyWarden

/-- The label of a level in a line. -/
def Level.label : Level → Text
  | debug => "DEBUG"
  | info => "INFO"
  | warn => "WARN"
  | error => "ERROR"

/-- A line of the log. -/
structure Line where
  level : Level
  message : Option Text
  service : Text
  deriving DecidableEq, Repr

namespace Line

/-- The variable that names the service. -/
def serviceVariable : Text :=
  "SERVICE_NAME"

/-- The name of a service that is named nowhere. -/
def defaultService : Text :=
  "iam-member-remediation"

/-- What stands for an empty name. -/
def unnamedService : Text :=
  "service_undefined"

/-- The name of the service: the one given, or else the one in the environment. -/
def serviceName (environment : Environment) (given : Option Text) : Text :=
  match given.getD ((environment.get? serviceVariable).getD defaultService) with
  | [] => unnamedService
  | name => name

/-- The message of a line, unless it is empty. -/
def shown? (message : Text) : Option Text :=
  if message.isEmpty then none else some message

/-- A message of the level for information. -/
def information (environment : Environment) (given : Option Text) (message : Text) : Line :=
  ⟨.info, shown? message, serviceName environment given⟩

end Line

end PolicyWarden
