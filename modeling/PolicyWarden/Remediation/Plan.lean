import PolicyWarden.Allowance
import PolicyWarden.Configuration.Settings

/-!
# Plans

A plan says which organization is to be remediated under which configuration, and how many rounds
of reading and writing may be made.  At least one round is made whatever the limit says, and another
one may follow as long as the number of rounds is below the limit.  So a limit between two integers
allows the larger one, and a limit that is no number allows one round.
-/

namespace PolicyWarden

/-- What is to be remediated, and how. -/
structure Plan where
  configuration : Configuration
  organizationId : Text
  writeAttempts : Option Number
  deriving DecidableEq, Repr

/-- The number, or one if it is smaller. -/
def Number.atLeastOne : Number → Number
  | .whole n => .whole (max 1 n)
  | .dyadic false numerator shift =>
      if numerator < Number.binary shift then .whole 1 else .dyadic false numerator shift
  | .infinite false => .infinite false
  | .notANumber => .notANumber
  | .negativeZero | .dyadic true _ _ | .infinite true => .whole 1

namespace Plan

/-- The resource that is to be remediated. -/
def resource (p : Plan) : Text :=
  Organization.resourceName p.organizationId

/-- The limit of rounds. -/
def limit (p : Plan) : Number :=
  (p.writeAttempts.getD Settings.defaultWriteAttempts).atLeastOne

/-- More rounds than any number of rounds that can be made. -/
def unlimited : Nat :=
  Number.binary 1024

/-- How many rounds may follow the first one: the numbers from one on that are below the limit. -/
def furtherRounds (p : Plan) : Nat :=
  match p.limit with
  | .infinite _ => unlimited
  | limit => ((limit.ceiling?).getD 1 - 1).toNat

/-- Who may stay once the domain of the organization is known. -/
def allowance (p : Plan) (organization : Organization) : Allowance :=
  ⟨organization.domain, p.configuration.allowDomains⟩

end Plan

end PolicyWarden
