import PolicyWarden.Principal

/-!
# Allowances

An allowance says whose members may stay in a binding.  Only users are judged, by the domain of
their address, which must be one of the allowed domains unit by unit; nothing is said about
subdomains, letter case or domains that merely contain an allowed one.
-/

namespace PolicyWarden

/-- The domain of an organization and the further domains that its policy may name. -/
structure Allowance where
  orgDomain : Text
  domains : List Text
  deriving DecidableEq, Repr

namespace Allowance

/-- The domain is allowed. -/
def admits (a : Allowance) (domain : Text) : Bool :=
  domain == a.orgDomain || a.domains.contains domain

/-- The member may stay. -/
def permits (a : Allowance) (member : Text) : Bool :=
  let principal := Principal.ofMember member
  if principal.kind = .user then
    match Principal.emailDomain? principal.identifier with
    | some domain => a.admits domain
    | none => false
  else true

end Allowance

end PolicyWarden
