import PolicyWarden.Text.Basic

/-!
# Principals

A member of a binding names a principal: a kind, a colon and an identifier.  Members without a
colon or with another kind are principals of no particular kind.
-/

namespace PolicyWarden

/-- The kinds of principals that are told apart. -/
inductive PrincipalKind where
  | user
  | serviceAccount
  | group
  | domain
  | other
  deriving DecidableEq, Repr

namespace PrincipalKind

/-- The name of a kind. -/
def name : PrincipalKind → Text
  | user => "user"
  | serviceAccount => "serviceAccount"
  | group => "group"
  | domain => "domain"
  | other => "other"

/-- The kind that a member names before its colon. -/
def ofName (t : Text) : PrincipalKind :=
  ([user, serviceAccount, group, domain].find? fun kind => kind.name = t).getD other

end PrincipalKind

/-- A kind and an identifier. -/
structure Principal where
  kind : PrincipalKind
  identifier : Text
  deriving DecidableEq, Repr

namespace Principal

/-- The principal that a member names: split at its first colon. -/
def ofMember (member : Text) : Principal :=
  match Text.splitFirst? (CodeUnit.ofChar ':') member with
  | some parts => ⟨.ofName parts.1, parts.2⟩
  | none => ⟨.other, member⟩

/-- The domain behind the last at sign of an identifier; an empty one is none. -/
def emailDomain? (identifier : Text) : Option Text :=
  match Text.afterLast? (CodeUnit.ofChar '@') identifier with
  | some (u :: rest) => some (u :: rest)
  | _ => none

end Principal

end PolicyWarden
