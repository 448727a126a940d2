import PolicyWarden.Json.Basic

/-!
# Policies

A policy is a list of bindings, each of a role to members.  Whatever else a binding or a policy
carries, such as a condition or a version, is kept as further members and never looked into here.
-/

namespace PolicyWarden

/-- The members that hold a role, and what else the binding carries. -/
structure Binding where
  role : Text
  members : List Text
  rest : Members := []
  deriving DecidableEq, Repr

/-- The bindings of a resource, and what else its policy carries. -/
structure Policy where
  bindings : List Binding
  rest : Members := []
  deriving DecidableEq, Repr

namespace Binding

/-- The two lists have the same length and as many different members, and whoever is in the second
is in the first. -/
def sameMembers (a b : List Text) : Bool :=
  let members := a.eraseDups
  a.length == b.length && b.all members.contains && b.eraseDups.length == members.length

/-- The bindings give the same role to the same members. -/
def sameAccess (a b : Binding) : Bool :=
  a.role == b.role && sameMembers a.members b.members

/-- The lists of bindings give the same access one by one. -/
def sameAccessAll : (a b : List Binding) → Bool
  | [], [] => true
  | a :: as, b :: bs => a.sameAccess b && sameAccessAll as bs
  | _, _ => false

/-- What a binding carries under a key besides its role and members. -/
def get? (b : Binding) (key : Text) : Option Json :=
  Json.lookup key b.rest

end Binding

namespace Policy

/-- What a policy carries under a key besides its bindings. -/
def get? (p : Policy) (key : Text) : Option Json :=
  Json.lookup key p.rest

/-- The policy without any binding. -/
def empty : Policy :=
  ⟨[], []⟩

end Policy

end PolicyWarden
