import PolicyWarden.Allowance
import PolicyWarden.Policy.Basic

/-!
# Purging a policy

`Policy.purge` goes once through the bindings of a policy and through the members of each, and takes
out every member that is not permitted.  What it takes out is noted on the way, so the removals
stand in the order in which the members were met.  Nothing else changes: the order of members and
their repetitions stay, and a binding stays even without members.

Binding by binding, `Binding.purge` is what stays and `Binding.removals` is what goes
(`Policy.bindings_purge`, `Policy.removals_purge`).
-/

namespace PolicyWarden

/-- A member that was taken out of the binding of a role. -/
structure Removal where
  role : Text
  member : Text
  deriving DecidableEq, Repr

/-- A purged policy and what was taken out of it. -/
structure Purge where
  policy : Policy
  removals : List Removal
  deriving DecidableEq, Repr

namespace Binding

/-- The binding with its permitted members only. -/
def purge (a : Allowance) (b : Binding) : Binding :=
  { b with members := b.members.filter a.permits }

/-- The members of a binding that are not permitted. -/
def removals (a : Allowance) (b : Binding) : List Removal :=
  (b.members.filter fun member => !a.permits member).map fun member => ⟨b.role, member⟩

end Binding

namespace Policy

/-- Go through the members of a role with the removals so far: a permitted member stays, and any
other one joins the removals. -/
def siftMembers (a : Allowance) (role : Text) :
    (members : List Text) → (removals : List Removal) → List Text × List Removal
  | [], removals => ([], removals)
  | member :: members, removals =>
      if a.permits member then
        let rest := siftMembers a role members removals
        (member :: rest.1, rest.2)
      else siftMembers a role members (removals ++ [⟨role, member⟩])

/-- Go through bindings with the removals so far. -/
def siftBindings (a : Allowance) :
    (bindings : List Binding) → (removals : List Removal) → List Binding × List Removal
  | [], removals => ([], removals)
  | b :: bindings, removals =>
      let sifted := siftMembers a b.role b.members removals
      let rest := siftBindings a bindings sifted.2
      ({ b with members := sifted.1 } :: rest.1, rest.2)

/-- The policy with permitted members only, and the removals. -/
def purge (a : Allowance) (p : Policy) : Purge :=
  let sifted := siftBindings a p.bindings []
  ⟨{ p with bindings := sifted.1 }, sifted.2⟩

/-! ### Binding by binding -/

/-- The permitted members stay, and the others come after the removals so far. -/
theorem siftMembers_eq (a : Allowance) (role : Text) (members : List Text)
    (removals : List Removal) :
    siftMembers a role members removals =
      (members.filter a.permits,
        removals ++ (members.filter fun member => !a.permits member).map fun member =>
          ⟨role, member⟩) := by
  -- The removals so far stay free, since every member that leaves makes them longer.
  induction members generalizing removals with
  | nil => simp [siftMembers]
  | cons member members ih =>
    by_cases stays : a.permits member = true
    · simp [siftMembers, stays, ih]
    · simp [siftMembers, stays, ih]

/-- Every binding is purged, and its removals come after those before it. -/
theorem siftBindings_eq (a : Allowance) (bindings : List Binding) (removals : List Removal) :
    siftBindings a bindings removals =
      (bindings.map (Binding.purge a), removals ++ bindings.flatMap (Binding.removals a)) := by
  induction bindings generalizing removals with
  | nil => simp [siftBindings]
  | cons b bindings ih =>
    simp [siftBindings, siftMembers_eq, ih, Binding.purge, Binding.removals]

/-- A purge keeps the bindings, each with its permitted members. -/
theorem bindings_purge (a : Allowance) (p : Policy) :
    (p.purge a).policy.bindings = p.bindings.map (Binding.purge a) := by
  rw [purge, siftBindings_eq]

/-- A purge keeps whatever else a policy carries. -/
@[simp]
theorem rest_purge (a : Allowance) (p : Policy) : (p.purge a).policy.rest = p.rest :=
  rfl

/-- A purge lists the removals of the bindings one after another. -/
theorem removals_purge (a : Allowance) (p : Policy) :
    (p.purge a).removals = p.bindings.flatMap (Binding.removals a) := by
  rw [purge, siftBindings_eq, List.nil_append]

end Policy

end PolicyWarden
