import Mathlib.Tactic.Common
import PolicyWarden.Policy.Purge

/-!
# Compliance of policies

A policy complies with an allowance if every member of every binding is permitted.  Three tests of
the library decide the same question: whether a purge leaves a policy as it is, whether it has
anything to list, and whether the bindings before and after it give the same access.  Each of them
holds exactly of the policies that comply, so a policy is written back exactly when somebody has to
leave it, and a purged policy is never purged again.
-/

namespace PolicyWarden

namespace Binding

variable {a : Allowance} {b : Binding}

/-- Every member of the binding is permitted. -/
def Complies (a : Allowance) (b : Binding) : Prop :=
  ∀ member ∈ b.members, a.permits member = true

/-- A list of members is the same as itself. -/
@[simp]
lemma sameMembers_refl (members : List Text) : sameMembers members members = true := by
  simp [sameMembers]

/-- A purge leaves exactly the binding alone that complies. -/
lemma purge_eq_self_iff : b.purge a = b ↔ b.Complies a := by
  have members : b.purge a = b ↔ b.members.filter a.permits = b.members := by
    cases b
    simp [purge]
  rw [members, List.filter_eq_self]
  exact Iff.rfl

/-- A purge lists nothing exactly for the binding that complies. -/
lemma removals_eq_nil_iff : b.removals a = [] ↔ b.Complies a := by
  simp [removals, Complies, List.filter_eq_nil_iff]

/-- The access before and after a purge is the same exactly for the binding that complies.  The
lengths decide it already: a purge that leaves out a member makes the list shorter. -/
lemma sameAccess_purge_iff : b.sameAccess (b.purge a) = true ↔ b.Complies a := by
  constructor
  · intro same
    have length : b.members.length = (b.members.filter a.permits).length := by
      simp only [sameAccess, sameMembers, Bool.and_eq_true, beq_iff_eq] at same
      exact same.2.1.1
    rw [← purge_eq_self_iff]
    have all : b.members.filter a.permits = b.members :=
      List.filter_sublist.eq_of_length length.symm
    cases b
    simpa [purge] using all
  · intro complies
    rw [purge_eq_self_iff.mpr complies]
    simp [sameAccess]

end Binding

namespace Policy

variable {a : Allowance} {p : Policy}

/-- Every member of every binding is permitted. -/
def Complies (a : Allowance) (p : Policy) : Prop :=
  ∀ b ∈ p.bindings, b.Complies a

/-- A purge leaves exactly the policy alone that complies. -/
lemma purge_eq_self_iff : (p.purge a).policy = p ↔ p.Complies a := by
  obtain ⟨bindings, rest⟩ := p
  simp only [purge, siftBindings_eq, Complies, Policy.mk.injEq, and_true]
  induction bindings with
  | nil => simp
  | cons b bindings ih =>
    rw [List.map_cons, List.cons.injEq, ih, Binding.purge_eq_self_iff, List.forall_mem_cons]

/-- A purge lists nothing exactly for the policy that complies. -/
lemma removals_eq_nil_iff : (p.purge a).removals = [] ↔ p.Complies a := by
  simp only [removals_purge, List.flatMap_eq_nil_iff]
  exact forall₂_congr fun b _ => Binding.removals_eq_nil_iff

/-- The access before and after a purge is the same exactly for the policy that complies. -/
lemma sameAccessAll_purge_iff :
    Binding.sameAccessAll p.bindings (p.purge a).policy.bindings = true ↔ p.Complies a := by
  obtain ⟨bindings, rest⟩ := p
  simp only [bindings_purge, Complies]
  induction bindings with
  | nil => simp [Binding.sameAccessAll]
  | cons b bindings ih =>
    simp only [List.map_cons, Binding.sameAccessAll, Bool.and_eq_true, List.forall_mem_cons, ih,
      Binding.sameAccess_purge_iff]

/-- A purged policy complies. -/
lemma complies_purge : (p.purge a).policy.Complies a := by
  intro b purged member mem
  rw [bindings_purge] at purged
  obtain ⟨b, -, rfl⟩ := List.mem_map.mp purged
  exact (List.mem_filter.mp mem).2

/-- A policy that complies is left alone, and nothing is noted. -/
lemma purge_of_complies (complies : p.Complies a) : p.purge a = ⟨p, []⟩ := by
  have kept : (p.purge a).policy = p := purge_eq_self_iff.mpr complies
  have none : (p.purge a).removals = [] := removals_eq_nil_iff.mpr complies
  exact congrArg₂ Purge.mk kept none

end Policy

end PolicyWarden
