import Mathlib.Data.List.Forall2
import Mathlib.Data.List.Perm.Subperm
import Mathlib.Tactic.Common
import PolicyWarden.Proofs.Policy.Compliance

/-!
# Comparing access

`Binding.sameMembers` looks for the members of its second list in its first one only, and counts the
different members of both.  That decides whether the two lists have the same members: those of the
second are among those of the first, and a list without repetitions that is as long as one it is
part of has everything that is in there (`Binding.mem_iff_of_subset`).  So the comparison of
bindings does not depend on which of them comes first, and `Binding.compares_exactly` says what it
decides.

What a purge makes of a policy compares as the same exactly if nothing was taken out of it.
-/

namespace PolicyWarden

namespace Binding

/-! ### Members without repetitions -/

/-- The different members of a list are listed once each. -/
lemma nodup_eraseDups (members : List Text) : members.eraseDups.Nodup := by
  induction size : members.length using Nat.strongRecOn generalizing members with
  | ind n ih =>
    cases members with
    | nil => simp
    | cons member members =>
      -- What is left of the list after its first member is shorter.
      have shorter : (members.filter fun other => !other == member).length < n := by
        have all := List.length_filter_le (fun other => !other == member) members
        rw [← size, List.length_cons]
        omega
      have first : member ∉ (members.filter fun other => !other == member).eraseDups := by
        simp
      rw [List.eraseDups_cons, List.nodup_cons]
      exact ⟨first, ih _ shorter _ rfl⟩

/-- Lists have the same members if those of the second are among those of the first and as many
different ones. -/
lemma mem_iff_of_subset {a b : List Text} (among : b ⊆ a)
    (many : b.eraseDups.length = a.eraseDups.length) (member : Text) : member ∈ a ↔ member ∈ b := by
  have part : b.eraseDups ⊆ a.eraseDups := by
    intro other mem
    rw [List.mem_eraseDups] at mem ⊢
    exact among mem
  have all : b.eraseDups.Perm a.eraseDups :=
    (List.subperm_of_subset (nodup_eraseDups b) part).perm_of_length_le (Nat.le_of_eq many.symm)
  rw [← List.mem_eraseDups, ← all.mem_iff, List.mem_eraseDups]

/-- Lists with the same members have as many different ones. -/
lemma length_eraseDups_eq {a b : List Text} (same : ∀ member, member ∈ a ↔ member ∈ b) :
    b.eraseDups.length = a.eraseDups.length := by
  have all : b.eraseDups.Perm a.eraseDups := by
    rw [List.perm_ext_iff_of_nodup (nodup_eraseDups b) (nodup_eraseDups a)]
    intro member
    rw [List.mem_eraseDups, List.mem_eraseDups, same]
  exact all.length_eq

/-- What the comparison of members decides. -/
lemma sameMembers_iff {a b : List Text} :
    sameMembers a b = true ↔ a.length = b.length ∧ ∀ member, member ∈ a ↔ member ∈ b := by
  have looked : b.all a.eraseDups.contains = true ↔ b ⊆ a := by
    simp only [List.all_eq_true, List.contains_iff_mem, List.mem_eraseDups]
    exact Iff.rfl
  simp only [sameMembers, Bool.and_eq_true, beq_iff_eq, looked]
  constructor
  · rintro ⟨⟨length, among⟩, many⟩
    exact ⟨length, mem_iff_of_subset among many⟩
  · rintro ⟨length, same⟩
    exact ⟨⟨length, fun member => (same member).mpr⟩, length_eraseDups_eq same⟩

/-! ### Bindings -/

/-- The bindings give one role to as many members, who are the same. -/
def SameAccess (a b : Binding) : Prop :=
  a.role = b.role ∧ a.members.length = b.members.length ∧
    ∀ member, member ∈ a.members ↔ member ∈ b.members

/-- Giving the same access is an equivalence. -/
lemma equivalence_sameAccess : Equivalence SameAccess where
  refl _ := ⟨rfl, rfl, fun _ => Iff.rfl⟩
  symm same := ⟨same.1.symm, same.2.1.symm, fun member => (same.2.2 member).symm⟩
  trans first second :=
    ⟨first.1.trans second.1, first.2.1.trans second.2.1,
      fun member => (first.2.2 member).trans (second.2.2 member)⟩

/-- What the comparison of two bindings decides. -/
lemma sameAccess_iff {a b : Binding} : a.sameAccess b = true ↔ a.SameAccess b := by
  rw [sameAccess, Bool.and_eq_true, beq_iff_eq, sameMembers_iff]
  exact Iff.rfl

/-- Bindings are compared one by one. -/
lemma sameAccessAll_iff {as bs : List Binding} :
    sameAccessAll as bs = true ↔
      as.length = bs.length ∧
        ∀ (i : Nat) (h : i < as.length) (h' : i < bs.length), as[i].SameAccess bs[i] := by
  have pairwise : sameAccessAll as bs = true ↔ List.Forall₂ SameAccess as bs := by
    induction as generalizing bs with
    | nil => cases bs <;> simp [sameAccessAll]
    | cons a as ih =>
      cases bs with
      | nil => simp [sameAccessAll]
      | cons b bs => rw [sameAccessAll, Bool.and_eq_true, sameAccess_iff, ih, List.forall₂_cons]
  rw [pairwise, List.forall₂_iff_get]
  exact Iff.rfl

/-- The comparison of bindings is an equivalence. -/
lemma equivalence_sameAccessAll :
    Equivalence fun as bs : List Binding => sameAccessAll as bs = true where
  refl as := sameAccessAll_iff.mpr ⟨rfl, fun _ _ _ => equivalence_sameAccess.refl _⟩
  symm same := by
    rw [sameAccessAll_iff] at same ⊢
    exact ⟨same.1.symm, fun i h h' => equivalence_sameAccess.symm (same.2 i h' h)⟩
  trans first second := by
    rw [sameAccessAll_iff] at first second ⊢
    refine ⟨first.1.trans second.1, fun i h h' => ?_⟩
    have between := first.1 ▸ h
    exact equivalence_sameAccess.trans (first.2 i h between) (second.2 i between h')

/-- **What the comparison decides.**  Two lists of bindings compare as the same exactly if they have
the same length and give, at every place, one role to as many members, who are the same; this is an
equivalence.  What a purge makes of the bindings of a policy compares as the same exactly if nothing
was taken out of them, and that is so exactly if the purge has left the policy as it was. -/
theorem compares_exactly :
    (∀ as bs : List Binding, sameAccessAll as bs = true ↔
      as.length = bs.length ∧
        ∀ (i : Nat) (h : i < as.length) (h' : i < bs.length),
          as[i].role = bs[i].role ∧ as[i].members.length = bs[i].members.length ∧
            ∀ member, member ∈ as[i].members ↔ member ∈ bs[i].members) ∧
    (Equivalence fun as bs : List Binding => sameAccessAll as bs = true) ∧
    ∀ (a : Allowance) (p : Policy),
      (sameAccessAll p.bindings (p.purge a).policy.bindings = true ↔ (p.purge a).removals = []) ∧
      ((p.purge a).removals = [] ↔ (p.purge a).policy = p) := by
  refine ⟨fun as bs => sameAccessAll_iff, equivalence_sameAccessAll, fun a p => ⟨?_, ?_⟩⟩
  · exact Policy.sameAccessAll_purge_iff.trans Policy.removals_eq_nil_iff.symm
  · exact Policy.removals_eq_nil_iff.trans Policy.purge_eq_self_iff.symm

/-- Repetitions may differ as long as the members do not. -/
example :
    sameAccessAll [⟨"owner", ["x", "y", "x"], []⟩] [⟨"owner", ["y", "y", "x"], []⟩] = true ∧
      sameAccessAll [⟨"owner", ["x", "x"], []⟩] [⟨"owner", ["x", "y"], []⟩] = false := by
  decide

end Binding

end PolicyWarden
