import Mathlib.Tactic.Common
import PolicyWarden.Store

/-!
# How the store grows

Every change of a policy moves its tag on by one, and no tag ever comes back.  `Store.Grows` says
what may have become of a store through any number of changes: no tag is smaller than it was, and a
policy whose tag is the same has not been changed.  The text form of a tag tells it from all others.
Together these make a version a proof that nothing has happened since it was read, which is all that
a conditional write relies on (`Grows.stored_eq_of_version`).
-/

namespace PolicyWarden

/-! ### Versions -/

namespace Text

/-- The character of an ASCII digit is the one that its code unit names. -/
lemma ofNat_toNat_ofChar {c : Char} (digit : c.isDigit = true) :
    Char.ofNat (CodeUnit.ofChar c).toNat = c := by
  have small : c.toNat < 65536 := by
    simp only [Char.isDigit, Bool.and_eq_true, decide_eq_true_eq] at digit
    have upper : c.toNat ≤ 57 := digit.2
    omega
  have units : (CodeUnit.ofChar c).toNat = c.toNat := by
    simp only [CodeUnit.ofChar, UInt32.toNat_toUInt16]
    exact Nat.mod_eq_of_lt small
  rw [units, Char.ofNat_toNat]

/-- A natural number is told by its decimal digits. -/
lemma ofNat_injective {m n : Nat} (same : Text.ofNat m = Text.ofNat n) : m = n := by
  have back (k : Nat) : (Text.ofNat k).map (fun u => Char.ofNat u.toNat) = Nat.toDigits 10 k := by
    rw [Text.ofNat, List.map_map]
    conv_rhs => rw [← List.map_id (Nat.toDigits 10 k)]
    refine List.map_congr_left fun c mem => ?_
    exact ofNat_toNat_ofChar (Nat.isDigit_of_mem_toDigits (by decide) (by decide) mem)
  rw [← Nat.ofDigitChars_ten_toDigits (n := m), ← back, same, back, Nat.ofDigitChars_ten_toDigits]

end Text

namespace Store

variable {s t u : Store} {resource : Text}

/-! ### Growth -/

/-- What may have become of `s` through changes: no tag is smaller than it was, and where the tag is
the same, so is the policy. -/
def Grows (s t : Store) : Prop :=
  ∀ resource, (s.stored resource).etag ≤ (t.stored resource).etag ∧
    ((t.stored resource).etag = (s.stored resource).etag → t.stored resource = s.stored resource)

lemma Grows.refl (s : Store) : Grows s s :=
  fun _ => ⟨Nat.le_refl _, fun _ => rfl⟩

lemma Grows.trans (first : Grows s t) (second : Grows t u) : Grows s u := by
  intro resource
  obtain ⟨le, same⟩ := first resource
  obtain ⟨le', same'⟩ := second resource
  refine ⟨Nat.le_trans le le', fun eq => ?_⟩
  rw [same' (by omega), same (by omega)]

/-- A store grows when a resource is given a policy. -/
lemma grows_put (s : Store) (resource : Text) (policy : Policy) :
    Grows s (s.put resource policy) := by
  intro other
  by_cases h : resource = other
  · subst h
    rw [stored_put]
    exact ⟨Nat.le_succ _, fun eq => absurd eq (Nat.succ_ne_self _)⟩
  · rw [stored_put_of_ne s policy h]
    exact ⟨Nat.le_refl _, fun _ => rfl⟩

/-- A store grows when it learns of an organization. -/
lemma grows_addOrganization (s : Store) (organization : Organization) :
    Grows s (s.addOrganization organization) :=
  fun _ => ⟨Nat.le_refl _, fun _ => rfl⟩

/-- A version that was read and is still the one of the policy shows that nothing has changed. -/
lemma Grows.stored_eq_of_version (grows : Grows s t)
    (same : version (t.stored resource).etag = (s.fetch resource).version) :
    t.stored resource = s.stored resource :=
  (grows resource).2 (Text.ofNat_injective same)

/-- What is the same at both ends has been the same in between: no tag ever comes back. -/
lemma Grows.stored_eq_between (first : Grows s t) (second : Grows t u)
    (same : u.stored resource = s.stored resource) : t.stored resource = u.stored resource := by
  obtain ⟨up, -⟩ := first resource
  obtain ⟨down, kept⟩ := second resource
  rw [same] at down kept ⊢
  exact (kept (by omega)).symm

end Store

end PolicyWarden
