import Mathlib.Tactic.Common
import Mathlib.Tactic.IntervalCases
import PolicyWarden.Text.Basic

/-!
# Decimal digits

The digits of a natural number are those of its tenth and a last one (`Text.ofNat_of_le`), so facts
about them are proved by strong induction on the number.  `Text.natValue_ofNat` reads a number back
from its digits, and `Text.isPositive_ofNat` says that zero is the only number that begins with the
digit zero.
-/

namespace PolicyWarden

namespace CodeUnit

/-- The unit of a decimal digit has its value, and only that of zero is the digit zero. -/
lemma digit_of_lt {d : Nat} (small : d < 10) :
    isDigit (ofChar d.digitChar) = true ∧ digitValue (ofChar d.digitChar) = d ∧
      (ofChar d.digitChar = ofChar '0' ↔ d = 0) := by
  interval_cases d <;> decide

end CodeUnit

namespace Text

variable {n : Nat} {u : CodeUnit}

/-- A number below ten has one digit. -/
lemma ofNat_of_lt (small : n < 10) : ofNat n = [CodeUnit.ofChar n.digitChar] := by
  rw [ofNat, Nat.toDigits_of_lt_base small]
  rfl

/-- The last digit of a larger number stands behind those of its tenth. -/
lemma ofNat_of_le (large : 10 ≤ n) :
    ofNat n = ofNat (n / 10) ++ [CodeUnit.ofChar (n % 10).digitChar] := by
  rw [ofNat, Nat.toDigits_of_base_le (by decide) large, List.map_append]
  rfl

/-- A number is written in digits. -/
lemma isDigit_of_mem_ofNat (mem : u ∈ ofNat n) : CodeUnit.isDigit u = true := by
  induction n using Nat.strong_induction_on with
  | _ n ih =>
    rcases Nat.lt_or_ge n 10 with small | large
    · rw [ofNat_of_lt small, List.mem_singleton] at mem
      exact mem ▸ (CodeUnit.digit_of_lt small).1
    · rw [ofNat_of_le large, List.mem_append, List.mem_singleton] at mem
      rcases mem with before | rfl
      · exact ih (n / 10) (by omega) before
      · exact (CodeUnit.digit_of_lt (Nat.mod_lt n (by decide))).1

/-- The digits of a number denote it. -/
lemma natValue_ofNat (n : Nat) : natValue (ofNat n) = n := by
  induction n using Nat.strong_induction_on with
  | _ n ih =>
    unfold natValue digitsValue at ih ⊢
    rcases Nat.lt_or_ge n 10 with small | large
    · simp [ofNat_of_lt small, (CodeUnit.digit_of_lt small).2.1]
    · have last := (CodeUnit.digit_of_lt (Nat.mod_lt n (show 10 > 0 by decide))).2.1
      rw [ofNat_of_le large, List.map_append, List.foldl_append, ih (n / 10) (by omega)]
      simp only [List.map_cons, List.map_nil, List.foldl_cons, List.foldl_nil, last]
      omega

/-- The text has fewer digits than `k` exactly if the number is below `10 ^ k`. -/
lemma length_ofNat_le_iff {k : Nat} (positive : 0 < k) : (ofNat n).length ≤ k ↔ n < 10 ^ k := by
  rw [ofNat, List.length_map, Nat.length_toDigits_le_iff (by decide) positive]

/-- The digits of a positive number: the first one is not zero. -/
def IsPositive (digits : Text) : Prop :=
  ∃ first others, digits = first :: others ∧ first ≠ CodeUnit.ofChar '0' ∧
    ∀ u ∈ digits, CodeUnit.isDigit u = true

/-- The digits of a number other than zero begin with one other than zero. -/
lemma isPositive_ofNat (ne : n ≠ 0) : IsPositive (ofNat n) := by
  suffices ∃ first others, ofNat n = first :: others ∧ first ≠ CodeUnit.ofChar '0' by
    obtain ⟨first, others, eq, notZero⟩ := this
    exact ⟨first, others, eq, notZero, fun u => isDigit_of_mem_ofNat⟩
  induction n using Nat.strong_induction_on with
  | _ n ih =>
    rcases Nat.lt_or_ge n 10 with small | large
    · exact ⟨_, [], ofNat_of_lt small, fun zero => ne ((CodeUnit.digit_of_lt small).2.2.mp zero)⟩
    · obtain ⟨first, others, eq, notZero⟩ := ih (n / 10) (by omega) (by omega)
      exact ⟨first, others ++ _, by rw [ofNat_of_le large, eq]; rfl, notZero⟩

end Text

end PolicyWarden
