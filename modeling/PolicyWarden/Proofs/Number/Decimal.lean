import Mathlib.Data.List.DropRight
import PolicyWarden.Json.Basic
import PolicyWarden.Proofs.Json.Numeral
import PolicyWarden.Proofs.Text.Digits

/-!
# Numbers as numerals

A number is written as its shortest decimal, and what is written is always a JSON numeral
(`Number.exists_ofNumeral?_render`): it has a digit before the point and, if there is a point, one
behind it.  The one thing that this needs of the search for the shortest decimal is that it never
ends with the coefficient zero (`Number.coefficient_shortestFrom_ne_zero`), of which no digit would
be left.

The integers below `2 ^ 53` in magnitude are written with all their digits, and they are read back
exactly (`Number.ofNumeral?_render_whole`).
-/

namespace PolicyWarden

namespace Number

open Json Json.Numeral

variable {digits : Text}

/-! ### Layouts -/

/-- A positive number stays positive without the zeros at its end. -/
lemma isPositive_dropLastZeros (positive : Text.IsPositive digits) :
    Text.IsPositive (dropLastZeros digits) := by
  obtain ⟨first, others, eq, notZero, all⟩ := positive
  obtain ⟨zeros, rest⟩ : dropLastZeros digits <+: digits := List.rdropWhile_prefix _ _
  have ne : dropLastZeros digits ≠ [] := by
    intro empty
    have zero := List.rdropWhile_eq_nil_iff.mp empty first (by simp [eq])
    exact notZero (by simpa using zero)
  obtain ⟨u, kept, shape⟩ := List.exists_cons_of_ne_nil ne
  have same : u = first := by
    rw [shape, eq, List.cons_append] at rest
    exact (List.cons.inj rest).1
  refine ⟨u, kept, shape, same ▸ notZero, fun v mem => all v ?_⟩
  rw [← rest]
  exact List.mem_append_left _ mem

/-- A positive number stays positive with zeros at its end. -/
lemma isPositive_append_zeros (positive : Text.IsPositive digits) (count : Nat) :
    Text.IsPositive (digits ++ zeros count) := by
  obtain ⟨first, others, rfl, notZero, all⟩ := positive
  refine ⟨first, others ++ zeros count, rfl, notZero, fun u mem => ?_⟩
  rcases List.mem_append.mp mem with old | new
  · exact all u old
  · rw [List.eq_of_mem_replicate new]
    decide

/-- The digits of a positive number with a point among them are an integer part and perhaps a
fraction. -/
lemma reaches_pointed (positive : Text.IsPositive digits) {count : Nat} (ne : 0 < count) :
    ∃ first others part, pointed digits count = first :: others ∧
      CodeUnit.isDigit first = true ∧ integerPart first = .digits ∧
      (part = .digits ∨ part = .fraction) ∧
      ∀ n : Numeral, n.part = .digits → n.Reaches others part := by
  obtain ⟨first, others, rfl, notZero, all⟩ := positive
  obtain ⟨digit, rest⟩ := List.forall_mem_cons.mp all
  have integer : integerPart first = .digits := if_neg notZero
  obtain ⟨k, rfl⟩ := Nat.exists_eq_succ_of_ne_zero ne.ne'
  have readAll {t : Text} (part : ∀ u ∈ t, CodeUnit.isDigit u = true) (n : Numeral)
      (at' : n.part = .digits) : n.Reaches t .digits :=
    ⟨_, extendAll?_digits at' part, at'⟩
  cases fraction : others.drop k with
  | nil =>
    exact ⟨first, others, .digits, by simp [pointed, fraction], digit, integer, .inl rfl,
      readAll rest⟩
  | cons u t =>
    have before : ∀ v ∈ others.take k, CodeUnit.isDigit v = true :=
      fun v mem => rest v (List.mem_of_mem_take mem)
    have behind : ∀ v ∈ u :: t, CodeUnit.isDigit v = true :=
      fun v mem => rest v (List.mem_of_mem_drop (fraction ▸ mem))
    refine ⟨first, others.take k ++ CodeUnit.ofChar '.' :: u :: t, .fraction,
      by simp [pointed, fraction], digit, integer, .inr rfl, fun n at' => ?_⟩
    refine (readAll before n at').append fun m atDigits => ?_
    have point : m.extend? (CodeUnit.ofChar '.') = some { m with part := .point } := by
      rw [extend?, atDigits]
      rfl
    exact .cons point (reaches_fraction rfl (by simp) behind)

/-- A power of ten may stand behind digits and behind a fraction. -/
lemma reaches_exponentText {n : Numeral} (at' : n.part = .digits ∨ n.part = .fraction)
    (exponent : Int) : n.Reaches (exponentText exponent) .exponent := by
  have letter : n.extend? (CodeUnit.ofChar 'e') = some { n with part := .letter } := by
    rcases at' with eq | eq <;> (rw [extend?, eq]; rfl)
  have ne : Text.ofNat exponent.natAbs ≠ [] := by
    simp [Text.ofNat, Nat.toDigits_ne_nil]
  refine .cons letter ?_
  split_ifs
  · exact .cons rfl (reaches_exponent rfl ne fun u => Text.isDigit_of_mem_ofNat)
  · exact .cons rfl (reaches_exponent rfl ne fun u => Text.isDigit_of_mem_ofNat)

/-- The digits of a positive number are laid out as a numeral. -/
lemma isUnsigned_layout (positive : Text.IsPositive digits) (position : Int) :
    IsUnsigned (layout digits position) := by
  unfold layout
  split_ifs with positional small
  · simp only [Bool.and_eq_true, decide_eq_true_eq] at positional
    obtain ⟨first, others, part, eq, digit, integer, complete, rest⟩ :=
      reaches_pointed (isPositive_append_zeros positive (position.toNat - digits.length))
        (show 0 < position.toNat by omega)
    refine ⟨first, others, part, eq, digit, ?_, fun n at' => rest n (at'.trans integer)⟩
    rcases complete with rfl | rfl
    · exact .inr (.inl rfl)
    · exact .inr (.inr (.inl rfl))
  · obtain ⟨first, others, rfl, notZero, all⟩ := positive
    refine ⟨CodeUnit.ofChar '0', CodeUnit.ofChar '.' ::
      (zeros (-position).toNat ++ first :: others), .fraction, by simp; rfl, by decide,
      .inr (.inr (.inl rfl)), fun n at' => ?_⟩
    have point : n.extend? (CodeUnit.ofChar '.') = some { n with part := .point } := by
      rw [extend?, at']
      rfl
    refine .cons point (reaches_fraction rfl (by simp) fun u mem => ?_)
    rcases List.mem_append.mp mem with zero | mem
    · rw [List.eq_of_mem_replicate zero]
      decide
    · exact all u mem
  · obtain ⟨first, others, part, eq, digit, integer, complete, rest⟩ :=
      reaches_pointed positive Nat.one_pos
    refine ⟨first, others ++ exponentText (position - 1), .exponent, by rw [eq]; rfl, digit,
      .inr (.inr (.inr rfl)), fun n at' => ?_⟩
    refine (rest n (at'.trans integer)).append fun m reached => ?_
    exact reaches_exponentText (reached ▸ complete) (position - 1)

/-- A decimal with a coefficient other than zero is written as a numeral. -/
lemma isUnsigned_render {d : Decimal} (ne : d.coefficient ≠ 0) : IsUnsigned d.render :=
  isUnsigned_layout (isPositive_dropLastZeros (Text.isPositive_ofNat ne)) _

/-! ### The search for the shortest decimal -/

/-- A fraction of at least one does not round to zero. -/
lemma divideToEven_ne_zero {num den : Nat} (positive : 0 < den) (le : den ≤ num) :
    divideToEven num den ≠ 0 := by
  have quotient : 1 ≤ num / den := (Nat.one_le_div_iff positive).mpr le
  unfold divideToEven
  dsimp only
  split_ifs <;> omega

/-- A power of ten is written as such. -/
lemma decimal_eq (exponent : Nat) : decimal exponent = 10 ^ exponent :=
  rfl

/-- A power of ten is positive. -/
lemma decimal_pos (exponent : Nat) : 0 < decimal exponent :=
  Nat.pow_pos (by decide)

/-- A unit of one or more divides the fraction. -/
lemma inUnits_of_nonneg {num den : Nat} {exponent : Int} (sign : 0 ≤ exponent) :
    inUnits num den exponent = (num, den * 10 ^ exponent.toNat) :=
  if_pos sign

/-- A unit below one multiplies the fraction. -/
lemma inUnits_of_neg {num den : Nat} {exponent : Int} (sign : ¬ 0 ≤ exponent) :
    inUnits num den exponent = (num * 10 ^ (-exponent).toNat, den) :=
  if_neg sign

/-- A fraction that begins within the reach of decimals does not round to zero in units of any of
its digits. -/
lemma divideToEven_inUnits_ne_zero {num den digits : Nat} (positive : 0 < den)
    (some' : 0 < digits) (le : den ≤ num * decimal decimalReach) :
    divideToEven (inUnits num den (pointPosition num den - digits)).1
      (inUnits num den (pointPosition num den - digits)).2 ≠ 0 := by
  -- The reach is a large literal, of which nothing needs to be known.
  rw [pointPosition]
  generalize decimalReach = reach at le ⊢
  rw [decimal_eq] at le ⊢
  set length := (Text.ofNat (num * 10 ^ reach / den)).length with hlength
  have lengthPos : 1 ≤ length := by
    rw [hlength, Text.ofNat, List.length_map]
    exact Nat.length_toDigits_pos
  -- A number with `length` digits is not below `10 ^ (length - 1)`.
  have large : den * 10 ^ (length - 1) ≤ num * 10 ^ reach := by
    have least : 10 ^ (length - 1) ≤ num * 10 ^ reach / den := by
      rcases Nat.eq_zero_or_pos (length - 1) with zero | more
      · rw [zero]
        exact (Nat.one_le_div_iff positive).mpr le
      · by_contra below
        have fewer := (Text.length_ofNat_le_iff more).mpr (Nat.not_le.mp below)
        omega
    calc den * 10 ^ (length - 1) ≤ den * (num * 10 ^ reach / den) := Nat.mul_le_mul_left den least
      _ ≤ num * 10 ^ reach := Nat.mul_div_le _ _
  have larger : den * 10 ^ (length - 1) ≤ num * 10 ^ (reach + digits - 1) :=
    large.trans (Nat.mul_le_mul_left num (Nat.pow_le_pow_right (by decide) (by omega)))
  have power (exponent : Nat) : 0 < 10 ^ exponent := Nat.pow_pos (by decide)
  by_cases sign : 0 ≤ (length : Int) - reach - digits
  · have exponent : ((length : Int) - reach - digits).toNat + (reach + digits - 1)
        = length - 1 := by
      omega
    rw [inUnits_of_nonneg sign]
    refine divideToEven_ne_zero (Nat.mul_pos positive (power _)) ?_
    refine Nat.le_of_mul_le_mul_right ?_ (power (reach + digits - 1))
    rw [Nat.mul_assoc, ← Nat.pow_add, exponent]
    exact larger
  · have exponent : (-((length : Int) - reach - digits)).toNat + (length - 1)
        = reach + digits - 1 := by
      omega
    rw [inUnits_of_neg sign]
    refine divideToEven_ne_zero positive ?_
    refine Nat.le_of_mul_le_mul_right ?_ (power (length - 1))
    rw [Nat.mul_assoc, ← Nat.pow_add, exponent]
    exact larger

/-- A coefficient that reads back as a value other than zero is not zero. -/
lemma coefficient?_ne_zero {value : Number} (ne : value ≠ whole 0) {num den : Nat}
    {exponent : Int} {coefficient : Nat}
    (found : coefficient? value num den exponent = some coefficient) : coefficient ≠ 0 := by
  have reads : ofDecimal false coefficient exponent = value := by
    unfold coefficient? at found
    extract_lets scaled lower nearest farther at found
    split_ifs at found with first second
    · exact Option.some.inj found ▸ first
    · exact Option.some.inj found ▸ second
  rintro rfl
  exact ne reads.symm

/-- **No search ends with zero.**  A candidate reads back as the value, which is not zero, and
neither is what is taken after the last candidate. -/
lemma coefficient_shortestFrom_ne_zero {value : Number} (ne : value ≠ whole 0) {num den : Nat}
    {position : Int} {more count : Nat}
    (last : divideToEven (inUnits num den (position - (count + more : Nat))).1
      (inUnits num den (position - (count + more : Nat))).2 ≠ 0) :
    (shortestFrom value num den position more count).coefficient ≠ 0 := by
  induction more generalizing count with
  | zero => exact last
  | succ more ih =>
    unfold shortestFrom
    cases found : coefficient? value num den (position - count) with
    | some coefficient => exact coefficient?_ne_zero ne found
    | none =>
      refine ih ?_
      rwa [Nat.add_right_comm]

/-- The shortest decimal of a value other than zero is written as a numeral. -/
lemma isUnsigned_shortest {value : Number} (ne : value ≠ whole 0) {num den : Nat}
    (positive : 0 < den) (le : den ≤ num * decimal decimalReach) :
    IsUnsigned (shortest value num den).render :=
  isUnsigned_render <| coefficient_shortestFrom_ne_zero ne <|
    divideToEven_inUnits_ne_zero positive (by decide) le

/-! ### Written numbers -/

/-- The digits of a positive number are a numeral. -/
lemma ofText?_signed (positive : Text.IsPositive digits) (negative : Bool) :
    ofText? (signed negative digits) =
      some { part := .digits, negative := negative, coefficient := Text.natValue digits } := by
  obtain ⟨first, others, rfl, notZero, all⟩ := positive
  obtain ⟨digit, rest⟩ := List.forall_mem_cons.mp all
  have value : others.foldl (fun value u => value * 10 + CodeUnit.digitValue u)
      (CodeUnit.digitValue first) = Text.natValue (first :: others) := by
    simp [Text.natValue, Text.digitsValue, List.foldl_map]
  have notMinus : first ≠ CodeUnit.ofChar '-' := by
    rintro rfl
    exact absurd digit (by decide)
  cases negative with
  | false =>
    have start : start? first
        = some { part := .digits, coefficient := CodeUnit.digitValue first } := by
      simp [start?, notMinus, notZero, digit]
    rw [signed, if_neg Bool.false_ne_true, ofText?, start, Option.bind_some,
      extendAll?_digits rfl rest, value]
  | true =>
    have next : extend? { part := .minus, negative := true } first
        = some { part := .digits, negative := true, coefficient := CodeUnit.digitValue first } := by
      simp [extend?, notZero, digit]
    have minus : start? (CodeUnit.ofChar '-') = some { part := .minus, negative := true } := rfl
    rw [signed, if_pos rfl, ofText?, minus, Option.bind_some, extendAll?_cons, next,
      Option.bind_some, extendAll?_digits rfl rest, value]

/-- An integer is written as its digits behind its sign. -/
lemma ofInt_eq_signed (n : Int) : Text.ofInt n = signed (n < 0) (Text.ofNat n.natAbs) := by
  cases n with
  | ofNat k =>
    have sign : ¬ (Int.ofNat k < 0) := Int.not_lt.mpr (Int.natCast_nonneg k)
    simp [Text.ofInt, signed]
  | negSucc k => simp [Text.ofInt, signed, Int.negSucc_lt_zero]

/-- An integer below the bound of exact integers is the number of its coefficient. -/
lemma ofDecimal_eq_whole {k : Nat} (ne : k ≠ 0) (small : k < exactBound) (negative : Bool) :
    ofDecimal negative k 0 = whole (if negative then -k else k) := by
  have length : (Text.ofNat k).length ≤ 16 := by
    rw [Text.length_ofNat_le_iff (by decide)]
    exact small.trans (by decide)
  have noOverflow : ¬ ((decimalReach : Int) < (Text.ofNat k).length + 0) := by
    unfold decimalReach
    omega
  have noUnderflow : ¬ (((Text.ofNat k).length : Int) + 0 < -decimalReach) := by
    unfold decimalReach
    omega
  have unit : k * decimal (0 : Int).toNat = k := Nat.mul_one k
  have exact' : (k % 1 = 0 && k / 1 < exactBound) = true := by
    simp [Nat.mod_one, small]
  rw [ofDecimal, if_neg ne]
  dsimp only
  rw [if_neg noOverflow, if_neg noUnderflow, if_pos (Int.le_refl 0), unit, ofRatio, if_pos exact',
    Nat.div_one, ofMagnitude, if_neg ne]

/-- The number that a text denotes as a JSON numeral. -/
def ofNumeral? (t : Text) : Option Number :=
  (Numeral.ofText? t).bind Numeral.number?

/-- **Integers read back.**  An integer below `2 ^ 53` in magnitude is read as it was written. -/
theorem ofNumeral?_render_whole {n : Int} (small : n.natAbs < exactBound) :
    ofNumeral? (whole n).render = some (whole n) := by
  rw [render, if_pos small, ofInt_eq_signed]
  by_cases zero : n.natAbs = 0
  · obtain rfl := Int.natAbs_eq_zero.mp zero
    decide +kernel
  · have value : Numeral.number? { part := .digits, negative := n < 0, coefficient := n.natAbs }
        = some (ofDecimal (n < 0) n.natAbs 0) := rfl
    rw [ofNumeral?, ofText?_signed (Text.isPositive_ofNat zero), Text.natValue_ofNat,
      Option.bind_some, value, ofDecimal_eq_whole zero small]
    congr 2
    simp only [decide_eq_true_eq]
    split_ifs <;> omega

/-- A fraction is kept as a value of the format: its numerator is odd, and its denominator is not
beyond the reach of the exponents. -/
def IsRegular : Number → Prop
  | dyadic _ numerator shift => numerator % 2 = 1 ∧ 1 ≤ shift ∧ shift ≤ 1074
  | _ => True

instance (n : Number) : Decidable n.IsRegular := by
  cases n <;> unfold IsRegular <;> infer_instance

/-- A numeral without a sign denotes a number, also behind a minus sign. -/
lemma exists_ofNumeral?_signed {t : Text} (unsigned : IsUnsigned t) (negative : Bool) :
    ∃ x, ofNumeral? (signed negative t) = some x := by
  obtain ⟨n, read, complete⟩ := unsigned.exists_ofText?_signed negative
  obtain ⟨x, value⟩ := exists_number?_of_isComplete complete
  exact ⟨x, by rw [ofNumeral?, read]; exact value⟩

/-- The powers of two ascend. -/
lemma binary_le_binary {small large : Nat} (le : small ≤ large) : binary small ≤ binary large :=
  Nat.pow_le_pow_right (by decide) le

/-- Every denominator of the format is within the reach of decimals. -/
lemma binary_le_decimal {shift : Nat} (le : shift ≤ 1074) :
    binary shift ≤ decimal decimalReach := by
  have reach : binary 1074 ≤ decimal decimalReach := by decide +kernel
  exact Nat.le_trans (binary_le_binary le) reach

/-- **Written numbers are numerals.**  What is written for a value of the format other than an
infinity or a missing number denotes a number. -/
theorem exists_ofNumeral?_render {n : Number} (regular : n.IsRegular)
    (finite : n.isFinite = true) : ∃ x, ofNumeral? n.render = some x := by
  cases n with
  | whole n =>
    by_cases small : n.natAbs < exactBound
    · exact ⟨_, ofNumeral?_render_whole small⟩
    · have ne : n.natAbs ≠ 0 := by
        intro zero
        exact small (zero ▸ by decide)
      have reach : 1 ≤ n.natAbs * decimal decimalReach :=
        Nat.mul_pos (Nat.pos_of_ne_zero ne) (decimal_pos decimalReach)
      have notZero : whole n.natAbs ≠ whole 0 := by
        intro zero
        exact ne (by simpa using zero)
      rw [render, if_neg small]
      exact exists_ofNumeral?_signed (isUnsigned_shortest notZero Nat.one_pos reach) _
  | negativeZero => exact ⟨whole 0, by decide +kernel⟩
  | dyadic negative numerator shift =>
    obtain ⟨odd, -, le⟩ := regular
    have reach : binary shift ≤ numerator * decimal decimalReach := by
      have positive : 1 ≤ numerator := by omega
      calc binary shift ≤ decimal decimalReach := binary_le_decimal le
        _ = 1 * decimal decimalReach := (Nat.one_mul _).symm
        _ ≤ numerator * decimal decimalReach := Nat.mul_le_mul_right _ positive
    exact exists_ofNumeral?_signed
      (isUnsigned_shortest (by simp) (Nat.pow_pos (by decide)) reach) negative
  | infinite negative => cases finite
  | notANumber => cases finite

/-- The value that is read where a number was written: JSON has no text for an infinity or a missing
number. -/
def written (n : Number) : Json :=
  if n.isFinite then (ofNumeral? n.render).elim .null .number else .null

/-- The number with a zero of no sign. -/
def unsignedZero : Number → Number
  | negativeZero => whole 0
  | n => n

/-- An integer that the format has with all its digits. -/
def IsExactInteger : Number → Prop
  | whole n => n.natAbs < exactBound
  | negativeZero => True
  | _ => False

instance (n : Number) : Decidable n.IsExactInteger := by
  cases n <;> unfold IsExactInteger <;> infer_instance

/-- An exact integer is read back, up to the sign of a zero. -/
lemma written_of_isExactInteger {n : Number} (exact' : n.IsExactInteger) :
    n.written = .number n.unsignedZero := by
  cases n with
  | whole n =>
    rw [written, if_pos (show (whole n).isFinite = true from rfl), ofNumeral?_render_whole exact']
    rfl
  | negativeZero => decide +kernel
  | dyadic | infinite | notANumber => cases exact'

end Number

end PolicyWarden
