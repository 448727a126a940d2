import Mathlib.Tactic.Common
import PolicyWarden.Json.Numeral
import PolicyWarden.Number.Shortest
import PolicyWarden.Proofs.Text.Utf8

/-!
# Reading numerals

Whether a unit can prolong a numeral depends on the last part of the numeral alone, so a text is
followed through a numeral by the parts that it leads to (`Numeral.Reaches`).  A text is a numeral
without a sign (`Numeral.IsUnsigned`) if its first digit can begin a numeral and the rest leads from
there to a part with which a numeral may end; then it is a complete numeral, and with a minus sign
before it another one.
-/

namespace PolicyWarden

namespace Json

/-- A numeral may end with this part. -/
def NumeralPart.IsComplete (part : NumeralPart) : Prop :=
  part = .zero ∨ part = .digits ∨ part = .fraction ∨ part = .exponent

namespace Numeral

variable {n : Numeral} {s t : Text} {part last : NumeralPart}

/-- The numeral with the units of a text behind it. -/
def extendAll? (n : Numeral) (t : Text) : Option Numeral :=
  t.foldlM extend? n

/-- The numeral that a text spells out. -/
def ofText? : Text → Option Numeral
  | [] => none
  | u :: t => (start? u).bind fun n => n.extendAll? t

/-- Nothing is left to read. -/
@[simp]
lemma extendAll?_nil : n.extendAll? [] = some n :=
  rfl

/-- The first unit is read first. -/
lemma extendAll?_cons (u : CodeUnit) :
    n.extendAll? (u :: t) = (n.extend? u).bind fun m => m.extendAll? t := by
  simp [extendAll?]

/-- Two texts are read one after another. -/
lemma extendAll?_append : n.extendAll? (s ++ t) = (n.extendAll? s).bind fun m => m.extendAll? t := by
  simp [extendAll?]

/-- The text can follow the numeral, and the last part of the longer numeral is known. -/
def Reaches (n : Numeral) (t : Text) (part : NumeralPart) : Prop :=
  ∃ m, n.extendAll? t = some m ∧ m.part = part

/-- No text leaves the part as it is. -/
lemma Reaches.nil (eq : n.part = part) : n.Reaches [] part :=
  ⟨n, rfl, eq⟩

/-- A further text is read from the part that was reached. -/
lemma Reaches.append (first : n.Reaches s part)
    (second : ∀ m : Numeral, m.part = part → m.Reaches t last) : n.Reaches (s ++ t) last := by
  obtain ⟨m, read, at'⟩ := first
  obtain ⟨k, readOn, end'⟩ := second m at'
  exact ⟨k, by rw [extendAll?_append, read]; exact readOn, end'⟩

/-- A further unit and a text are read from the part that the unit leads to. -/
lemma Reaches.cons {u : CodeUnit} {m : Numeral} (first : n.extend? u = some m)
    (second : m.Reaches t last) : n.Reaches (u :: t) last := by
  obtain ⟨k, read, end'⟩ := second
  exact ⟨k, by rw [extendAll?_cons, first]; exact read, end'⟩

/-- Digits of an integer part prolong it and count to its coefficient. -/
lemma extendAll?_digits (at' : n.part = .digits) (digits : ∀ u ∈ t, CodeUnit.isDigit u = true) :
    n.extendAll? t
      = some { n with
          coefficient := t.foldl (fun value u => value * 10 + CodeUnit.digitValue u)
            n.coefficient } := by
  induction t generalizing n with
  | nil => rfl
  | cons u t ih =>
    obtain ⟨first, others⟩ := List.forall_mem_cons.mp digits
    have read : n.extend? u = some { n with coefficient := pushDigit n u } := by
      simp [extend?, at', first]
    rw [extendAll?_cons, read, Option.bind_some]
    exact ih (n := { n with coefficient := pushDigit n u }) at' others

/-- Digits of a part that digits prolong, or that a digit ends, lead to the longer part. -/
lemma Reaches.digits {part longer : NumeralPart} (at' : n.part = part) (ne : t ≠ [])
    (digits : ∀ u ∈ t, CodeUnit.isDigit u = true)
    (prolongs : ∀ (m : Numeral) (u : CodeUnit), m.part = part ∨ m.part = longer →
      CodeUnit.isDigit u = true → ∃ k, m.extend? u = some k ∧ k.part = longer) :
    n.Reaches t longer := by
  have go (t : Text) (digits : ∀ u ∈ t, CodeUnit.isDigit u = true) :
      ∀ m : Numeral, m.part = longer → m.Reaches t longer := by
    induction t with
    | nil => exact fun m eq => .nil eq
    | cons u t ih =>
      intro m eq
      obtain ⟨first, others⟩ := List.forall_mem_cons.mp digits
      obtain ⟨k, read, next⟩ := prolongs m u (.inr eq) first
      exact .cons read (ih others k next)
  obtain ⟨u, t, rfl⟩ := List.exists_cons_of_ne_nil ne
  obtain ⟨first, others⟩ := List.forall_mem_cons.mp digits
  obtain ⟨k, read, next⟩ := prolongs n u (.inl at') first
  exact .cons read (go t others k next)

/-- Digits behind the point are a fraction. -/
lemma reaches_fraction (at' : n.part = .point) (ne : t ≠ [])
    (digits : ∀ u ∈ t, CodeUnit.isDigit u = true) : n.Reaches t .fraction := by
  refine .digits at' ne digits fun m u eq digit => ?_
  rcases eq with eq | eq <;> exact ⟨_, by simp [extend?, eq, digit]; rfl, rfl⟩

/-- Digits behind the sign of an exponent are an exponent. -/
lemma reaches_exponent (at' : n.part = .exponentSign) (ne : t ≠ [])
    (digits : ∀ u ∈ t, CodeUnit.isDigit u = true) : n.Reaches t .exponent := by
  refine .digits at' ne digits fun m u eq digit => ?_
  rcases eq with eq | eq <;> exact ⟨_, by simp [extend?, eq, digit]; rfl, rfl⟩

/-- A unit that begins or prolongs a numeral is a sign, a digit, a point or a letter. -/
lemma isPlain_of_extend? {u : CodeUnit} {m : Numeral}
    (read : start? u = some m ∨ n.extend? u = some m) : u.IsPlain := by
  by_contra notPlain
  have large : 0x80 ≤ u.toNat := by
    by_contra small
    exact notPlain (.inl (by omega))
  have notDigit : CodeUnit.isDigit u = false := by
    simp only [CodeUnit.isDigit, Bool.and_eq_false_iff, decide_eq_false_iff_not,
      UInt16.le_iff_toNat_le, UInt16.reduceToNat]
    omega
  have ne {c : Char} (ascii : (CodeUnit.ofChar c).toNat < 0x80) : u ≠ CodeUnit.ofChar c := by
    rintro rfl
    omega
  have notMinus := ne (c := '-') (by decide)
  have notZero := ne (c := '0') (by decide)
  have notPoint := ne (c := '.') (by decide)
  have notSmall := ne (c := 'e') (by decide)
  have notLarge := ne (c := 'E') (by decide)
  have notPlus := ne (c := '+') (by decide)
  rcases read with read | read
  · simp [start?, notMinus, notZero, notDigit] at read
  · cases part : n.part <;>
      simp [extend?, afterInteger?, part, notDigit, notMinus, notZero, notPoint, notSmall,
        notLarge, notPlus] at read

/-- The units of a numeral are plain. -/
lemma isPlain_of_extendAll? {m : Numeral} (read : n.extendAll? t = some m) :
    ∀ u ∈ t, u.IsPlain := by
  induction t generalizing n with
  | nil => exact fun u mem => absurd mem (List.not_mem_nil)
  | cons u t ih =>
    rw [extendAll?_cons, Option.bind_eq_some_iff] at read
    obtain ⟨k, first, others⟩ := read
    exact List.forall_mem_cons.mpr ⟨isPlain_of_extend? (.inr first), ih others⟩

/-- A text that is a numeral is whole. -/
lemma isWhole_of_ofText? {m : Numeral} (read : ofText? t = some m) : t.IsWhole := by
  cases t with
  | nil => exact Text.isWhole_nil
  | cons u t =>
    rw [ofText?, Option.bind_eq_some_iff] at read
    obtain ⟨k, first, others⟩ := read
    exact (Text.isWhole_of_forall (isPlain_of_extendAll? others)).cons
      (isPlain_of_extend? (n := k) (.inl first))

/-- A complete numeral denotes a number. -/
lemma exists_number?_of_isComplete (complete : n.part.IsComplete) : ∃ x, n.number? = some x := by
  rcases complete with eq | eq | eq | eq <;> simp [number?, eq]

/-- The part of a numeral that begins with a digit. -/
def integerPart (u : CodeUnit) : NumeralPart :=
  if u = CodeUnit.ofChar '0' then .zero else .digits

/-- The text is a numeral without a sign: it begins with a digit, and whatever numeral this digit
has begun or prolonged, the rest of the text completes it. -/
def IsUnsigned (t : Text) : Prop :=
  ∃ first others part, t = first :: others ∧ CodeUnit.isDigit first = true ∧ part.IsComplete ∧
    ∀ n : Numeral, n.part = integerPart first → n.Reaches others part

/-- A digit begins a numeral, also behind a minus sign. -/
lemma exists_start?_of_isDigit {u : CodeUnit} (digit : CodeUnit.isDigit u = true) :
    (∃ n, start? u = some n ∧ n.part = integerPart u) ∧
      ∃ n, Numeral.extend? { part := .minus, negative := true } u = some n ∧
        n.part = integerPart u := by
  have notMinus : u ≠ CodeUnit.ofChar '-' := by
    rintro rfl
    exact absurd digit (by decide)
  by_cases zero : u = CodeUnit.ofChar '0'
  · exact ⟨⟨_, by simp [start?, zero]; rfl, by simp [integerPart, zero]⟩,
      ⟨_, by simp [extend?, zero]; rfl, by simp [integerPart, zero]⟩⟩
  · exact ⟨⟨_, by simp [start?, notMinus, zero, digit]; rfl, by simp [integerPart, zero]⟩,
      ⟨_, by simp [extend?, zero, digit]; rfl, by simp [integerPart, zero]⟩⟩

/-- A numeral without a sign is a complete numeral, and so it is behind a minus sign. -/
lemma IsUnsigned.exists_ofText?_signed (unsigned : IsUnsigned t) (negative : Bool) :
    ∃ n, ofText? (Number.signed negative t) = some n ∧ n.part.IsComplete := by
  obtain ⟨first, others, part, rfl, digit, complete, rest⟩ := unsigned
  obtain ⟨⟨n, start, at'⟩, m, behindMinus, next⟩ := exists_start?_of_isDigit digit
  cases negative with
  | false =>
    obtain ⟨k, read, rfl⟩ := rest n at'
    exact ⟨k, by simp [Number.signed, ofText?, start, read], complete⟩
  | true =>
    obtain ⟨k, read, rfl⟩ := rest m next
    have minus : start? (CodeUnit.ofChar '-') = some { part := .minus, negative := true } := rfl
    exact ⟨k, by simp [Number.signed, ofText?, minus, extendAll?_cons, behindMinus, read], complete⟩

end Numeral

end Json

end PolicyWarden
