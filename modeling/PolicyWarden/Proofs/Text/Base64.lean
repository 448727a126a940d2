import Mathlib.Tactic.Common
import PolicyWarden.Text.Base64

/-!
# Base64 read back

`Base64.sextets` is what stands between bytes and text: the digit values of a byte string, six bits
each.  A text in a known style shows exactly these values, and these values give the bytes back.
So `Base64.decode` undoes `Base64.encodeIn` for either alphabet and with or without padding.

Of any text at all, `length_decode` says how many bytes it holds.  A text holds none exactly if it
shows fewer than two digits before its first padding sign, although it need not be empty.
-/

namespace PolicyWarden

namespace Base64

/-! ### Digit values -/

/-- The digit values of a byte string, six bits each; the last one is filled up with zeros. -/
def sextets : Bytes → List Nat
  | [] => []
  | [a] => [a.toNat / 4, a.toNat % 4 * 16]
  | [a, b] => [a.toNat / 4, a.toNat % 4 * 16 + b.toNat / 16, b.toNat % 16 * 4]
  | a :: b :: c :: rest =>
      a.toNat / 4 :: (a.toNat % 4 * 16 + b.toNat / 16) :: (b.toNat % 16 * 4 + c.toNat / 64) ::
        (c.toNat % 64) :: sextets rest

/-- The padding signs at the end of a byte string. -/
def paddingAfter (style : Style) (bytes : Bytes) : Text :=
  paddingOf style ((3 - bytes.length % 3) % 3)

/-- A byte string is written as the digits of its values and some padding. -/
lemma encodeIn_eq (style : Style) (bytes : Bytes) :
    encodeIn style bytes = (sextets bytes).map (digit style) ++ paddingAfter style bytes := by
  fun_induction encodeIn style bytes with
  | case1 => cases h : style.padded <;> simp [sextets, paddingAfter, paddingOf, h]
  | case2 a => simp [sextets, paddingAfter]
  | case3 a b => simp [sextets, paddingAfter]
  | case4 a b c rest ih =>
    have length : (3 - (a :: b :: c :: rest).length % 3) % 3 = (3 - rest.length % 3) % 3 := by
      simp only [List.length_cons]
      omega
    rw [ih, paddingAfter, paddingAfter, length]
    simp [sextets]

/-- Digit values have six bits. -/
lemma lt_of_mem_sextets {bytes : Bytes} {value : Nat} (mem : value ∈ sextets bytes) :
    value < 64 := by
  have byte (a : UInt8) : a.toNat < 256 := a.toNat_lt
  fun_induction sextets bytes with
  | case1 => cases mem
  | case2 a =>
    have := byte a
    simp only [List.mem_cons, List.not_mem_nil, or_false] at mem
    omega
  | case3 a b =>
    have := byte a
    have := byte b
    simp only [List.mem_cons, List.not_mem_nil, or_false] at mem
    omega
  | case4 a b c rest ih =>
    have := byte a
    have := byte b
    have := byte c
    simp only [List.mem_cons] at mem
    rcases mem with rfl | rfl | rfl | rfl | mem
    · omega
    · omega
    · omega
    · omega
    · exact ih mem

/-- Eight bits that were taken apart and put together again are the byte that they were. -/
lemma toUInt8_eq {a : UInt8} {n : Nat} (eq : n = a.toNat) : n.toUInt8 = a := by
  rw [eq]
  exact UInt8.ofNat_toNat

/-- The digit values of a byte string give it back. -/
lemma bytesOfValues_sextets (bytes : Bytes) : bytesOfValues (sextets bytes) = bytes := by
  have byte (a : UInt8) : a.toNat < 256 := a.toNat_lt
  fun_induction sextets bytes with
  | case1 => rfl
  | case2 a =>
    have := byte a
    rw [bytesOfValues, toUInt8_eq (a := a) (by omega)]
  | case3 a b =>
    have := byte a
    have := byte b
    rw [bytesOfValues, toUInt8_eq (a := a) (by omega), toUInt8_eq (a := b) (by omega)]
  | case4 a b c rest ih =>
    have := byte a
    have := byte b
    have := byte c
    rw [bytesOfValues, toUInt8_eq (a := a) (by omega), toUInt8_eq (a := b) (by omega),
      toUInt8_eq (a := c) (by omega), ih]

/-! ### Reading a written text -/

/-- A style whose two last digits are those of the standard or of the URL-safe alphabet. -/
structure Style.IsKnown (style : Style) : Prop where
  digit62 : style.digit62 = CodeUnit.ofChar '+' ∨ style.digit62 = CodeUnit.ofChar '-'
  digit63 : style.digit63 = CodeUnit.ofChar '/' ∨ style.digit63 = CodeUnit.ofChar '_'

/-- The standard alphabet is known. -/
lemma isKnown_standard : standard.IsKnown :=
  ⟨.inl rfl, .inl rfl⟩

/-- The URL-safe alphabet is known. -/
lemma isKnown_urlSafe : urlSafe.IsKnown :=
  ⟨.inr rfl, .inr rfl⟩

/-- What is read of a digit: it has no high bits, it ends nothing, and it has its value. -/
structure IsDigitOf (value : Nat) (u : CodeUnit) : Prop where
  lowBits : Base64.lowBits u = u
  ne_padding : u ≠ padding
  digitValue? : Base64.digitValue? u = some value

instance (value : Nat) (u : CodeUnit) : Decidable (IsDigitOf value u) :=
  decidable_of_iff (Base64.lowBits u = u ∧ u ≠ padding ∧ Base64.digitValue? u = some value)
    ⟨fun h => ⟨h.1, h.2.1, h.2.2⟩, fun h => ⟨h.1, h.2, h.3⟩⟩

/-- The digits of a known style are read as what they stand for. -/
lemma isDigitOf_digit {style : Style} (known : style.IsKnown) {value : Nat} (small : value < 64) :
    IsDigitOf value (digit style value) := by
  -- All alphabets have the first 62 digits in common; the last two are looked at one by one.
  have below : ∀ value < 62, IsDigitOf value (digit standard value) := by decide
  rcases Nat.lt_or_ge value 62 with low | high
  · have same : digit style value = digit standard value := by
      unfold digit
      split_ifs <;> rfl
    rw [same]
    exact below value low
  · obtain rfl | rfl : value = 62 ∨ value = 63 := by omega
    · show IsDigitOf 62 style.digit62
      rcases known.digit62 with eq | eq <;> rw [eq] <;> decide
    · show IsDigitOf 63 style.digit63
      rcases known.digit63 with eq | eq <;> rw [eq] <;> decide

/-- A digit at the start of a text adds its value. -/
lemma values_cons {value : Nat} {u : CodeUnit} (is : IsDigitOf value u) (t : Text) :
    values (u :: t) = value :: values t := by
  simp [values, is.lowBits, is.ne_padding, is.digitValue?]

/-- Padding ends a text. -/
lemma values_paddingOf (style : Style) (count : Nat) : values (paddingOf style count) = [] := by
  have ends : lowBits padding = padding := by decide
  cases padded : style.padded with
  | false => simp [values, paddingOf, padded]
  | true => cases count <;> simp [values, paddingOf, padded, List.replicate_succ, ends]

/-- A text in a known style shows the digit values of its bytes. -/
lemma values_encodeIn {style : Style} (known : style.IsKnown) (bytes : Bytes) :
    values (encodeIn style bytes) = sextets bytes := by
  have shows (digits : List Nat) (small : ∀ value ∈ digits, value < 64) :
      values (digits.map (digit style) ++ paddingAfter style bytes) = digits := by
    induction digits with
    | nil => exact values_paddingOf style _
    | cons value digits ih =>
      obtain ⟨first, others⟩ := List.forall_mem_cons.mp small
      rw [List.map_cons, List.cons_append, values_cons (isDigitOf_digit known first), ih others]
  rw [encodeIn_eq, shows _ fun value => lt_of_mem_sextets]

/-- **Writing undone.**  What was written in a known style is read back, whatever its length. -/
theorem decode_encodeIn {style : Style} (known : style.IsKnown) (bytes : Bytes) :
    decode (encodeIn style bytes) = bytes := by
  rw [decode, values_encodeIn known, bytesOfValues_sextets]

/-- The standard text of a byte string is read back. -/
@[simp]
theorem decode_encode (bytes : Bytes) : decode (encode bytes) = bytes :=
  decode_encodeIn isKnown_standard bytes

/-- Only the empty byte string has an empty text in a known style. -/
lemma encodeIn_eq_nil_iff {style : Style} (known : style.IsKnown) {bytes : Bytes} :
    encodeIn style bytes = [] ↔ bytes = [] := by
  refine ⟨fun empty => ?_, fun empty => by rw [empty]; rfl⟩
  rw [← decode_encodeIn known bytes, empty]
  rfl

/-- Only the empty byte string has the empty text. -/
lemma encode_eq_nil_iff {bytes : Bytes} : encode bytes = [] ↔ bytes = [] :=
  encodeIn_eq_nil_iff isKnown_standard

/-! ### Reading any text -/

/-- Four digits hold three bytes, and a rest of them holds as many as it has full eight bits. -/
lemma length_bytesOfValues (digits : List Nat) :
    (bytesOfValues digits).length = digits.length * 3 / 4 := by
  fun_induction bytesOfValues digits with
  | case1 | case2 | case3 | case4 => simp
  | case5 p q r s rest ih =>
    simp only [List.length_cons, ih]
    omega

/-- A text holds as many bytes as its digits before the first padding sign have full eight bits. -/
lemma length_decode (t : Text) : (decode t).length = (values t).length * 3 / 4 :=
  length_bytesOfValues (values t)

/-- A text holds a byte exactly if it shows two digits or more. -/
lemma decode_ne_nil_iff {t : Text} : decode t ≠ [] ↔ 2 ≤ (values t).length := by
  rw [Ne, ← List.length_eq_zero_iff, length_decode]
  omega

end Base64

end PolicyWarden
