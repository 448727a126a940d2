import Mathlib.Data.List.Basic
import Mathlib.Tactic.Common
import Mathlib.Tactic.IntervalCases
import PolicyWarden.Text.Utf8

/-!
# UTF-8 read back

A text is whole if it is a row of characters (`Text.IsWhole`), which is so exactly if its surrogates
stand in pairs (`Text.isWhole_iff_isPaired`).  `Text.toChars_flatMap` gives the characters of such a
text back from its units, and `Utf8.decodeFrom_encodeChar` gives the units of a character back from
its bytes, whatever follows them.  Together they say that `Utf8.decode` undoes `Utf8.encode` on whole
texts (`Utf8.decode_encode`).  The bytes are those that strings have in the standard library
(`Utf8.encode_eq_toUTF8`).
-/

namespace PolicyWarden

/-! ### Characters and units -/

/-- A character of the first plane is no surrogate, and no character lies beyond the last plane. -/
lemma Char.toNat_ranges (c : Char) :
    c.toNat < 0xD800 ∨ 0xDFFF < c.toNat ∧ c.toNat < 0x110000 := by
  simpa [UInt32.isValidChar, Nat.isValidChar] using c.valid

/-- The character of a valid number has this number. -/
lemma Char.toNat_ofNat_of_isValidChar {n : Nat} (valid : n.isValidChar) :
    (Char.ofNat n).toNat = n := by
  rw [Char.ofNat, dif_pos valid]
  rfl

namespace CodeUnit

variable {u : CodeUnit}

/-- The units that open a pair are a range. -/
lemma isHigh_iff : isHigh u = true ↔ 0xD800 ≤ u.toNat ∧ u.toNat < 0xDC00 := by
  simp [isHigh, UInt16.le_iff_toNat_le, UInt16.lt_iff_toNat_lt]

/-- The units that close a pair are the next range. -/
lemma isLow_iff : isLow u = true ↔ 0xDC00 ≤ u.toNat ∧ u.toNat < 0xE000 := by
  simp [isLow, UInt16.le_iff_toNat_le, UInt16.lt_iff_toNat_lt]

/-- The unit belongs to no pair. -/
def IsPlain (u : CodeUnit) : Prop :=
  u.toNat < 0xD800 ∨ 0xDFFF < u.toNat

/-- A plain unit neither opens nor closes a pair. -/
lemma isPlain_iff : u.IsPlain ↔ isHigh u = false ∧ isLow u = false := by
  rw [← Bool.not_eq_true, ← Bool.not_eq_true, isHigh_iff, isLow_iff, IsPlain]
  omega

/-- The units of ASCII are plain. -/
lemma isPlain_of_lt (small : u < 0x80) : u.IsPlain := by
  have : u.toNat < 0x80 := UInt16.lt_iff_toNat_lt.mp small
  exact .inl (by omega)

end CodeUnit

namespace Text

variable {c : Char} {t s : Text}

/-- A character of the first plane is one unit. -/
lemma ofChar_of_lt (small : c.toNat < 0x10000) : ofChar c = [c.toNat.toUInt16] := by
  have first : c.val < 0x10000 := by
    rw [UInt32.lt_iff_toNat_lt]
    exact small
  rw [ofChar, if_pos first]
  rfl

/-- A character of another plane is two units with ten bits each. -/
lemma ofChar_of_le (large : 0x10000 ≤ c.toNat) :
    ofChar c = [(0xD800 + (c.toNat - 0x10000) / 0x400).toUInt16,
      (0xDC00 + (c.toNat - 0x10000) % 0x400).toUInt16] := by
  have bound := Char.toNat_ranges c
  have notSmall : ¬ c.val < 0x10000 := by
    rw [UInt32.lt_iff_toNat_lt]
    exact Nat.not_lt.mpr large
  have above : (c.val - 0x10000).toNat = c.toNat - 0x10000 := by
    have least : (0x10000 : UInt32) ≤ c.val := by
      rw [UInt32.le_iff_toNat_le]
      exact large
    rw [UInt32.toNat_sub_of_le _ _ least]
    rfl
  have opening : (0xD800 + (c.val - 0x10000) / 0x400).toUInt16
      = (0xD800 + (c.toNat - 0x10000) / 0x400).toUInt16 := by
    rw [← UInt16.toNat_inj, UInt32.toNat_toUInt16, UInt32.toNat_add, UInt32.toNat_div, above,
      Nat.toUInt16_eq, UInt16.toNat_ofNat']
    simp only [UInt32.reduceToNat]
    omega
  have closing : (0xDC00 + (c.val - 0x10000) % 0x400).toUInt16
      = (0xDC00 + (c.toNat - 0x10000) % 0x400).toUInt16 := by
    rw [← UInt16.toNat_inj, UInt32.toNat_toUInt16, UInt32.toNat_add, UInt32.toNat_mod, above,
      Nat.toUInt16_eq, UInt16.toNat_ofNat']
    simp only [UInt32.reduceToNat]
    omega
  rw [ofChar, if_neg notSmall, opening, closing]

/-! ### Whole texts -/

/-- No surrogate of the text stands alone: it is a row of characters. -/
def IsWhole (t : Text) : Prop :=
  ∃ chars : List Char, chars.flatMap ofChar = t

/-- The empty text is whole. -/
@[simp]
lemma isWhole_nil : IsWhole [] :=
  ⟨[], rfl⟩

/-- The units of an ordinary string make a whole text. -/
lemma isWhole_ofString (s : String) : IsWhole (ofString s) :=
  ⟨s.toList, rfl⟩

/-- The units of a character make a whole text. -/
lemma isWhole_ofChar (c : Char) : IsWhole (ofChar c) :=
  ⟨[c], by simp⟩

/-- A whole text behind another one is a whole text. -/
lemma IsWhole.append (first : IsWhole s) (second : IsWhole t) : IsWhole (s ++ t) := by
  obtain ⟨chars, rfl⟩ := first
  obtain ⟨others, rfl⟩ := second
  exact ⟨chars ++ others, List.flatMap_append⟩

/-- A plain unit before a whole text makes a whole text. -/
lemma IsWhole.cons (whole : IsWhole t) {u : CodeUnit} (plain : u.IsPlain) :
    IsWhole (u :: t) := by
  have bound : u.toNat < 65536 := u.toNat_lt
  have valid : u.toNat.isValidChar := by
    unfold CodeUnit.IsPlain at plain
    unfold Nat.isValidChar
    omega
  have number := Char.toNat_ofNat_of_isValidChar valid
  have units : ofChar (Char.ofNat u.toNat) = [u] := by
    rw [ofChar_of_lt (by rw [number]; exact bound), number]
    simp
  have joined := (isWhole_ofChar (Char.ofNat u.toNat)).append whole
  rwa [units] at joined

/-- A pair before a whole text makes a whole text. -/
lemma IsWhole.pair (whole : IsWhole t) {u v : CodeUnit} (opens : CodeUnit.isHigh u = true)
    (closes : CodeUnit.isLow v = true) : IsWhole (u :: v :: t) := by
  rw [CodeUnit.isHigh_iff] at opens
  rw [CodeUnit.isLow_iff] at closes
  have valid : (0x10000 + (u.toNat - 0xD800) * 0x400 + (v.toNat - 0xDC00)).isValidChar := by
    unfold Nat.isValidChar
    omega
  have number : (charOfPair u v).toNat
      = 0x10000 + (u.toNat - 0xD800) * 0x400 + (v.toNat - 0xDC00) :=
    Char.toNat_ofNat_of_isValidChar valid
  have first : (0xD800 + ((charOfPair u v).toNat - 0x10000) / 0x400).toUInt16 = u := by
    rw [← UInt16.toNat_inj, Nat.toUInt16_eq, UInt16.toNat_ofNat', number]
    omega
  have second : (0xDC00 + ((charOfPair u v).toNat - 0x10000) % 0x400).toUInt16 = v := by
    rw [← UInt16.toNat_inj, Nat.toUInt16_eq, UInt16.toNat_ofNat', number]
    omega
  have joined := (isWhole_ofChar (charOfPair u v)).append whole
  rwa [ofChar_of_le (by omega), first, second] at joined

/-- A text of plain units is whole. -/
lemma isWhole_of_forall (plain : ∀ u ∈ t, u.IsPlain) : IsWhole t := by
  induction t with
  | nil => exact isWhole_nil
  | cons u t ih =>
    obtain ⟨first, others⟩ := List.forall_mem_cons.mp plain
    exact (ih others).cons first

/-- A plain unit is read as its character. -/
lemma toChars_cons {u : CodeUnit} (plain : u.IsPlain) (t : Text) :
    toChars (u :: t) = charOfUnit u :: toChars t := by
  obtain ⟨high, low⟩ := CodeUnit.isPlain_iff.mp plain
  cases t <;> simp [toChars, high]

/-- The units of a character are one plain unit or a pair, and they are read as that character. -/
lemma ofChar_cases (c : Char) :
    (∃ u, ofChar c = [u] ∧ u.IsPlain ∧ charOfUnit u = c) ∨
      ∃ u v, ofChar c = [u, v] ∧ CodeUnit.isHigh u = true ∧ CodeUnit.isLow v = true ∧
        charOfPair u v = c := by
  have ranges := Char.toNat_ranges c
  rcases Nat.lt_or_ge c.toNat 0x10000 with small | large
  · left
    have number : c.toNat.toUInt16.toNat = c.toNat := by
      rw [Nat.toUInt16_eq, UInt16.toNat_ofNat']
      omega
    have plain : CodeUnit.IsPlain c.toNat.toUInt16 := by
      unfold CodeUnit.IsPlain
      omega
    obtain ⟨high, low⟩ := CodeUnit.isPlain_iff.mp plain
    refine ⟨_, ofChar_of_lt small, plain, ?_⟩
    rw [charOfUnit, high, low, number]
    simp
  · right
    have opening : ((0xD800 + (c.toNat - 0x10000) / 0x400).toUInt16).toNat
        = 0xD800 + (c.toNat - 0x10000) / 0x400 := by
      rw [Nat.toUInt16_eq, UInt16.toNat_ofNat']
      omega
    have closing : ((0xDC00 + (c.toNat - 0x10000) % 0x400).toUInt16).toNat
        = 0xDC00 + (c.toNat - 0x10000) % 0x400 := by
      rw [Nat.toUInt16_eq, UInt16.toNat_ofNat']
      omega
    have opens : CodeUnit.isHigh (0xD800 + (c.toNat - 0x10000) / 0x400).toUInt16 = true := by
      rw [CodeUnit.isHigh_iff]
      omega
    have closes : CodeUnit.isLow (0xDC00 + (c.toNat - 0x10000) % 0x400).toUInt16 = true := by
      rw [CodeUnit.isLow_iff]
      omega
    have together : 0x10000 + (c.toNat - 0x10000) / 0x400 * 0x400 + (c.toNat - 0x10000) % 0x400
        = c.toNat := by
      omega
    refine ⟨_, _, ofChar_of_le large, opens, closes, ?_⟩
    rw [charOfPair, opening, closing, Nat.add_sub_cancel_left, Nat.add_sub_cancel_left, together,
      Char.ofNat_toNat]

/-- The units of a character are read as that character, whatever follows them. -/
lemma toChars_ofChar_append (c : Char) (t : Text) : toChars (ofChar c ++ t) = c :: toChars t := by
  obtain ⟨u, units, plain, reads⟩ | ⟨u, v, units, opens, closes, reads⟩ := ofChar_cases c
  · rw [units, List.singleton_append, toChars_cons plain, reads]
  · rw [units, List.cons_append, List.singleton_append, toChars, opens, closes, Bool.and_self,
      if_pos rfl, reads]

/-- **Characters read back.**  A row of characters is read from its units. -/
lemma toChars_flatMap (chars : List Char) : toChars (chars.flatMap ofChar) = chars := by
  induction chars with
  | nil => rfl
  | cons c chars ih => rw [List.flatMap_cons, toChars_ofChar_append, ih]

/-- The string of a whole text has the units of the text. -/
lemma IsWhole.ofString_toString (whole : IsWhole t) : ofString t.toString = t := by
  obtain ⟨chars, rfl⟩ := whole
  rw [ofString, toString, String.toList_ofList, toChars_flatMap]

/-! ### Surrogates in pairs -/

/-- No surrogate stands alone: a unit that opens a pair stands right before one that closes it, and a
unit that closes a pair right behind one that opens it. -/
def IsPaired (t : Text) : Prop :=
  ∀ before u after, t = before ++ u :: after →
    (CodeUnit.isHigh u = true → ∃ v, after.head? = some v ∧ CodeUnit.isLow v = true) ∧
      (CodeUnit.isLow u = true → ∃ w, before.getLast? = some w ∧ CodeUnit.isHigh w = true)

/-- What stands behind a unit that opens no pair is paired if the whole is. -/
lemma IsPaired.of_append {u : CodeUnit} (paired : IsPaired (s ++ u :: t))
    (closed : CodeUnit.isHigh u = false) : IsPaired t := by
  intro before v after eq
  have place : s ++ u :: t = (s ++ u :: before) ++ v :: after := by simp [eq]
  obtain ⟨opens, closes⟩ := paired _ v after place
  refine ⟨opens, fun low => ?_⟩
  obtain ⟨w, last, high⟩ := closes low
  rw [List.getLast?_append_cons] at last
  cases before with
  | nil =>
    obtain rfl : u = w := by simpa using last
    rw [closed] at high
    cases high
  | cons first others =>
    rw [List.getLast?_cons_cons] at last
    exact ⟨w, last, high⟩

/-- The first unit of a paired text closes no pair. -/
lemma IsPaired.isLow_head {u : CodeUnit} (paired : IsPaired (u :: t)) :
    CodeUnit.isLow u = false := by
  rw [← Bool.not_eq_true]
  intro low
  obtain ⟨w, last, -⟩ := (paired [] u t rfl).2 low
  cases last

/-- The first unit of a paired text opens no pair if none is closed behind it. -/
lemma IsPaired.isHigh_head {u : CodeUnit} (paired : IsPaired (u :: t))
    (none : ∀ v, t.head? = some v → CodeUnit.isLow v = false) : CodeUnit.isHigh u = false := by
  rw [← Bool.not_eq_true]
  intro high
  obtain ⟨v, next, low⟩ := (paired [] u t rfl).1 high
  rw [none v next] at low
  cases low

/-- A text whose surrogates stand in pairs is a row of characters. -/
lemma IsPaired.isWhole (paired : IsPaired t) : IsWhole t := by
  -- The cases are those in which a text is read as characters.
  fun_induction toChars t with
  | case1 => exact isWhole_nil
  | case2 u =>
    have high : CodeUnit.isHigh u = false := paired.isHigh_head fun v next => by cases next
    exact isWhole_nil.cons (CodeUnit.isPlain_iff.mpr ⟨high, paired.isLow_head⟩)
  | case3 u v rest pair ih =>
    obtain ⟨opens, closes⟩ := Bool.and_eq_true_iff.mp pair
    have closed : CodeUnit.isHigh v = false := by
      rw [← Bool.not_eq_true, CodeUnit.isHigh_iff]
      have range := CodeUnit.isLow_iff.mp closes
      omega
    have others : IsPaired rest := IsPaired.of_append (s := [u]) paired closed
    exact (ih others).pair opens closes
  | case4 u v rest alone ih =>
    have high : CodeUnit.isHigh u = false := by
      by_cases low : CodeUnit.isLow v = true
      · simpa [low] using alone
      · exact paired.isHigh_head fun w next => by simpa [← Option.some.inj next] using low
    have others : IsPaired (v :: rest) := IsPaired.of_append (s := []) paired high
    exact (ih others).cons (CodeUnit.isPlain_iff.mpr ⟨high, paired.isLow_head⟩)

/-- A paired text behind another one is a paired text. -/
lemma IsPaired.append (first : IsPaired s) (second : IsPaired t) : IsPaired (s ++ t) := by
  intro before u after eq
  obtain ⟨middle, rfl, within⟩ | ⟨middle, rfl, within⟩ := List.append_eq_append_iff.mp eq
  · obtain ⟨opens, closes⟩ := second middle u after within
    refine ⟨opens, fun low => ?_⟩
    obtain ⟨w, last, high⟩ := closes low
    exact ⟨w, by simp [List.getLast?_append, last], high⟩
  · cases middle with
    | nil =>
      obtain ⟨opens, closes⟩ := second [] u after within.symm
      refine ⟨opens, fun low => ?_⟩
      obtain ⟨w, last, -⟩ := closes low
      cases last
    | cons v middle =>
      obtain ⟨rfl, rfl⟩ := List.cons.inj within
      obtain ⟨opens, closes⟩ := first before u middle rfl
      refine ⟨fun high => ?_, closes⟩
      obtain ⟨v, next, low⟩ := opens high
      exact ⟨v, by simp [List.head?_append, next], low⟩

/-- The units of a character are paired. -/
lemma isPaired_ofChar (c : Char) : IsPaired (ofChar c) := by
  intro before u after eq
  obtain ⟨v, units, plain, -⟩ | ⟨v, w, units, opens, closes, -⟩ := ofChar_cases c
  · obtain ⟨high, low⟩ := CodeUnit.isPlain_iff.mp plain
    obtain ⟨rfl, rfl, rfl⟩ : before = [] ∧ u = v ∧ after = [] := by
      simpa [units, List.singleton_eq_append_iff] using eq
    simp [high, low]
  · rw [units] at eq
    have first := CodeUnit.isHigh_iff.mp opens
    have second := CodeUnit.isLow_iff.mp closes
    rcases before with _ | ⟨x, _ | ⟨y, before⟩⟩
    · obtain ⟨rfl, rfl⟩ := List.cons.inj eq
      refine ⟨fun _ => ⟨w, rfl, closes⟩, fun low => ?_⟩
      have := CodeUnit.isLow_iff.mp low
      omega
    · obtain ⟨rfl, rfl, rfl⟩ : v = x ∧ w = u ∧ after = [] := by simpa [eq_comm] using eq
      refine ⟨fun high => ?_, fun _ => ⟨v, rfl, opens⟩⟩
      have := CodeUnit.isHigh_iff.mp high
      omega
    · simp at eq

/-- **Rows of characters.**  A text is a row of characters exactly if none of its surrogates stands
alone. -/
theorem isWhole_iff_isPaired : IsWhole t ↔ IsPaired t := by
  refine ⟨?_, IsPaired.isWhole⟩
  rintro ⟨chars, rfl⟩
  induction chars with
  | nil =>
    intro before u after eq
    simp at eq
  | cons c chars ih => exact (isPaired_ofChar c).append ih

end Text

namespace Utf8

/-! ### The bytes of a string -/

/-- The bytes of a character are those that it has in a string. -/
lemma encodeChar_eq (c : Char) : encodeChar c = String.utf8EncodeChar c := by
  have ranges := Char.toNat_ranges c
  -- Both write the same groups of six bits; the leading bits lie in the range of the first byte.
  have leading (mark n bits : Nat) (small : n < bits) :
      (mark + n).toUInt8 = UInt8.ofNat (n % bits + mark) := by
    rw [Nat.mod_eq_of_lt small, Nat.add_comm, Nat.toUInt8_eq]
  have further (mark n : Nat) : (mark + n).toUInt8 = UInt8.ofNat (n + mark) := by
    rw [Nat.add_comm, Nat.toUInt8_eq]
  have number : c.val.toNat = c.toNat := rfl
  have single : c.toNat < 0x80 ↔ c.toNat ≤ 127 := by omega
  have double : c.toNat < 0x800 ↔ c.toNat ≤ 2047 := by omega
  have triple : c.toNat < 0x10000 ↔ c.toNat ≤ 65535 := by omega
  simp only [encodeChar, String.utf8EncodeChar, number, single, double, triple]
  split_ifs
  · rw [Nat.toUInt8_eq]
  · rw [leading 0xC0 (c.toNat / 0x40) 32 (by omega), further]
  · rw [leading 0xE0 (c.toNat / 0x1000) 16 (by omega), further, further]
  · rw [leading 0xF0 (c.toNat / 0x40000) 8 (by omega), further, further, further]

/-- The bytes of a text are those of its string. -/
lemma encode_eq_toUTF8 (t : Text) : encode t = t.toString.toUTF8.data.toList := by
  have same : encodeChar = String.utf8EncodeChar := funext encodeChar_eq
  rw [encode, same, Text.toString, String.toUTF8_eq_toByteArray, String.toByteArray_ofList,
    List.utf8Encode, List.data_toByteArray, List.toList_toArray]

/-! ### Bytes read back -/

/-- Bytes are read one after another. -/
lemma decodeFrom_cons (state : Option Unfinished) (b : UInt8) (rest : Bytes) :
    decodeFrom state (b :: rest) = (step state b).1 ++ decodeFrom (step state b).2 rest := by
  cases state <;> rfl

/-- A byte below 128 is a character of its own. -/
lemma first_single {n : Nat} (small : n < 0x80) : first n.toUInt8 = ([n.toUInt16], none) := by
  interval_cases n <;> rfl

/-- A first byte of two gives five bits. -/
lemma first_double {q : Nat} (least : 2 ≤ q) (small : q < 0x20) :
    first (0xC0 + q).toUInt8 = ([], some ⟨1, q, 0x80, 0xBF⟩) := by
  interval_cases q <;> rfl

/-- A first byte of three gives four bits; two of them narrow the range of the next byte. -/
lemma first_triple {q : Nat} (small : q < 0x10) :
    first (0xE0 + q).toUInt8 =
      ([], some ⟨2, q, if q = 0 then 0xA0 else 0x80, if q = 13 then 0x9F else 0xBF⟩) := by
  interval_cases q <;> rfl

/-- A first byte of four gives three bits; two of them narrow the range of the next byte. -/
lemma first_quadruple {q : Nat} (small : q < 5) :
    first (0xF0 + q).toUInt8 =
      ([], some ⟨3, q, if q = 0 then 0x90 else 0x80, if q = 4 then 0x8F else 0xBF⟩) := by
  interval_cases q <;> rfl

/-- The number of a further byte is the mark of such bytes and six bits. -/
lemma toNat_further {r : Nat} (small : r < 0x40) : (0x80 + r).toUInt8.toNat = 0x80 + r := by
  rw [Nat.toUInt8_eq, UInt8.toNat_ofNat']
  omega

section Further

variable {bits r : Nat} {least greatest : UInt8} (small : r < 0x40)
  (lower : least.toNat ≤ 0x80 + r) (upper : 0x80 + r ≤ greatest.toNat)

include small lower upper

/-- The number of a further byte lies in the range that was asked for. -/
lemma further_in_range :
    (least ≤ (0x80 + r).toUInt8 && (0x80 + r).toUInt8 ≤ greatest) = true := by
  simp only [Bool.and_eq_true, decide_eq_true_eq, UInt8.le_iff_toNat_le, toNat_further small]
  exact ⟨lower, upper⟩

/-- The last further byte adds its six bits and completes the character. -/
lemma decodeFrom_last (rest : Bytes) :
    decodeFrom (some ⟨1, bits, least, greatest⟩) ((0x80 + r).toUInt8 :: rest)
      = Text.ofChar (Char.ofNat (bits * 0x40 + r)) ++ decodeFrom none rest := by
  rw [decodeFrom_cons, step, continued, if_pos (further_in_range small lower upper),
    toNat_further small, Nat.add_sub_cancel_left]
  rfl

/-- Another further byte adds its six bits; any byte of this kind may follow it. -/
lemma decodeFrom_more (needed : Nat) (rest : Bytes) :
    decodeFrom (some ⟨needed + 2, bits, least, greatest⟩) ((0x80 + r).toUInt8 :: rest)
      = decodeFrom (some ⟨needed + 1, bits * 0x40 + r, 0x80, 0xBF⟩) rest := by
  rw [decodeFrom_cons, step, continued, if_pos (further_in_range small lower upper),
    toNat_further small, Nat.add_sub_cancel_left]
  rfl

end Further

/-- The bytes of a character are read as its units, whatever follows them. -/
lemma decodeFrom_encodeChar (c : Char) (rest : Bytes) :
    decodeFrom none (encodeChar c ++ rest) = Text.ofChar c ++ decodeFrom none rest := by
  have ranges := Char.toNat_ranges c
  -- Whatever the length, the bits of all bytes together are the number of the character.
  have complete {n : Nat} (same : n = c.toNat) :
      Text.ofChar (Char.ofNat n) ++ decodeFrom none rest
        = Text.ofChar c ++ decodeFrom none rest := by
    rw [same, Char.ofNat_toNat]
  simp only [encodeChar]
  split_ifs with one two three
  · rw [List.singleton_append, decodeFrom_cons, step, first_single one,
      Text.ofChar_of_lt (by omega)]
  · rw [List.cons_append, List.singleton_append, decodeFrom_cons, step,
      first_double (by omega) (by omega), List.nil_append,
      decodeFrom_last (by omega) (by simp) (by simp; omega)]
    exact complete (by omega)
  · have lower : (if c.toNat / 0x1000 = 0 then (0xA0 : UInt8) else 0x80).toNat
        ≤ 0x80 + c.toNat / 0x40 % 0x40 := by
      split_ifs
      · simp
        omega
      · simp
    have upper : 0x80 + c.toNat / 0x40 % 0x40
        ≤ (if c.toNat / 0x1000 = 13 then (0x9F : UInt8) else 0xBF).toNat := by
      split_ifs <;> (simp; omega)
    rw [List.cons_append, List.cons_append, List.singleton_append, decodeFrom_cons, step,
      first_triple (by omega), List.nil_append, decodeFrom_more (by omega) lower upper,
      decodeFrom_last (by omega) (by simp) (by simp; omega)]
    exact complete (by omega)
  · have lower : (if c.toNat / 0x40000 = 0 then (0x90 : UInt8) else 0x80).toNat
        ≤ 0x80 + c.toNat / 0x1000 % 0x40 := by
      split_ifs
      · simp
        omega
      · simp
    have upper : 0x80 + c.toNat / 0x1000 % 0x40
        ≤ (if c.toNat / 0x40000 = 4 then (0x8F : UInt8) else 0xBF).toNat := by
      split_ifs <;> (simp; omega)
    rw [List.cons_append, List.cons_append, List.cons_append, List.singleton_append,
      decodeFrom_cons, step, first_quadruple (by omega), List.nil_append,
      decodeFrom_more (by omega) lower upper,
      decodeFrom_more (by omega) (by simp) (by simp; omega),
      decodeFrom_last (by omega) (by simp) (by simp; omega)]
    exact complete (by omega)

/-- The bytes of a row of characters are read as its units. -/
lemma decode_flatMap_encodeChar (chars : List Char) :
    decode (chars.flatMap encodeChar) = chars.flatMap Text.ofChar := by
  unfold decode
  induction chars with
  | nil => rfl
  | cons c chars ih => rw [List.flatMap_cons, decodeFrom_encodeChar, ih, List.flatMap_cons]

/-- **Encoding undone.**  A text without a lone surrogate is read back from its bytes. -/
theorem decode_encode {t : Text} (whole : t.IsWhole) : decode (encode t) = t := by
  obtain ⟨chars, rfl⟩ := whole
  rw [encode, Text.toChars_flatMap, decode_flatMap_encodeChar]

end Utf8

end PolicyWarden
