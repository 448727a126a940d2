import PolicyWarden.Json.Printer
import PolicyWarden.Proofs.Json.Parts
import PolicyWarden.Proofs.Json.Reading
import PolicyWarden.Proofs.Number.Decimal

/-!
# Written values read back

What is written for a value spells out the value that has the same arrays, objects, keys, texts and
words, and in place of each number the one that its numeral denotes (`Json.spells_write`).  Each
writer takes the text behind what it writes, as the grammar does, so the two agree part by part.
The reader follows the grammar, so it reads that value from the written one (`Json.scan?_render`).

What is written has no lone surrogate, even if a text of the value has one (`Json.isWhole_render`).
-/

namespace PolicyWarden

namespace Json

variable {rest t : Text} {u : CodeUnit} {v : Json}

/-! ### Strings -/

/-- A letter behind a backslash is read as the unit that it stands for. -/
lemma escaped?_of_escapeLetter? {letter : CodeUnit} (escape : escapeLetter? u = some letter) :
    escaped? letter = some u ∧ letter < 0x80 := by
  unfold escapeLetter? at escape
  split_ifs at escape with self b f n r tab
  · obtain rfl := Option.some.inj escape
    rcases Bool.or_eq_true_iff.mp self with quote | backslash
    · rw [decide_eq_true_eq] at quote
      subst quote
      decide
    · rw [decide_eq_true_eq] at backslash
      subst backslash
      decide
  all_goals
    obtain rfl := Option.some.inj escape
    subst u
    decide

/-- A unit without a letter is neither a quote nor a backslash. -/
lemma ne_of_escapeLetter?_eq_none (noLetter : escapeLetter? u = none) :
    u ≠ CodeUnit.ofChar '"' ∧ u ≠ CodeUnit.ofChar '\\' := by
  constructor <;>
  · rintro rfl
    exact absurd noLetter (by decide)

/-- A hexadecimal digit is read as its value. -/
lemma hexValue?_hexDigit {d : Nat} (small : d < 16) :
    CodeUnit.hexValue? (hexDigit d) = some d := by
  interval_cases d <;> decide

/-- A unit escaped by its number is spelled out. -/
lemma spellsUnit_unitEscape (u : CodeUnit) : SpellsUnit u (unitEscape u ++ rest) rest := by
  have bound : u.toNat < 65536 := u.toNat_lt
  have together : (((0 * 16 + u.toNat / 0x1000) * 16 + u.toNat / 0x100 % 16) * 16
      + u.toNat / 16 % 16) * 16 + u.toNat % 16 = u.toNat := by
    omega
  have digit {d : Nat} (small : d < 16) {awaited code : Nat} {t : Text}
      (others : SpellsCode awaited (code * 16 + d) u t rest) :
      SpellsCode (awaited + 1) code u (hexDigit d :: t) rest :=
    ⟨hexDigit d, d, t, rfl, hexValue?_hexDigit small, others⟩
  refine .escaped (.code ?_)
  refine digit (by omega) (digit (by omega) (digit (by omega) (digit (by omega) ⟨?_, rfl⟩)))
  rw [together]
  simp

/-- A unit that needs no escape stands for itself. -/
lemma spellsUnit_self (noLetter : escapeLetter? u = none) (visible : ¬ u < 0x20) :
    SpellsUnit u (u :: rest) rest := by
  obtain ⟨notQuote, notBackslash⟩ := ne_of_escapeLetter?_eq_none noLetter
  exact .plain notQuote notBackslash visible

/-- A written unit is spelled out. -/
lemma spellsUnit_writeUnit (u : CodeUnit) : SpellsUnit u (writeUnit u ++ rest) rest := by
  unfold writeUnit
  split
  case h_1 letter escape =>
    obtain ⟨reads, -⟩ := escaped?_of_escapeLetter? escape
    exact .escaped (.letter reads)
  case h_2 noLetter =>
    split_ifs with hidden
    · exact spellsUnit_unitEscape u
    · exact spellsUnit_self noLetter fun control => hidden (by simp [control])

/-- A surrogate stands for itself or is escaped by its number. -/
lemma of_surrogate (surrogate : 0xD800 ≤ u.toNat) : escapeLetter? u = none ∧ ¬ u < 0x20 := by
  have ne {v : CodeUnit} (small : v.toNat < 0xD800) : u ≠ v := by
    rintro rfl
    omega
  refine ⟨?_, ?_⟩
  · simp [escapeLetter?, ne (v := CodeUnit.ofChar '"') (by decide),
      ne (v := CodeUnit.ofChar '\\') (by decide), ne (v := 0x08) (by decide),
      ne (v := 0x0C) (by decide), ne (v := 0x0A) (by decide), ne (v := 0x0D) (by decide),
      ne (v := 0x09) (by decide)]
  · rw [UInt16.lt_iff_toNat_lt]
    simp only [UInt16.reduceToNat]
    omega

/-- The units of a written string are spelled out up to its closing quote. -/
lemma spellsUnits_writeUnits (t : Text) : SpellsUnits t (writeUnits t rest) rest := by
  fun_induction writeUnits t rest with
  | case1 rest => rfl
  | case2 u rest => exact ⟨_, spellsUnit_writeUnit u, rfl⟩
  | case3 u v t rest pair ih =>
    obtain ⟨opens, closes⟩ := Bool.and_eq_true_iff.mp pair
    have high : 0xD800 ≤ u.toNat := (CodeUnit.isHigh_iff.mp opens).1
    have low : 0xD800 ≤ v.toNat := Nat.le_trans (by decide) (CodeUnit.isLow_iff.mp closes).1
    obtain ⟨first, visible⟩ := of_surrogate high
    obtain ⟨second, visible'⟩ := of_surrogate low
    exact ⟨_, spellsUnit_self first visible, _, spellsUnit_self second visible', ih⟩
  | case4 u v t rest alone ih => exact ⟨_, spellsUnit_writeUnit u, ih⟩

/-- A written key and its colon are spelled out. -/
lemma spellsKey_writeString (key : Text) :
    SpellsKey key (writeString key (CodeUnit.ofChar ':' :: rest)) rest :=
  ⟨_, _, rest, skips_refl _, spellsUnits_writeUnits key, skips_refl _, skips_refl _⟩

/-! ### Values -/

/-- A written number spells out the number that its numeral denotes. -/
lemma spells_write_number {n : Number} (regular : n.IsRegular) :
    Spells n.written (write (.number n) rest) rest := by
  rw [write, Number.written]
  cases finite : n.isFinite with
  | true =>
    obtain ⟨x, reads⟩ := Number.exists_ofNumeral?_render regular finite
    obtain ⟨m, read, value⟩ := Option.bind_eq_some_iff.mp reads
    rw [if_pos rfl, if_pos rfl, reads]
    exact ⟨n.render, m, read, value, rfl⟩
  | false =>
    rw [if_neg Bool.false_ne_true, if_neg Bool.false_ne_true]
    rfl

section Parts

variable {f : Number → Json}

/-- What is to be shown of a value: wherever it is written, the value with its numbers mapped is
spelled out. -/
def SpellsBack (f : Number → Json) (v : Json) : Prop :=
  ∀ rest, Spells (v.mapNumbers f) (write v rest) rest

/-- Items behind another one are spelled out up to the end of the array. -/
lemma spellsNextItems_write {items : List Json} (each : ∀ v ∈ items, SpellsBack f v) :
    SpellsNextItems (mapItems f items) (writeNextItems items rest) rest := by
  induction items with
  | nil => exact skips_refl _
  | cons v items ih =>
    obtain ⟨first, others⟩ := List.forall_mem_cons.mp each
    exact ⟨_, _, _, skips_refl _, skips_refl _, first _, ih others⟩

/-- Members behind another one are spelled out up to the end of the object. -/
lemma spellsNextMembers_write {members : Members}
    (each : ∀ member ∈ members, SpellsBack f member.2) :
    SpellsNextMembers (mapMembers f members) (writeNextMembers members rest) rest := by
  induction members with
  | nil => exact skips_refl _
  | cons member members ih =>
    obtain ⟨first, others⟩ := List.forall_mem_cons.mp each
    exact ⟨_, _, _, skips_refl _, spellsKey_writeString member.1, first _, ih others⟩

end Parts

/-- **Values read back.**  A written value spells out the value with each number read from its
numeral. -/
lemma spells_write (regular : ∀ n ∈ v.numbers, n.IsRegular) : SpellsBack Number.written v := by
  induction v using induct with
  | null => exact fun rest => rfl
  | bool b => cases b <;> exact fun rest => rfl
  | number n => exact fun rest => spells_write_number (regular n (by simp [numbers]))
  | text t => exact fun rest => ⟨_, rfl, spellsUnits_writeUnits t⟩
  | array items ih =>
    intro rest
    have each := fun v mem => ih v mem (forall_numbers_array regular v mem)
    refine ⟨writeItems items rest, rfl, ?_⟩
    cases items with
    | nil => exact skips_refl _
    | cons v items =>
      obtain ⟨first, others⟩ := List.forall_mem_cons.mp each
      exact ⟨_, _, skips_refl _, first _, spellsNextItems_write others⟩
  | object members ih =>
    intro rest
    have each := fun member mem => ih member mem (forall_numbers_object regular member mem)
    refine ⟨writeMembers members rest, rfl, ?_⟩
    cases members with
    | nil => exact skips_refl _
    | cons member members =>
      obtain ⟨first, others⟩ := List.forall_mem_cons.mp each
      exact ⟨_, _, spellsKey_writeString member.1, first _, spellsNextMembers_write others⟩

/-- A written value is scanned with each number read from its numeral. -/
lemma scan?_render (regular : ∀ n ∈ v.numbers, n.IsRegular) :
    scan? v.render = some (v.mapNumbers Number.written) :=
  scan?_eq_some_iff.mpr ⟨v.render, [], skips_refl _, spells_write regular [], skips_refl _⟩

/-- A number is read as a value without keys. -/
lemma keyLists_written (n : Number) : n.written.keyLists = [] := by
  unfold Number.written
  split_ifs
  · cases Number.ofNumeral? n.render <;> rfl
  · rfl

/-- **Printing undone.**  A value with distinct keys is read back from its text, each number from
its numeral. -/
theorem read?_render {v : Json} (regular : ∀ n ∈ v.numbers, n.IsRegular)
    (distinct : v.HasDistinctKeys) : read? v.render = some (v.mapNumbers Number.written) := by
  rw [read?, scan?_render regular, Option.map_some,
    (distinct.mapNumbers keyLists_written).unique_eq]

/-! ### The units of a written value -/

/-- The units of a written unit are plain. -/
lemma isPlain_of_mem_writeUnit {v : CodeUnit} (mem : v ∈ writeUnit u) : v.IsPlain := by
  have backslash : CodeUnit.IsPlain (CodeUnit.ofChar '\\') := .inl (by decide)
  have letterU : CodeUnit.IsPlain (CodeUnit.ofChar 'u') := .inl (by decide)
  have digit {d : Nat} (small : d < 16) : CodeUnit.IsPlain (hexDigit d) := by
    left
    interval_cases d <;> decide
  have bound : u.toNat < 65536 := u.toNat_lt
  unfold writeUnit at mem
  split at mem
  case h_1 letter escape =>
    obtain ⟨-, small⟩ := escaped?_of_escapeLetter? escape
    simp only [List.mem_cons, List.not_mem_nil, or_false] at mem
    obtain rfl | rfl := mem
    · exact backslash
    · exact CodeUnit.isPlain_of_lt small
  case h_2 noLetter =>
    split_ifs at mem with hidden
    · simp only [unitEscape, List.mem_cons, List.not_mem_nil, or_false] at mem
      obtain rfl | rfl | rfl | rfl | rfl | rfl := mem
      · exact backslash
      · exact letterU
      · exact digit (by omega)
      · exact digit (by omega)
      · exact digit (by omega)
      · exact digit (by omega)
    · obtain rfl := List.mem_singleton.mp mem
      simp only [Bool.or_eq_true, not_or, Bool.not_eq_true] at hidden
      exact CodeUnit.isPlain_iff.mpr ⟨hidden.1.2, hidden.2⟩

/-- An ASCII sign before a whole text makes a whole text. -/
lemma isWhole_mark (c : Char) (ascii : CodeUnit.ofChar c < 0x80) (whole : Text.IsWhole t) :
    Text.IsWhole (CodeUnit.ofChar c :: t) :=
  whole.cons (CodeUnit.isPlain_of_lt ascii)

/-- The units of a string up to its closing quote make a whole text before another one: a surrogate
without partner is escaped. -/
lemma isWhole_writeUnits (t : Text) (whole : Text.IsWhole rest) :
    Text.IsWhole (writeUnits t rest) := by
  have quoted : Text.IsWhole (CodeUnit.ofChar '"' :: rest) := isWhole_mark '"' (by decide) whole
  have unit (u : CodeUnit) : Text.IsWhole (writeUnit u) :=
    Text.isWhole_of_forall fun v => isPlain_of_mem_writeUnit
  fun_induction writeUnits t rest with
  | case1 rest => exact quoted
  | case2 u rest => exact (unit u).append quoted
  | case3 u v t rest pair ih =>
    obtain ⟨opens, closes⟩ := Bool.and_eq_true_iff.mp pair
    exact (ih whole quoted).pair opens closes
  | case4 u v t rest alone ih => exact (unit u).append (ih whole quoted)

/-- What is to be shown of a value: written before a whole text, it makes a whole text. -/
def StaysWhole (v : Json) : Prop :=
  ∀ rest : Text, rest.IsWhole → Text.IsWhole (write v rest)

/-- Items behind another one stay whole. -/
lemma isWhole_writeNextItems {items : List Json} (each : ∀ v ∈ items, StaysWhole v)
    (whole : Text.IsWhole rest) : Text.IsWhole (writeNextItems items rest) := by
  induction items with
  | nil => exact isWhole_mark ']' (by decide) whole
  | cons v items ih =>
    obtain ⟨first, others⟩ := List.forall_mem_cons.mp each
    exact isWhole_mark ',' (by decide) (first _ (ih others))

/-- Members behind another one stay whole. -/
lemma isWhole_writeNextMembers {members : Members} (each : ∀ member ∈ members, StaysWhole member.2)
    (whole : Text.IsWhole rest) : Text.IsWhole (writeNextMembers members rest) := by
  induction members with
  | nil => exact isWhole_mark '\x7d' (by decide) whole
  | cons member members ih =>
    obtain ⟨first, others⟩ := List.forall_mem_cons.mp each
    refine isWhole_mark ',' (by decide) (isWhole_mark '"' (by decide) (isWhole_writeUnits _ ?_))
    exact isWhole_mark ':' (by decide) (first _ (ih others))

/-- A written value stays whole. -/
lemma staysWhole_write {v : Json} (regular : ∀ n ∈ v.numbers, n.IsRegular) : StaysWhole v := by
  induction v using induct with
  | null => exact fun rest whole => (Text.isWhole_ofString _).append whole
  | bool b => cases b <;> exact fun rest whole => (Text.isWhole_ofString _).append whole
  | number n =>
    intro rest whole
    rw [write]
    refine Text.IsWhole.append ?_ whole
    split_ifs with finite
    · obtain ⟨x, reads⟩ := Number.exists_ofNumeral?_render (regular n (by simp [numbers])) finite
      obtain ⟨m, read, -⟩ := Option.bind_eq_some_iff.mp reads
      exact Numeral.isWhole_of_ofText? read
    · exact Text.isWhole_ofString _
  | text t => exact fun rest whole => isWhole_mark '"' (by decide) (isWhole_writeUnits t whole)
  | array items ih =>
    intro rest whole
    have each := fun v mem => ih v mem (forall_numbers_array regular v mem)
    refine isWhole_mark '[' (by decide) ?_
    cases items with
    | nil => exact isWhole_mark ']' (by decide) whole
    | cons v items =>
      obtain ⟨first, others⟩ := List.forall_mem_cons.mp each
      exact first _ (isWhole_writeNextItems others whole)
  | object members ih =>
    intro rest whole
    have each := fun member mem => ih member mem (forall_numbers_object regular member mem)
    refine isWhole_mark '\x7b' (by decide) ?_
    cases members with
    | nil => exact isWhole_mark '\x7d' (by decide) whole
    | cons member members =>
      obtain ⟨first, others⟩ := List.forall_mem_cons.mp each
      refine isWhole_mark '"' (by decide) (isWhole_writeUnits _ ?_)
      exact isWhole_mark ':' (by decide) (first _ (isWhole_writeNextMembers others whole))

/-- No surrogate stands alone in a written value. -/
lemma isWhole_render {v : Json} (regular : ∀ n ∈ v.numbers, n.IsRegular) :
    Text.IsWhole v.render :=
  staysWhole_write regular [] Text.isWhole_nil

/-- **Bytes read back.**  The text of a value is read from its bytes. -/
theorem decode_encode_render {v : Json} (regular : ∀ n ∈ v.numbers, n.IsRegular) :
    Utf8.decode (Utf8.encode v.render) = v.render :=
  Utf8.decode_encode (isWhole_render regular)

end Json

end PolicyWarden
