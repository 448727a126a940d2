import Mathlib.Tactic.Common
import PolicyWarden.Json.Reader
import PolicyWarden.Proofs.Json.Numeral

/-!
# The grammar of JSON

Which texts spell out a value is said here without a reader (`Json.IsSpelledBy`): the value stands
between blanks, its parts between the marks of arrays and objects, blanks may stand around every
mark, and a unit of a string stands for itself or behind a backslash.  A number is spelled out by
any numeral that denotes it (`Json.Numeral.ofText?`).  An object is spelled out member by member, so
a repeated key is spelled out as often as it is repeated.

Each relation takes the text before and the text behind what is spelled out.  So no text has to be
put together, and a value of several parts passes the text on from one part to the next.
-/

namespace PolicyWarden

namespace Json

variable {t s rest : Text} {u c : CodeUnit}

/-! ### Blanks -/

/-- The text is another one behind blanks. -/
def Skips (t rest : Text) : Prop :=
  ∃ blanks : Text, (∀ u ∈ blanks, isSpace u = true) ∧ t = blanks ++ rest

/-- There need not be any blanks. -/
lemma skips_refl (t : Text) : Skips t t :=
  ⟨[], by simp, rfl⟩

/-- Blanks alone stand before the empty text. -/
lemma skips_nil_left_iff : Skips [] rest ↔ rest = [] := by
  constructor
  · rintro ⟨blanks, -, eq⟩
    exact (List.append_eq_nil_iff.mp eq.symm).2
  · rintro rfl
    exact skips_refl []

/-- The first unit is a blank, or there are no blanks. -/
lemma skips_cons_iff : Skips (u :: t) rest ↔ rest = u :: t ∨ isSpace u = true ∧ Skips t rest := by
  constructor
  · rintro ⟨_ | ⟨v, blanks⟩, all, eq⟩
    · exact .inl eq.symm
    · obtain ⟨rfl, rfl⟩ := List.cons.inj eq
      obtain ⟨first, others⟩ := List.forall_mem_cons.mp all
      exact .inr ⟨first, blanks, others, rfl⟩
  · rintro (rfl | ⟨first, blanks, others, rfl⟩)
    · exact skips_refl _
    · exact ⟨u :: blanks, List.forall_mem_cons.mpr ⟨first, others⟩, rfl⟩

/-- No mark is reached in an empty text. -/
lemma not_skips_nil_cons : ¬ Skips [] (c :: rest) := by
  rw [skips_nil_left_iff]
  exact List.cons_ne_nil _ _

/-- A blank before a mark makes no difference. -/
lemma skips_mark_of_isSpace (mark : isSpace c = false) (space : isSpace u = true) :
    Skips (u :: t) (c :: rest) ↔ Skips t (c :: rest) := by
  rw [skips_cons_iff]
  constructor
  · rintro (eq | ⟨-, behind⟩)
    · obtain ⟨rfl, -⟩ := List.cons.inj eq
      rw [mark] at space
      cases space
    · exact behind
  · exact fun behind => .inr ⟨space, behind⟩

/-- A unit that is no blank is the mark. -/
lemma skips_of_not_isSpace (visible : isSpace u = false) :
    Skips (u :: t) rest ↔ u :: t = rest := by
  simp [skips_cons_iff, visible, eq_comm]

/-! ### Strings -/

/-- The text begins with so many hexadecimal digits, and behind the digits so far they are the code
of the unit. -/
def SpellsCode : (awaited code : Nat) → CodeUnit → Text → Text → Prop
  | 0, code, u, t, rest => u = code.toUInt16 ∧ t = rest
  | awaited + 1, code, u, t, rest =>
      ∃ letter digit s, t = letter :: s ∧ CodeUnit.hexValue? letter = some digit ∧
        SpellsCode awaited (code * 16 + digit) u s rest

/-- What may stand behind a backslash for a unit: a letter, or its code in four digits. -/
inductive SpellsEscape (u : CodeUnit) : Text → Text → Prop where
  | letter {letter : CodeUnit} {rest : Text} (escaped : escaped? letter = some u) :
      SpellsEscape u (letter :: rest) rest
  | code {t rest : Text} (digits : SpellsCode 4 0 u t rest) :
      SpellsEscape u (CodeUnit.ofChar 'u' :: t) rest

/-- A unit of a string stands for itself, unless it is a quote, a backslash or a control character,
or behind a backslash. -/
inductive SpellsUnit (u : CodeUnit) : Text → Text → Prop where
  | plain {rest : Text} (quote : u ≠ CodeUnit.ofChar '"') (backslash : u ≠ CodeUnit.ofChar '\\')
      (visible : ¬ u < 0x20) : SpellsUnit u (u :: rest) rest
  | escaped {t rest : Text} (escape : SpellsEscape u t rest) :
      SpellsUnit u (CodeUnit.ofChar '\\' :: t) rest

/-- The units of a string and its closing quote. -/
def SpellsUnits : (units t rest : Text) → Prop
  | [], t, rest => t = CodeUnit.ofChar '"' :: rest
  | u :: units, t, rest => ∃ s, SpellsUnit u t s ∧ SpellsUnits units s rest

/-- A key in quotes and a colon, with blanks around both. -/
def SpellsKey (key t rest : Text) : Prop :=
  ∃ units colon value, Skips t (CodeUnit.ofChar '"' :: units) ∧ SpellsUnits key units colon ∧
    Skips colon (CodeUnit.ofChar ':' :: value) ∧ Skips value rest

/-! ### Values -/

mutual

/-- The text begins with the value, and `rest` stands behind it. -/
def Spells : Json → (t rest : Text) → Prop
  | null, t, rest => t = Text.ofString "null" ++ rest
  | bool true, t, rest => t = Text.ofString "true" ++ rest
  | bool false, t, rest => t = Text.ofString "false" ++ rest
  | number x, t, rest =>
      ∃ numeral n, Numeral.ofText? numeral = some n ∧ n.number? = some x ∧ t = numeral ++ rest
  | text units, t, rest => ∃ s, t = CodeUnit.ofChar '"' :: s ∧ SpellsUnits units s rest
  | array items, t, rest => ∃ s, t = CodeUnit.ofChar '[' :: s ∧ SpellsItems items s rest
  | object members, t, rest => ∃ s, t = CodeUnit.ofChar '{' :: s ∧ SpellsMembers members s rest

/-- The items of an array and its closing bracket. -/
def SpellsItems : List Json → (t rest : Text) → Prop
  | [], t, rest => Skips t (CodeUnit.ofChar ']' :: rest)
  | v :: items, t, rest => ∃ s r, Skips t s ∧ Spells v s r ∧ SpellsNextItems items r rest

/-- The items of an array behind another one, each behind a comma, and its closing bracket. -/
def SpellsNextItems : List Json → (t rest : Text) → Prop
  | [], t, rest => Skips t (CodeUnit.ofChar ']' :: rest)
  | v :: items, t, rest =>
      ∃ c s r, Skips t (CodeUnit.ofChar ',' :: c) ∧ Skips c s ∧ Spells v s r ∧
        SpellsNextItems items r rest

/-- The members of an object and its closing brace. -/
def SpellsMembers : List (Text × Json) → (t rest : Text) → Prop
  | [], t, rest => Skips t (CodeUnit.ofChar '}' :: rest)
  | (k, v) :: members, t, rest =>
      ∃ s r, SpellsKey k t s ∧ Spells v s r ∧ SpellsNextMembers members r rest

/-- The members of an object behind another one, each behind a comma, and its closing brace. -/
def SpellsNextMembers : List (Text × Json) → (t rest : Text) → Prop
  | [], t, rest => Skips t (CodeUnit.ofChar '}' :: rest)
  | (k, v) :: members, t, rest =>
      ∃ c s r, Skips t (CodeUnit.ofChar ',' :: c) ∧ SpellsKey k c s ∧ Spells v s r ∧
        SpellsNextMembers members r rest
end

/-- The text spells out the value, between blanks. -/
def IsSpelledBy (v : Json) (t : Text) : Prop :=
  ∃ s rest, Skips t s ∧ Spells v s rest ∧ Skips rest []

end Json

end PolicyWarden
