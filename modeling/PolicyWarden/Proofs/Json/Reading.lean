import PolicyWarden.Proofs.Json.Awaited

/-!
# The reader follows the grammar

One step of the reader takes one unit off a text that is accepted (`Json.Reading.accepts_cons_iff`),
as long as no value is awaited in place of a key, which no step changes
(`Json.Reading.IsSound.of_mem_step?`).  By induction on the text, the reader comes to a value exactly
with the texts that it accepts.  At the start nothing has been read, and a text is accepted exactly
if it spells out the value (`Json.scan?_eq_some_iff`).
-/

namespace PolicyWarden

namespace Json

variable {t rest : Text} {u : CodeUnit} {v result : Json} {stack : List Frame}

/-! ### Tokens -/

/-- A blank before a value makes no difference. -/
lemma supplies_cons_of_isSpace (space : isSpace u = true) :
    Supplies stack (u :: t) result ↔ Supplies stack t result := by
  constructor
  · rintro ⟨v, s, rest, blanks, spelled, completed⟩
    obtain rfl | ⟨-, blanks⟩ := skips_cons_iff.mp blanks
    · obtain ⟨w, others, eq, visible⟩ := spelled.exists_cons
      obtain ⟨rfl, -⟩ := List.cons.inj eq
      rw [space] at visible
      cases visible
    · exact ⟨v, s, rest, blanks, spelled, completed⟩
  · rintro ⟨v, s, rest, blanks, spelled, completed⟩
    exact ⟨v, s, rest, skips_cons_iff.mpr (.inr ⟨space, blanks⟩), spelled, completed⟩

/-- A unit that is no blank begins the value. -/
lemma supplies_cons_of_not_isSpace (visible : isSpace u = false)
    (value : ∀ members, stack.head? ≠ some (.record members)) :
    Supplies stack (u :: t) result ↔ LeadsOn (beginValue? u stack) t result := by
  constructor
  · rintro ⟨v, s, rest, blanks, spelled, completed⟩
    rw [skips_of_not_isSpace visible] at blanks
    rw [← blanks] at spelled
    exact leadsOn_beginValue? value spelled completed
  · rintro ⟨next, begins, accepted⟩
    obtain ⟨v, rest, spelled, completed⟩ := exists_spells_of_beginValue? value begins accepted
    exact ⟨v, u :: t, rest, skips_refl _, spelled, completed⟩

/-- The mode awaits a token. -/
def Mode.IsOfToken (mode : Mode) : Prop :=
  mode = .value ∨ mode = .firstItem ∨ mode = .firstKey ∨ mode = .key ∨ mode = .colon

/-- No value is awaited where an object awaits a key. -/
def Reading.IsSound (r : Reading) : Prop :=
  r.mode = .value ∨ r.mode = .colon → ∀ members, r.stack.head? ≠ some (.record members)

/-- A blank before a token makes no difference. -/
lemma accepts_token_of_isSpace {mode : Mode} (token : mode.IsOfToken) (space : isSpace u = true) :
    Reading.Accepts ⟨mode, stack⟩ (u :: t) result ↔ Reading.Accepts ⟨mode, stack⟩ t result := by
  have mark {c : CodeUnit} (visible : isSpace c = false) (rest : Text) :
      Skips (u :: t) (c :: rest) ↔ Skips t (c :: rest) :=
    skips_mark_of_isSpace visible space
  obtain rfl | rfl | rfl | rfl | rfl := token
  · exact supplies_cons_of_isSpace space
  · rcases stack with _ | ⟨_ | _ | _, stack⟩
    · rfl
    · simp only [Reading.Accepts, mark (c := CodeUnit.ofChar ']') rfl,
        supplies_cons_of_isSpace space]
    · rfl
    · rfl
  · rcases stack with _ | ⟨_ | _ | _, stack⟩
    · rfl
    · rfl
    · simp only [Reading.Accepts, mark (c := CodeUnit.ofChar '\x7d') rfl,
        mark (c := CodeUnit.ofChar '"') rfl]
    · rfl
  · simp only [Reading.Accepts, mark (c := CodeUnit.ofChar '"') rfl]
  · simp only [Reading.Accepts, mark (c := CodeUnit.ofChar ':') rfl]

/-- A unit that is no blank is the token, or it begins it. -/
lemma accepts_token_of_not_isSpace {mode : Mode} (token : mode.IsOfToken)
    (sound : Reading.IsSound ⟨mode, stack⟩) (visible : isSpace u = false) :
    Reading.Accepts ⟨mode, stack⟩ (u :: t) result ↔
      LeadsOn (tokenStep? mode u stack) t result := by
  unfold tokenStep?
  rw [if_neg (by simp [visible])]
  obtain rfl | rfl | rfl | rfl | rfl := token
  · exact supplies_cons_of_not_isSpace visible (sound (.inl rfl))
  · rcases stack with _ | ⟨items | _ | _, stack⟩
    · simp [Reading.Accepts]
    · have begins : Supplies (.list items :: stack) (u :: t) result ↔
          LeadsOn (beginValue? u (.list items :: stack)) t result :=
        supplies_cons_of_not_isSpace visible (by simp)
      simp only [Reading.Accepts, skips_of_not_isSpace visible, begins]
      rw [leadsOn_ite_iff fun bracket => by
        rw [bracket]
        exact not_leadsOn_none]
      rfl
    · simp [Reading.Accepts]
    · simp [Reading.Accepts]
  · rcases stack with _ | ⟨_ | members | _, stack⟩
    · simp [Reading.Accepts]
    · simp [Reading.Accepts]
    · have distinct : u = CodeUnit.ofChar '\x7d' → u ≠ CodeUnit.ofChar '"' := by
        rintro rfl
        decide
      simp only [Reading.Accepts, skips_of_not_isSpace visible]
      rw [leadsOn_ite_iff fun brace => by
          rw [if_neg (distinct brace)]
          exact not_leadsOn_none,
        leadsOn_mark_iff]
      rfl
    · simp [Reading.Accepts]
  · simp only [Reading.Accepts, skips_of_not_isSpace visible]
    rw [leadsOn_mark_iff]
    rfl
  · simp only [Reading.Accepts, skips_of_not_isSpace visible]
    rw [leadsOn_mark_iff]
    rfl

/-- One unit where a token is awaited. -/
lemma accepts_token_cons_iff {mode : Mode} (token : mode.IsOfToken)
    (sound : Reading.IsSound ⟨mode, stack⟩) :
    Reading.Accepts ⟨mode, stack⟩ (u :: t) result ↔
      LeadsOn (tokenStep? mode u stack) t result := by
  cases space : isSpace u with
  | true =>
    unfold tokenStep?
    rw [if_pos space, leadsOn_some_iff, accepts_token_of_isSpace token space]
  | false => exact accepts_token_of_not_isSpace token sound space

/-! ### Numerals and words -/

/-- No numeral is prolonged by a blank, a comma or a closing mark. -/
lemma extend?_eq_none (closes : isSpace u = true ∨ u = CodeUnit.ofChar ',' ∨
    u = CodeUnit.ofChar ']' ∨ u = CodeUnit.ofChar '\x7d') (n : Numeral) : n.extend? u = none := by
  have other : CodeUnit.isDigit u = false ∧ u ≠ CodeUnit.ofChar '-' ∧ u ≠ CodeUnit.ofChar '0' ∧
      u ≠ CodeUnit.ofChar '.' ∧ u ≠ CodeUnit.ofChar 'e' ∧ u ≠ CodeUnit.ofChar 'E' ∧
      u ≠ CodeUnit.ofChar '+' := by
    simp only [isSpace, Bool.or_eq_true, beq_iff_eq, or_assoc] at closes
    rcases closes with rfl | rfl | rfl | rfl | rfl | rfl | rfl <;> decide
  obtain ⟨notDigit, notMinus, notZero, notPoint, notSmall, notLarge, notPlus⟩ := other
  cases part : n.part <;>
    simp [Numeral.extend?, Numeral.afterInteger?, part, notDigit, notMinus, notZero, notPoint,
      notSmall, notLarge, notPlus]

/-- Nothing that may stand behind a complete value prolongs a numeral. -/
lemma extend?_eq_none_of_completes (completed : Completes stack v (u :: t) result) (n : Numeral) :
    n.extend? u = none := by
  refine extend?_eq_none ?_ n
  cases space : isSpace u with
  | true => exact .inl rfl
  | false =>
    right
    rcases stack with _ | ⟨items | members | ⟨members, key⟩, stack⟩
    · simp [Completes, skips_of_not_isSpace space] at completed
    · obtain ⟨s, mark, -⟩ | ⟨s, mark, -⟩ := completes_list_iff.mp completed
      · exact .inr (.inl (List.cons.inj ((skips_of_not_isSpace space).mp mark)).1)
      · exact .inl (List.cons.inj ((skips_of_not_isSpace space).mp mark)).1
    · exact completed.elim
    · obtain ⟨s, mark, -⟩ | ⟨s, mark, -⟩ := completes_member_iff.mp completed
      · exact .inr (.inr (List.cons.inj ((skips_of_not_isSpace space).mp mark)).1)
      · exact .inl (List.cons.inj ((skips_of_not_isSpace space).mp mark)).1

/-- One unit of a numeral, or the first one behind it. -/
lemma accepts_numeral_cons_iff {n : Numeral} :
    Reading.Accepts ⟨.numeral n, stack⟩ (u :: t) result ↔
      LeadsOn (numeralStep? n u stack) t result := by
  unfold numeralStep?
  constructor
  · rintro ⟨_ | ⟨w, numeral⟩, rest, m, x, eq, read, denotes, completed⟩
    · obtain rfl : u :: t = rest := eq
      obtain rfl := Option.some.inj read
      rw [extend?_eq_none_of_completes completed]
      simpa [denotes] using completes_cons_iff.mp completed
    · obtain ⟨rfl, rfl⟩ := List.cons.inj eq
      obtain ⟨longer, first, others⟩ :=
        Option.bind_eq_some_iff.mp ((Numeral.extendAll?_cons u).symm.trans read)
      rw [first]
      exact leadsOn_some_iff.mpr
        ⟨numeral, rest, m, x, rfl, others, denotes, completed⟩
  · intro leads
    cases first : n.extend? u with
    | some longer =>
      rw [first, leadsOn_some_iff] at leads
      obtain ⟨numeral, rest, m, x, rfl, others, denotes, completed⟩ := leads
      exact ⟨u :: numeral, rest, m, x, rfl, by rw [Numeral.extendAll?_cons, first]; exact others,
        denotes, completed⟩
    | none =>
      cases denotes : n.number? with
      | none => simp [first, denotes] at leads
      | some x =>
        simp only [first, denotes, Option.bind_some] at leads
        exact ⟨[], u :: t, n, x, rfl, rfl, denotes, completes_cons_iff.mpr leads⟩

/-- One unit of a word, or the first one behind it. -/
lemma accepts_word_cons_iff {word : Text} :
    Reading.Accepts ⟨.word word v, stack⟩ (u :: t) result ↔
      LeadsOn (wordStep? word v u stack) t result := by
  unfold wordStep?
  rcases word with _ | ⟨w, _ | ⟨x, word⟩⟩
  · simp [Reading.Accepts, completes_cons_iff]
  · by_cases eq : u = w
    · simp [Reading.Accepts, eq]
    · simp [Reading.Accepts, eq]
  · by_cases eq : u = w
    · have nonempty (rest : Text) (behind : t = x :: (word ++ rest)) : t ≠ [] := by
        rw [behind]
        exact List.cons_ne_nil _ _
      simpa [Reading.Accepts, eq] using fun rest behind _ => nonempty rest behind
    · simp [Reading.Accepts, eq]

/-! ### One step -/

/-- The first unit of a value leaves no value awaited at once. -/
lemma isSound_of_mem_beginValue? : ∀ next ∈ beginValue? u stack, next.IsSound := by
  fun_cases beginValue? u stack <;> simp [Reading.IsSound]

/-- Behind a complete value, another one is awaited only in an array. -/
lemma isSound_of_mem_settledStep? : ∀ next ∈ settledStep? v u stack, next.IsSound := by
  fun_cases settledStep? v u stack with
  | case1 space => simp [Reading.IsSound]
  | case2 visible => fun_cases afterValue? v u stack <;> simp [Reading.IsSound]

/-- Where a token is awaited, a value is awaited next only behind a colon. -/
lemma isSound_of_mem_tokenStep? {mode : Mode} (sound : Reading.IsSound ⟨mode, stack⟩) :
    ∀ next ∈ tokenStep? mode u stack, next.IsSound := by
  fun_cases tokenStep? mode u stack with
  | case1 space => simpa using sound
  | case2 stack => exact isSound_of_mem_beginValue?
  | case4 items stack => exact isSound_of_mem_beginValue?
  | case10 stack colon =>
    intro next step
    obtain rfl := Option.some.inj step
    exact fun _ => sound (.inr rfl)
  | _ => simp [Reading.IsSound]

/-- **What a step preserves.**  No step leads to where a value is awaited in place of a key. -/
lemma Reading.IsSound.of_mem_step? {r : Reading} (sound : r.IsSound) :
    ∀ next ∈ r.step? u, next.IsSound := by
  obtain ⟨mode, stack⟩ := r
  cases mode with
  | settled v => exact isSound_of_mem_settledStep?
  | word word v =>
    simp only [Reading.step?]
    fun_cases wordStep? word v u stack with
    | case1 => exact isSound_of_mem_settledStep?
    | _ => simp [Reading.IsSound]
  | string units =>
    simp only [Reading.step?]
    fun_cases stringStep? units u stack with
    | case1 => rcases stack with _ | ⟨_ | _ | _, _⟩ <;> simp [closeString, Reading.IsSound]
    | _ => simp [Reading.IsSound]
  | escape units =>
    simp only [Reading.step?]
    fun_cases escapeStep? units u stack <;> simp [Reading.IsSound]
  | unitDigits units code awaited =>
    simp only [Reading.step?, unitDigitStep?, Option.mem_def, Option.map_eq_some_iff]
    rintro _ ⟨digit, -, rfl⟩
    split_ifs <;> simp [Reading.IsSound]
  | numeral n =>
    simp only [Reading.step?]
    fun_cases numeralStep? n u stack with
    | case1 => simp [Reading.IsSound]
    | case2 =>
      simp only [Option.mem_def, Option.bind_eq_some_iff]
      rintro next ⟨x, -, step⟩
      exact isSound_of_mem_settledStep? next step
  | _ => exact isSound_of_mem_tokenStep? sound

/-- **One step.**  A text is accepted exactly if its first unit can be read and the other units are
accepted behind it. -/
lemma Reading.accepts_cons_iff {r : Reading} (sound : r.IsSound) :
    r.Accepts (u :: t) result ↔ LeadsOn (r.step? u) t result := by
  obtain ⟨mode, stack⟩ := r
  cases mode with
  | value => exact accepts_token_cons_iff (.inl rfl) sound
  | firstItem => exact accepts_token_cons_iff (.inr (.inl rfl)) sound
  | firstKey => exact accepts_token_cons_iff (.inr (.inr (.inl rfl))) sound
  | key => exact accepts_token_cons_iff (.inr (.inr (.inr (.inl rfl)))) sound
  | colon => exact accepts_token_cons_iff (.inr (.inr (.inr (.inr rfl)))) sound
  | settled v => exact completes_cons_iff
  | word word v => exact accepts_word_cons_iff
  | string units => exact suppliesString_cons_iff
  | escape units => exact accepts_escape_cons_iff
  | unitDigits units code awaited => exact accepts_unitDigits_cons_iff
  | numeral n => exact accepts_numeral_cons_iff

/-! ### Whole texts -/

/-- No value is supplied by an empty text. -/
lemma not_supplies_nil : ¬ Supplies stack [] result := by
  rintro ⟨v, s, rest, blanks, spelled, -⟩
  obtain ⟨u, s, rfl, -⟩ := spelled.exists_cons
  exact not_skips_nil_cons blanks

/-- No string is closed by an empty text. -/
lemma not_suppliesString_nil {units : Text} : ¬ SuppliesString units stack [] result := by
  rintro ⟨_ | ⟨w, others⟩, s, spelled, -⟩
  · cases spelled
  · obtain ⟨r, unit, -⟩ := spelled
    cases unit

/-- Nothing is escaped by an empty text. -/
lemma not_spellsEscape_nil : ¬ SpellsEscape u [] rest := by
  intro escape
  cases escape

/-- The empty text is accepted exactly if the value is complete. -/
lemma Reading.accepts_nil_iff {r : Reading} : r.Accepts [] result ↔ r.finish? = some result := by
  obtain ⟨mode, stack⟩ := r
  cases mode with
  | value => simp [Reading.Accepts, Reading.finish?, not_supplies_nil]
  | firstItem =>
    rcases stack with _ | ⟨_ | _ | _, stack⟩ <;>
      simp [Reading.Accepts, Reading.finish?, not_supplies_nil, not_skips_nil_cons]
  | firstKey =>
    rcases stack with _ | ⟨_ | _ | _, stack⟩ <;>
      simp [Reading.Accepts, Reading.finish?, not_skips_nil_cons]
  | key => simp [Reading.Accepts, Reading.finish?, not_skips_nil_cons]
  | colon => simp [Reading.Accepts, Reading.finish?, not_skips_nil_cons]
  | settled v =>
    cases stack <;> simp [Reading.Accepts, Reading.finish?, completes_nil_iff, eq_comm]
  | word word v => simp [Reading.Accepts, Reading.finish?]
  | string units => simp [Reading.Accepts, Reading.finish?, not_suppliesString_nil]
  | escape units => simp [Reading.Accepts, Reading.finish?, not_spellsEscape_nil]
  | unitDigits units code awaited => simp [Reading.Accepts, Reading.finish?, SpellsCode]
  | numeral n =>
    cases stack <;> simp [Reading.Accepts, Reading.finish?, completes_nil_iff, and_assoc, eq_comm]

/-- **A run.**  The reader comes to a value exactly with the texts that it accepts. -/
theorem Reading.run?_eq_some_iff {r : Reading} (sound : r.IsSound) :
    r.run? t = some result ↔ r.Accepts t result := by
  induction t generalizing r with
  | nil => exact Reading.accepts_nil_iff.symm
  | cons u t ih =>
    rw [Reading.accepts_cons_iff sound, Reading.run?]
    cases step : r.step? u with
    | none => simp
    | some next => exact (ih (sound.of_mem_step? next step)).trans leadsOn_some_iff.symm

/-- **The reader follows the grammar.**  It reads a value from a text exactly if the text spells out
the value. -/
theorem scan?_eq_some_iff : scan? t = some v ↔ v.IsSpelledBy t := by
  have sound : Reading.IsSound ⟨.value, []⟩ := by simp [Reading.IsSound]
  rw [scan?, Reading.run?_eq_some_iff sound]
  constructor
  · rintro ⟨v, s, rest, before, spelled, behind, rfl⟩
    exact ⟨s, rest, before, spelled, behind⟩
  · rintro ⟨s, rest, before, spelled, behind⟩
    exact ⟨v, s, rest, before, spelled, behind, rfl⟩

/-- A text spells out one value at most. -/
lemma IsSpelledBy.eq {w : Json} (spelled : v.IsSpelledBy t) (spelled' : w.IsSpelledBy t) : v = w := by
  have scanned : scan? t = some v := scan?_eq_some_iff.mpr spelled
  have scanned' : scan? t = some w := scan?_eq_some_iff.mpr spelled'
  exact Option.some.inj (scanned.symm.trans scanned')

end Json

end PolicyWarden
