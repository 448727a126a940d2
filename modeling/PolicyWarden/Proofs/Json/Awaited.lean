import PolicyWarden.Proofs.Json.Grammar

/-!
# What the reader awaits

Whatever the reader is in the middle of, the grammar says which texts bring it to which value
(`Json.Reading.Accepts`): what it is reading now must be finished, and then every open array and
object, from the innermost outwards (`Json.Completes`).

How such a text goes on is said here for each part of a document: behind a complete value
(`Json.completes_cons_iff`), inside a string (`Json.suppliesString_cons_iff`), and where a value
begins (`Json.leadsOn_beginValue?`, `Json.exists_spells_of_beginValue?`).
-/

namespace PolicyWarden

namespace Json

variable {t rest : Text} {u c : CodeUnit} {v result : Json} {stack : List Frame}

/-! ### What the open arrays and objects still ask for -/

/-- Behind a complete value, the text ends every open array and object, and the outermost value is
the result. -/
def Completes : List Frame → Json → (t : Text) → (result : Json) → Prop
  | [], v, t, result => Skips t [] ∧ result = v
  | .list items :: stack, v, t, result =>
      ∃ others s, SpellsNextItems others t s ∧
        Completes stack (array ((v :: items).reverse ++ others)) s result
  | .member members key :: stack, v, t, result =>
      ∃ others s, SpellsNextMembers others t s ∧
        Completes stack (object (((key, v) :: members).reverse ++ others)) s result
  | .record _ :: _, _, _, _ => False

/-- The text goes on with a value and completes it. -/
def Supplies (stack : List Frame) (t : Text) (result : Json) : Prop :=
  ∃ v s rest, Skips t s ∧ Spells v s rest ∧ Completes stack v rest result

/-- Behind a string, the text goes on from a key where an object awaits one, and from a complete
text elsewhere. -/
def CompletesString (units : Text) (stack : List Frame) (t : Text) (result : Json) : Prop :=
  match stack with
  | .record members :: stack =>
      ∃ s, Skips t (CodeUnit.ofChar ':' :: s) ∧
        Supplies (.member members units.reverse :: stack) s result
  | stack => Completes stack (text units.reverse) t result

/-- Inside a string, the text goes on with its other units and completes it. -/
def SuppliesString (units : Text) (stack : List Frame) (t : Text) (result : Json) : Prop :=
  ∃ others s, SpellsUnits others t s ∧ CompletesString (others.reverse ++ units) stack s result

/-- The texts that bring the reader to a result, by what it is in the middle of. -/
def Reading.Accepts (r : Reading) (t : Text) (result : Json) : Prop :=
  match r.mode, r.stack with
  | .value, stack => Supplies stack t result
  | .firstItem, .list items :: stack =>
      (∃ s, Skips t (CodeUnit.ofChar ']' :: s) ∧ Completes stack (array items.reverse) s result) ∨
        Supplies (.list items :: stack) t result
  | .firstKey, .record members :: stack =>
      (∃ s, Skips t (CodeUnit.ofChar '}' :: s) ∧
          Completes stack (object members.reverse) s result) ∨
        ∃ s, Skips t (CodeUnit.ofChar '"' :: s) ∧
          SuppliesString [] (.record members :: stack) s result
  | .key, stack => ∃ s, Skips t (CodeUnit.ofChar '"' :: s) ∧ SuppliesString [] stack s result
  | .colon, stack => ∃ s, Skips t (CodeUnit.ofChar ':' :: s) ∧ Supplies stack s result
  | .settled v, stack => Completes stack v t result
  -- The value of a word is complete only behind a further unit, even where no letter is awaited.
  | .word word v, stack => t ≠ [] ∧ ∃ rest, t = word ++ rest ∧ Completes stack v rest result
  | .string units, stack => SuppliesString units stack t result
  | .escape units, stack => ∃ u s, SpellsEscape u t s ∧ SuppliesString (u :: units) stack s result
  -- The reader takes one digit even where none is awaited.
  | .unitDigits units code awaited, stack =>
      ∃ u s, SpellsCode (awaited - 1 + 1) code u t s ∧ SuppliesString (u :: units) stack s result
  | .numeral n, stack =>
      ∃ numeral rest m x, t = numeral ++ rest ∧ n.extendAll? numeral = some m ∧
        m.number? = some x ∧ Completes stack (number x) rest result
  | .firstItem, _ | .firstKey, _ => False

/-! ### Steps that lead on -/

/-- The step succeeds, and the text brings the reader from there to the result. -/
def LeadsOn (step : Option Reading) (t : Text) (result : Json) : Prop :=
  ∃ next, step = some next ∧ next.Accepts t result

/-- A step that succeeds leads on if the text is accepted there. -/
@[simp]
lemma leadsOn_some_iff {next : Reading} :
    LeadsOn (some next) t result ↔ next.Accepts t result := by
  simp [LeadsOn]

/-- A step that fails does not lead on. -/
@[simp]
lemma not_leadsOn_none : ¬ LeadsOn none t result := by
  simp [LeadsOn]

/-- A step that looks for a mark first leads on with the mark, or as the other step does. -/
lemma leadsOn_ite_iff {next : Reading} {other : Option Reading}
    (excluded : u = c → ¬ LeadsOn other t result) :
    LeadsOn (if u = c then some next else other) t result ↔
      (∃ s, u :: t = c :: s ∧ next.Accepts s result) ∨ LeadsOn other t result := by
  by_cases mark : u = c
  · simp [mark, excluded mark]
  · simp [mark]

/-- A step that looks for a mark alone leads on with the mark. -/
lemma leadsOn_mark_iff {next : Reading} :
    LeadsOn (if u = c then some next else none) t result ↔
      ∃ s, u :: t = c :: s ∧ next.Accepts s result := by
  rw [leadsOn_ite_iff fun _ => not_leadsOn_none]
  simp

/-! ### Behind a complete value -/

/-- Behind an item, the array ends, or a comma and another item follow. -/
lemma completes_list_iff {items : List Json} :
    Completes (.list items :: stack) v t result ↔
      (∃ s, Skips t (CodeUnit.ofChar ']' :: s) ∧
          Completes stack (array (v :: items).reverse) s result) ∨
        ∃ s, Skips t (CodeUnit.ofChar ',' :: s) ∧ Supplies (.list (v :: items) :: stack) s result := by
  have moved (next : Json) (others : List Json) :
      (v :: items).reverse ++ next :: others = (next :: v :: items).reverse ++ others := by
    simp
  constructor
  · rintro ⟨others, s, spelled, completed⟩
    cases others with
    | nil =>
      rw [List.append_nil] at completed
      exact .inl ⟨s, spelled, completed⟩
    | cons next others =>
      obtain ⟨behind, value, r, comma, blanks, first, more⟩ := spelled
      rw [moved] at completed
      exact .inr ⟨behind, comma, next, value, r, blanks, first, others, s, more, completed⟩
  · rintro (⟨s, bracket, completed⟩ | ⟨behind, comma, next, value, r, blanks, first, supplied⟩)
    · refine ⟨[], s, bracket, ?_⟩
      rwa [List.append_nil]
    · obtain ⟨others, s, more, completed⟩ := supplied
      refine ⟨next :: others, s, ⟨behind, value, r, comma, blanks, first, more⟩, ?_⟩
      rwa [moved]

/-- Where an object awaits a key, the text goes on with a key and its value. -/
lemma accepts_key_iff {members : Members} :
    Reading.Accepts ⟨.key, .record members :: stack⟩ t result ↔
      ∃ key s v rest, SpellsKey key t s ∧ Spells v s rest ∧
        Completes (.member members key :: stack) v rest result := by
  have same (key : Text) : (key.reverse ++ []).reverse = key := by
    simp
  constructor
  · rintro ⟨units, quote, key, colon, named, behind, mark, supplied⟩
    obtain ⟨v, value, rest, blanks, spelled, completed⟩ := supplied
    rw [same] at completed
    exact ⟨key, value, v, rest, ⟨units, colon, behind, quote, named, mark, blanks⟩, spelled,
      completed⟩
  · rintro ⟨key, value, v, rest, ⟨units, colon, behind, quote, named, mark, blanks⟩, spelled,
      completed⟩
    have supplied : Supplies (.member members (key.reverse ++ []).reverse :: stack) behind result := by
      rw [same]
      exact ⟨v, value, rest, blanks, spelled, completed⟩
    exact ⟨units, quote, key, colon, named, behind, mark, supplied⟩

/-- Behind a member, the object ends, or a comma and another member follow. -/
lemma completes_member_iff {members : Members} {key : Text} :
    Completes (.member members key :: stack) v t result ↔
      (∃ s, Skips t (CodeUnit.ofChar '}' :: s) ∧
          Completes stack (object ((key, v) :: members).reverse) s result) ∨
        ∃ s, Skips t (CodeUnit.ofChar ',' :: s) ∧
          Reading.Accepts ⟨.key, .record ((key, v) :: members) :: stack⟩ s result := by
  have moved (next : Text × Json) (others : Members) :
      ((key, v) :: members).reverse ++ next :: others
        = (next :: (key, v) :: members).reverse ++ others := by
    simp
  simp only [accepts_key_iff]
  constructor
  · rintro ⟨others, s, spelled, completed⟩
    cases others with
    | nil =>
      rw [List.append_nil] at completed
      exact .inl ⟨s, spelled, completed⟩
    | cons next others =>
      obtain ⟨behind, value, r, comma, named, first, more⟩ := spelled
      rw [moved] at completed
      exact .inr ⟨behind, comma, next.1, value, next.2, r, named, first, others, s, more, completed⟩
  · rintro (⟨s, brace, completed⟩ | ⟨behind, comma, k, value, next, r, named, first, supplied⟩)
    · refine ⟨[], s, brace, ?_⟩
      rwa [List.append_nil]
    · obtain ⟨others, s, more, completed⟩ := supplied
      refine ⟨(k, next) :: others, s, ⟨behind, value, r, comma, named, first, more⟩, ?_⟩
      rwa [moved]

/-- A complete value at the end of the text is the result. -/
lemma completes_nil_iff : Completes stack v [] result ↔ stack = [] ∧ result = v := by
  rcases stack with _ | ⟨_ | _ | _, stack⟩
  · simp [Completes, skips_refl]
  · simp [completes_list_iff, not_skips_nil_cons]
  · simp [Completes]
  · simp [completes_member_iff, not_skips_nil_cons]

/-- A blank behind a complete value makes no difference. -/
lemma completes_cons_of_isSpace (space : isSpace u = true) :
    Completes stack v (u :: t) result ↔ Completes stack v t result := by
  rcases stack with _ | ⟨items | members | ⟨members, key⟩, stack⟩
  · simp [Completes, skips_cons_iff, space]
  · simp only [completes_list_iff, skips_mark_of_isSpace (c := CodeUnit.ofChar ']') rfl space,
      skips_mark_of_isSpace (c := CodeUnit.ofChar ',') rfl space]
  · rfl
  · simp only [completes_member_iff, skips_mark_of_isSpace (c := CodeUnit.ofChar '\x7d') rfl space,
      skips_mark_of_isSpace (c := CodeUnit.ofChar ',') rfl space]

/-- A unit that is no blank behind a complete value. -/
lemma completes_cons_of_not_isSpace (visible : isSpace u = false) :
    Completes stack v (u :: t) result ↔ LeadsOn (afterValue? v u stack) t result := by
  have distinct {c : CodeUnit} (other : CodeUnit.ofChar ',' ≠ c) {next : Reading}
      (comma : u = CodeUnit.ofChar ',') : ¬ LeadsOn (if u = c then some next else none) t result := by
    rw [comma, if_neg other]
    exact not_leadsOn_none
  unfold afterValue?
  rcases stack with _ | ⟨items | members | ⟨members, key⟩, stack⟩
  · simp [Completes, skips_of_not_isSpace visible]
  · rw [leadsOn_ite_iff (distinct (by decide)), leadsOn_mark_iff, completes_list_iff, or_comm]
    simp only [skips_of_not_isSpace visible, Reading.Accepts]
  · simp [Completes]
  · rw [leadsOn_ite_iff (distinct (by decide)), leadsOn_mark_iff, completes_member_iff, or_comm]
    simp only [skips_of_not_isSpace visible, Reading.Accepts]

/-- One unit behind a complete value. -/
lemma completes_cons_iff :
    Completes stack v (u :: t) result ↔ LeadsOn (settledStep? v u stack) t result := by
  unfold settledStep?
  cases space : isSpace u with
  | true =>
    rw [if_pos rfl, completes_cons_of_isSpace space, leadsOn_some_iff]
    rfl
  | false =>
    rw [if_neg Bool.false_ne_true]
    exact completes_cons_of_not_isSpace space

/-! ### Strings -/

/-- Behind a string, the reader is in the middle of what the text goes on from. -/
lemma accepts_closeString_iff {units : Text} :
    (closeString units stack).Accepts t result ↔ CompletesString units stack t result := by
  rcases stack with _ | ⟨_ | _ | _, _⟩ <;> rfl

/-- A string is a complete text where no object awaits a key. -/
lemma completesString_of_value {units : Text}
    (value : ∀ members, stack.head? ≠ some (.record members)) :
    CompletesString units stack t result ↔ Completes stack (text units.reverse) t result := by
  rcases stack with _ | ⟨_ | members | _, stack⟩
  · rfl
  · rfl
  · exact absurd rfl (value members)
  · rfl

/-- Inside a string, the text goes on with the closing quote or with one more unit. -/
lemma suppliesString_iff {units : Text} :
    SuppliesString units stack t result ↔
      (∃ s, t = CodeUnit.ofChar '"' :: s ∧ CompletesString units stack s result) ∨
        ∃ w s, SpellsUnit w t s ∧ SuppliesString (w :: units) stack s result := by
  have moved (w : CodeUnit) (others : Text) :
      (w :: others).reverse ++ units = others.reverse ++ w :: units := by
    simp
  constructor
  · rintro ⟨others, s, spelled, completed⟩
    cases others with
    | nil => exact .inl ⟨s, spelled, completed⟩
    | cons w others =>
      obtain ⟨r, unit, more⟩ := spelled
      rw [moved] at completed
      exact .inr ⟨w, r, unit, others, s, more, completed⟩
  · rintro (⟨s, quote, completed⟩ | ⟨w, r, unit, others, s, more, completed⟩)
    · exact ⟨[], s, quote, completed⟩
    · refine ⟨w :: others, s, ⟨r, unit, more⟩, ?_⟩
      rwa [moved]

/-- One unit inside a string. -/
lemma suppliesString_cons_iff {units : Text} :
    SuppliesString units stack (u :: t) result ↔ LeadsOn (stringStep? units u stack) t result := by
  rw [suppliesString_iff]
  constructor
  · rintro (⟨s, quote, completed⟩ | ⟨w, s, unit, supplied⟩)
    · obtain ⟨rfl, rfl⟩ := List.cons.inj quote
      exact ⟨closeString units stack, rfl, accepts_closeString_iff.mpr completed⟩
    · cases unit with
      | plain quote backslash visible =>
        have step : stringStep? units u stack = some ⟨.string (u :: units), stack⟩ := by
          simp [stringStep?, quote, backslash, visible]
        exact ⟨_, step, supplied⟩
      | escaped escape => exact ⟨⟨.escape units, stack⟩, rfl, w, s, escape, supplied⟩
  · rintro ⟨next, step, accepted⟩
    unfold stringStep? at step
    split_ifs at step with quote backslash hidden
    · obtain rfl := Option.some.inj step
      exact .inl ⟨t, by rw [quote], accepts_closeString_iff.mp accepted⟩
    · obtain rfl := Option.some.inj step
      obtain ⟨w, r, escape, supplied⟩ := accepted
      have unit : SpellsUnit w (u :: t) r := by
        rw [backslash]
        exact .escaped escape
      exact .inr ⟨w, r, unit, supplied⟩
    · obtain rfl := Option.some.inj step
      exact .inr ⟨u, t, .plain quote backslash hidden, accepted⟩

/-- One unit behind a backslash. -/
lemma accepts_escape_cons_iff {units : Text} :
    Reading.Accepts ⟨.escape units, stack⟩ (u :: t) result ↔
      LeadsOn (escapeStep? units u stack) t result := by
  constructor
  · rintro ⟨w, r, escape, supplied⟩
    cases escape with
    | letter escaped =>
      have letter : u ≠ CodeUnit.ofChar 'u' := by
        rintro rfl
        cases escaped
      have step : escapeStep? units u stack = some ⟨.string (w :: units), stack⟩ := by
        simp [escapeStep?, letter, escaped]
      exact ⟨_, step, supplied⟩
    | code digits => exact ⟨⟨.unitDigits units 0 4, stack⟩, rfl, w, r, digits, supplied⟩
  · rintro ⟨next, step, accepted⟩
    unfold escapeStep? at step
    split_ifs at step with code
    · obtain rfl := Option.some.inj step
      obtain ⟨w, r, digits, supplied⟩ := accepted
      have escape : SpellsEscape w (u :: t) r := by
        rw [code]
        exact .code digits
      exact ⟨w, r, escape, supplied⟩
    · obtain ⟨w, escaped, rfl⟩ := Option.map_eq_some_iff.mp step
      exact ⟨w, t, .letter escaped, accepted⟩

/-- One digit of a code. -/
lemma accepts_unitDigits_cons_iff {units : Text} {code awaited : Nat} :
    Reading.Accepts ⟨.unitDigits units code awaited, stack⟩ (u :: t) result ↔
      LeadsOn (unitDigitStep? units code awaited u stack) t result := by
  have first : Reading.Accepts ⟨.unitDigits units code awaited, stack⟩ (u :: t) result ↔
      ∃ digit, CodeUnit.hexValue? u = some digit ∧ ∃ w r,
        SpellsCode (awaited - 1) (code * 16 + digit) w t r ∧
          SuppliesString (w :: units) stack r result := by
    constructor
    · rintro ⟨w, r, ⟨letter, digit, s, eq, value, digits⟩, supplied⟩
      obtain ⟨rfl, rfl⟩ := List.cons.inj eq
      exact ⟨digit, value, w, r, digits, supplied⟩
    · rintro ⟨digit, value, w, r, digits, supplied⟩
      exact ⟨w, r, ⟨u, digit, t, rfl, value, digits⟩, supplied⟩
  rw [first, unitDigitStep?]
  cases value : CodeUnit.hexValue? u with
  | none => simp
  | some digit =>
    by_cases last : awaited ≤ 1
    · have none : awaited - 1 = 0 := by omega
      simp [last, none, SpellsCode, Reading.Accepts]
    · have more : awaited - 1 - 1 + 1 = awaited - 1 := by omega
      simp [last, more, Reading.Accepts]

/-! ### Beginning a value -/

/-- A unit that begins a numeral is none of those that cannot. -/
lemma ne_of_start? {n : Numeral} (start : Numeral.start? u = some n)
    (cannot : Numeral.start? c = none) : u ≠ c := by
  rintro rfl
  rw [cannot] at start
  cases start

/-- No numeral begins with a blank. -/
lemma isSpace_of_start? {n : Numeral} (start : Numeral.start? u = some n) : isSpace u = false := by
  simp [isSpace, ne_of_start? start (c := 0x20) rfl, ne_of_start? start (c := 0x09) rfl,
    ne_of_start? start (c := 0x0A) rfl, ne_of_start? start (c := 0x0D) rfl]

/-- A unit that begins a numeral begins nothing else. -/
lemma beginValue?_of_start? {n : Numeral} (start : Numeral.start? u = some n) :
    beginValue? u stack = some ⟨.numeral n, stack⟩ := by
  simp [beginValue?, start, ne_of_start? start (c := CodeUnit.ofChar '[') rfl,
    ne_of_start? start (c := CodeUnit.ofChar '\x7b') rfl,
    ne_of_start? start (c := CodeUnit.ofChar '"') rfl,
    ne_of_start? start (c := CodeUnit.ofChar 'n') rfl,
    ne_of_start? start (c := CodeUnit.ofChar 't') rfl,
    ne_of_start? start (c := CodeUnit.ofChar 'f') rfl]

/-- A value begins with a unit that is no blank. -/
lemma Spells.exists_cons (spelled : Spells v t rest) :
    ∃ u s, t = u :: s ∧ isSpace u = false := by
  cases v with
  | null => exact ⟨CodeUnit.ofChar 'n', _, spelled, rfl⟩
  | bool b =>
    cases b with
    | false => exact ⟨CodeUnit.ofChar 'f', _, spelled, rfl⟩
    | true => exact ⟨CodeUnit.ofChar 't', _, spelled, rfl⟩
  | number x =>
    obtain ⟨numeral, n, read, -, rfl⟩ := spelled
    cases numeral with
    | nil => cases read
    | cons u numeral =>
      obtain ⟨k, start, -⟩ := Option.bind_eq_some_iff.mp read
      exact ⟨u, _, rfl, isSpace_of_start? start⟩
  | text units =>
    obtain ⟨s, rfl, -⟩ := spelled
    exact ⟨_, s, rfl, rfl⟩
  | array items =>
    obtain ⟨s, rfl, -⟩ := spelled
    exact ⟨_, s, rfl, rfl⟩
  | object members =>
    obtain ⟨s, rfl, -⟩ := spelled
    exact ⟨_, s, rfl, rfl⟩

/-- Where an array has just been opened, its items are spelled out and the array is completed. -/
lemma accepts_firstItem_iff :
    Reading.Accepts ⟨.firstItem, .list [] :: stack⟩ t result ↔
      ∃ items rest, SpellsItems items t rest ∧ Completes stack (array items) rest result := by
  constructor
  · rintro (⟨rest, bracket, completed⟩ | ⟨v, s, r, blanks, first, items, rest, more, completed⟩)
    · exact ⟨[], rest, bracket, completed⟩
    · exact ⟨v :: items, rest, ⟨s, r, blanks, first, more⟩, completed⟩
  · rintro ⟨items, rest, spelled, completed⟩
    cases items with
    | nil => exact .inl ⟨rest, spelled, completed⟩
    | cons v items =>
      obtain ⟨s, r, blanks, first, more⟩ := spelled
      exact .inr ⟨v, s, r, blanks, first, items, rest, more, completed⟩

/-- Where an object has just been opened, its members are spelled out and the object is
completed. -/
lemma accepts_firstKey_iff :
    Reading.Accepts ⟨.firstKey, .record [] :: stack⟩ t result ↔
      ∃ members rest, SpellsMembers members t rest ∧
        Completes stack (object members) rest result := by
  have awaits : Reading.Accepts ⟨.firstKey, .record [] :: stack⟩ t result ↔
      (∃ s, Skips t (CodeUnit.ofChar '}' :: s) ∧ Completes stack (object []) s result) ∨
        Reading.Accepts ⟨.key, .record [] :: stack⟩ t result :=
    Iff.rfl
  rw [awaits, accepts_key_iff]
  constructor
  · rintro (⟨rest, brace, completed⟩ | ⟨key, s, v, r, named, first, members, rest, more, completed⟩)
    · exact ⟨[], rest, brace, completed⟩
    · exact ⟨(key, v) :: members, rest, ⟨s, r, named, first, more⟩, completed⟩
  · rintro ⟨members, rest, spelled, completed⟩
    cases members with
    | nil => exact .inl ⟨rest, spelled, completed⟩
    | cons member members =>
      obtain ⟨s, r, named, first, more⟩ := spelled
      exact .inr ⟨member.1, s, member.2, r, named, first, members, rest, more, completed⟩

/-- Where a string has just been opened as a value, its units are spelled out and the text is
completed. -/
lemma accepts_string_iff (value : ∀ members, stack.head? ≠ some (.record members)) :
    Reading.Accepts ⟨.string [], stack⟩ t result ↔
      ∃ units rest, SpellsUnits units t rest ∧ Completes stack (text units) rest result := by
  have closed (units rest : Text) : CompletesString (units.reverse ++ []) stack rest result ↔
      Completes stack (text units) rest result := by
    rw [completesString_of_value value, List.append_nil, List.reverse_reverse]
  exact exists₂_congr fun units rest => and_congr_right fun _ => closed units rest

/-- A value that is spelled out from here on and completed is begun by the first unit. -/
lemma leadsOn_beginValue? (value : ∀ members, stack.head? ≠ some (.record members))
    (spelled : Spells v (u :: t) rest) (completed : Completes stack v rest result) :
    LeadsOn (beginValue? u stack) t result := by
  cases v with
  | null =>
    obtain ⟨rfl, rfl⟩ := List.cons.inj spelled
    exact ⟨_, rfl, List.cons_ne_nil _ _, rest, rfl, completed⟩
  | bool b =>
    cases b with
    | false =>
      obtain ⟨rfl, rfl⟩ := List.cons.inj spelled
      exact ⟨_, rfl, List.cons_ne_nil _ _, rest, rfl, completed⟩
    | true =>
      obtain ⟨rfl, rfl⟩ := List.cons.inj spelled
      exact ⟨_, rfl, List.cons_ne_nil _ _, rest, rfl, completed⟩
  | number x =>
    obtain ⟨numeral, n, read, denotes, eq⟩ := spelled
    cases numeral with
    | nil => cases read
    | cons w numeral =>
      obtain ⟨rfl, rfl⟩ := List.cons.inj eq
      obtain ⟨k, start, others⟩ := Option.bind_eq_some_iff.mp read
      exact ⟨_, beginValue?_of_start? start, numeral, rest, n, x, rfl, others, denotes, completed⟩
  | text units =>
    obtain ⟨s, eq, spelled⟩ := spelled
    obtain ⟨rfl, rfl⟩ := List.cons.inj eq
    have accepted := (accepts_string_iff value).mpr ⟨units, rest, spelled, completed⟩
    exact ⟨⟨.string [], stack⟩, rfl, accepted⟩
  | array items =>
    obtain ⟨s, eq, spelled⟩ := spelled
    obtain ⟨rfl, rfl⟩ := List.cons.inj eq
    have accepted := accepts_firstItem_iff.mpr ⟨items, rest, spelled, completed⟩
    exact ⟨⟨.firstItem, .list [] :: stack⟩, rfl, accepted⟩
  | object members =>
    obtain ⟨s, eq, spelled⟩ := spelled
    obtain ⟨rfl, rfl⟩ := List.cons.inj eq
    have accepted := accepts_firstKey_iff.mpr ⟨members, rest, spelled, completed⟩
    exact ⟨⟨.firstKey, .record [] :: stack⟩, rfl, accepted⟩

/-- What is begun by the first unit and accepted is a value that is spelled out and completed. -/
lemma exists_spells_of_beginValue? {next : Reading}
    (value : ∀ members, stack.head? ≠ some (.record members))
    (begins : beginValue? u stack = some next) (accepted : next.Accepts t result) :
    ∃ v rest, Spells v (u :: t) rest ∧ Completes stack v rest result := by
  unfold beginValue? at begins
  split_ifs at begins with list record string null true' false'
  · obtain rfl := Option.some.inj begins
    obtain ⟨items, rest, spelled, completed⟩ := accepts_firstItem_iff.mp accepted
    exact ⟨array items, rest, ⟨t, by rw [list], spelled⟩, completed⟩
  · obtain rfl := Option.some.inj begins
    obtain ⟨members, rest, spelled, completed⟩ := accepts_firstKey_iff.mp accepted
    exact ⟨object members, rest, ⟨t, by rw [record], spelled⟩, completed⟩
  · obtain rfl := Option.some.inj begins
    obtain ⟨units, rest, spelled, completed⟩ := (accepts_string_iff value).mp accepted
    exact ⟨text units, rest, ⟨t, by rw [string], spelled⟩, completed⟩
  · obtain rfl := Option.some.inj begins
    obtain ⟨-, rest, rfl, completed⟩ := accepted
    exact ⟨.null, rest, by rw [null]; rfl, completed⟩
  · obtain rfl := Option.some.inj begins
    obtain ⟨-, rest, rfl, completed⟩ := accepted
    exact ⟨.bool true, rest, by rw [true']; rfl, completed⟩
  · obtain rfl := Option.some.inj begins
    obtain ⟨-, rest, rfl, completed⟩ := accepted
    exact ⟨.bool false, rest, by rw [false']; rfl, completed⟩
  · obtain ⟨n, start, rfl⟩ := Option.map_eq_some_iff.mp begins
    obtain ⟨numeral, rest, m, x, rfl, read, denotes, completed⟩ := accepted
    have numeral' : Numeral.ofText? (u :: numeral) = some m := by
      rw [Numeral.ofText?, start, Option.bind_some, read]
    exact ⟨.number x, rest, ⟨u :: numeral, m, numeral', denotes, rfl⟩, completed⟩

end Json

end PolicyWarden
