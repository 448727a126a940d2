import Mathlib.Tactic.Common
import PolicyWarden.Organization
import PolicyWarden.Proofs.Text.Segments

/-!
# Organizations among segments

`Organization.idOfPath?` goes through a path unit by unit.  What it finds is said in terms of the
parts between the slashes: the digits behind the first part `organizations` that has digits behind
it (`Organization.idOfPath?_eq`).  So an id is found wherever two neighbouring parts name an
organization (`Organization.LeadsThrough.exists_idOfPath?`).
-/

namespace PolicyWarden

namespace Organization

/-! ### Ids -/

/-- The segment that announces the id of an organization. -/
def announcement : Text :=
  "organizations"

/-- The id behind the first announcement that has digits behind it. -/
def idAmong? : List Text → Option Text
  | first :: id :: others =>
      if first = announcement ∧ Text.isDigits id then some id else idAmong? (id :: others)
  | _ => none

/-- Digits are an id if they are there and nothing but a slash follows them. -/
lemma digitSegment?_append {digits rest : Text} (all : ∀ u ∈ digits, CodeUnit.isDigit u = true)
    (stops : ∀ u ∈ rest.head?, CodeUnit.isDigit u = false) :
    digitSegment? (digits ++ rest) =
      if digits ≠ [] ∧ rest.head?.getD slash = slash then some digits else none := by
  have taken : (digits ++ rest).takeWhile CodeUnit.isDigit = digits := by
    rw [List.takeWhile_append_of_pos all]
    cases rest with
    | nil => simp
    | cons u rest => simp [stops u rfl]
  have left : (digits ++ rest).dropWhile CodeUnit.isDigit = rest := by
    rw [List.dropWhile_append_of_pos all]
    cases rest with
    | nil => simp
    | cons u rest => simp [stops u rfl]
  rw [digitSegment?, taken, left]
  cases digits <;> cases rest <;> simp

/-- The digits at the start of a text are an id if they are its first segment. -/
lemma digitSegment?_eq (t : Text) :
    digitSegment? t =
      if Text.isDigits (t.takeWhile fun u => u ≠ slash) then some (t.takeWhile fun u => u ≠ slash)
      else none := by
  have all : ∀ u ∈ t.takeWhile CodeUnit.isDigit, CodeUnit.isDigit u = true :=
    fun u mem => List.mem_takeWhile_imp mem
  have noSlash : ∀ u ∈ t.takeWhile CodeUnit.isDigit, decide (u ≠ slash) = true := by
    intro u mem
    rw [decide_eq_true_eq]
    rintro rfl
    exact absurd (all slash mem) (by decide)
  have stops : ∀ u ∈ (t.dropWhile CodeUnit.isDigit).head?, CodeUnit.isDigit u = false := by
    intro u mem
    have := List.head?_dropWhile_not CodeUnit.isDigit t
    rw [Option.mem_def.mp mem] at this
    simpa using this
  conv_rhs => rw [← List.takeWhile_append_dropWhile (p := CodeUnit.isDigit) (l := t)]
  conv_lhs => rw [← List.takeWhile_append_dropWhile (p := CodeUnit.isDigit) (l := t)]
  rw [List.takeWhile_append_of_pos noSlash, digitSegment?_append all stops]
  generalize t.takeWhile CodeUnit.isDigit = digits at all ⊢
  cases rest : t.dropWhile CodeUnit.isDigit with
  | nil => cases digits <;> simp_all [Text.isDigits]
  | cons u others =>
    rw [rest] at stops
    have notDigit := stops u rfl
    by_cases h : u = slash
    · cases digits <;> simp_all [Text.isDigits]
    · simp [h, Text.isDigits, notDigit]

/-- No slash stands in the announcement. -/
lemma slash_not_mem_announcement : slash ∉ announcement := by
  decide

/-- A text names an id at its start if the first two segments are the announcement and digits. -/
lemma idAtStart?_eq (t : Text) :
    idAtStart? t =
      match Text.segments slash t with
      | first :: id :: _ => if first = announcement ∧ Text.isDigits id then some id else none
      | _ => none := by
  have start : nameStart = announcement ++ [slash] := by decide
  cases dropped : Text.dropStart? nameStart t with
  | some rest =>
    rw [Text.dropStart?_eq_some_iff, start, List.append_assoc, List.singleton_append] at dropped
    obtain ⟨others, eq⟩ := Text.exists_segments_eq slash rest
    rw [idAtStart?, Text.dropStart?_eq_some_iff.mpr (by rw [start, List.append_assoc]; exact dropped),
      Option.bind_some, digitSegment?_eq, dropped,
      Text.segments_append slash_not_mem_announcement, eq]
    simp
  | none =>
    rw [idAtStart?, dropped]
    split
    · next first id others eq =>
      rw [if_neg]
      · rfl
      · rintro ⟨rfl, -⟩
        obtain ⟨rest, rfl, -⟩ := Text.eq_append_of_segments eq
        have found : Text.dropStart? nameStart (announcement ++ slash :: rest) = some rest := by
          rw [Text.dropStart?_eq_some_iff, start, List.append_assoc, List.singleton_append]
        rw [found] at dropped
        cases dropped
    · rfl

/-- The search from a place goes on among the segments from there: among all of them at the start of
a segment, and among the later ones inside one. -/
lemma scan?_eq (t : Text) (atBoundary : Bool) :
    scan? atBoundary t =
      idAmong? (if atBoundary then Text.segments slash t else (Text.segments slash t).tail) := by
  induction t generalizing atBoundary with
  | nil => cases atBoundary <;> rfl
  | cons u t ih =>
    -- Behind the first unit only the later segments are left to search.
    have later : scan? (u == slash) t = idAmong? (Text.segments slash (u :: t)).tail := by
      rw [ih]
      by_cases h : u = slash
      · subst h
        rw [Text.segments_sep_cons]
        simp
      · obtain ⟨first, others, eq, longer⟩ := Text.segments_cons h t
        simp [h, eq, longer]
    cases atBoundary with
    | false => rw [scan?, if_neg Bool.false_ne_true, if_neg Bool.false_ne_true]; exact later
    | true =>
      rw [scan?, if_pos rfl, if_pos rfl, later, idAtStart?_eq]
      obtain ⟨others, eq⟩ := Text.exists_segments_eq slash (u :: t)
      rw [eq]
      cases others with
      | nil => rfl
      | cons id others =>
        rw [idAmong?]
        split_ifs with named
        · simp only [if_pos named]
        · simp only [if_neg named, List.tail_cons]

/-- **Ids among segments.**  The id of a path stands behind the first announcement that has digits
behind it. -/
theorem idOfPath?_eq (path : Text) : idOfPath? path = idAmong? (Text.segments slash path) :=
  scan?_eq path true

/-- Two neighbouring segments name an organization. -/
def LeadsThrough (path : Text) : Prop :=
  ∃ before id after, Text.segments slash path = before ++ announcement :: id :: after ∧
    Text.isDigits id = true

/-- Where two neighbouring segments name an organization, an id is found. -/
lemma LeadsThrough.exists_idOfPath? {path : Text} (leads : LeadsThrough path) :
    ∃ id, idOfPath? path = some id := by
  obtain ⟨before, id, after, eq, digits⟩ := leads
  rw [idOfPath?_eq, eq]
  clear eq
  induction before with
  | nil => exact ⟨id, if_pos ⟨rfl, digits⟩⟩
  | cons first before ih =>
    obtain ⟨second, others, shape⟩ : ∃ second others,
        before ++ announcement :: id :: after = second :: others := by
      cases before <;> exact ⟨_, _, rfl⟩
    rw [List.cons_append, shape, idAmong?]
    split_ifs
    · exact ⟨second, rfl⟩
    · rwa [shape] at ih

/-- An id that is found stands behind an announcement. -/
lemma leadsThrough_of_idOfPath? {path id : Text} (found : idOfPath? path = some id) :
    LeadsThrough path := by
  rw [idOfPath?_eq] at found
  suffices named : ∀ parts : List Text, idAmong? parts = some id →
      ∃ before after, parts = before ++ announcement :: id :: after ∧ Text.isDigits id = true by
    obtain ⟨before, after, eq, digits⟩ := named _ found
    exact ⟨before, id, after, eq, digits⟩
  intro parts
  induction parts with
  | nil => intro found; cases found
  | cons first parts ih =>
    intro found
    cases parts with
    | nil => cases found
    | cons second others =>
      rw [idAmong?] at found
      split_ifs at found with names
      · obtain rfl := Option.some.inj found
        exact ⟨[], others, by rw [names.1]; rfl, names.2⟩
      · obtain ⟨before, after, eq, digits⟩ := ih found
        exact ⟨first :: before, after, by rw [eq]; rfl, digits⟩

end Organization

end PolicyWarden
