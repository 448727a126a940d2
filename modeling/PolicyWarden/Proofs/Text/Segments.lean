import Mathlib.Tactic.Common
import Mathlib.Data.List.TakeWhile
import PolicyWarden.Text.Basic

/-!
# Segments

A text falls into segments at the occurrences of a unit.  No segment holds that unit, and with it
between them the segments make the text again (`Text.join_segments`), so that there is only one way
to take a text apart (`Text.segments_join`).
-/

namespace PolicyWarden

namespace Text

variable {sep : CodeUnit} {s t part : Text}

/-- There is a first segment, which goes up to the separator. -/
lemma exists_segments_eq (sep : CodeUnit) (t : Text) :
    ∃ others, segments sep t = t.takeWhile (fun u => u ≠ sep) :: others := by
  induction t with
  | nil => exact ⟨[], rfl⟩
  | cons u t ih =>
    obtain ⟨others, eq⟩ := ih
    rw [segments, eq]
    by_cases h : u = sep
    · exact ⟨_, by simp [h]; rfl⟩
    · exact ⟨others, by simp [h]⟩

/-- A separator ends an empty segment. -/
lemma segments_sep_cons (sep : CodeUnit) (t : Text) :
    segments sep (sep :: t) = [] :: segments sep t := by
  obtain ⟨others, eq⟩ := exists_segments_eq sep t
  simp [segments, eq]

/-- Another unit prolongs the first segment. -/
lemma segments_cons {u : CodeUnit} (ne : u ≠ sep) (t : Text) :
    ∃ first others, segments sep t = first :: others ∧
      segments sep (u :: t) = (u :: first) :: others := by
  obtain ⟨others, eq⟩ := exists_segments_eq sep t
  exact ⟨_, others, eq, by simp [segments, eq, ne]⟩

/-- A text without separator is its only segment. -/
lemma segments_of_not_mem (free : sep ∉ s) : segments sep s = [s] := by
  induction s with
  | nil => rfl
  | cons u s ih =>
    rw [List.mem_cons, not_or] at free
    obtain ⟨first, others, eq, longer⟩ := segments_cons (Ne.symm free.1) s
    rw [ih free.2] at eq
    obtain ⟨rfl, rfl⟩ := List.cons.inj eq
    exact longer

/-- What stands before a separator and what stands behind it are taken apart on their own. -/
lemma segments_append_sep (s t : Text) :
    segments sep (s ++ sep :: t) = segments sep s ++ segments sep t := by
  induction s with
  | nil => exact segments_sep_cons sep t
  | cons u s ih =>
    by_cases h : u = sep
    · subst h
      rw [List.cons_append, segments_sep_cons, segments_sep_cons, ih]
      rfl
    · obtain ⟨first, others, eq, longer⟩ := segments_cons h (s ++ sep :: t)
      obtain ⟨first', others', eq', longer'⟩ := segments_cons h s
      rw [ih, eq', List.cons_append] at eq
      obtain ⟨rfl, rfl⟩ := List.cons.inj eq
      rw [List.cons_append, longer, longer']
      rfl

/-- A text without separator before a separator is a segment. -/
lemma segments_append (free : sep ∉ s) (t : Text) :
    segments sep (s ++ sep :: t) = s :: segments sep t := by
  rw [segments_append_sep, segments_of_not_mem free]
  rfl

/-- A segment with another one behind it ends at a separator. -/
lemma eq_append_of_segments {next : Text} {others : List Text}
    (eq : segments sep t = s :: next :: others) :
    ∃ rest, t = s ++ sep :: rest ∧ segments sep rest = next :: others := by
  induction t generalizing s with
  | nil => cases eq
  | cons u t ih =>
    by_cases h : u = sep
    · subst h
      rw [segments_sep_cons] at eq
      obtain ⟨rfl, behind⟩ := List.cons.inj eq
      exact ⟨t, rfl, behind⟩
    · obtain ⟨first, tail, shorter, longer⟩ := segments_cons h t
      rw [longer] at eq
      obtain ⟨rfl, rfl⟩ := List.cons.inj eq
      obtain ⟨rest, rfl, behind⟩ := ih shorter
      exact ⟨rest, rfl, behind⟩

/-- The segments of a text are the text again with the separators between them. -/
lemma join_segments (sep : CodeUnit) (t : Text) : join [sep] (segments sep t) = t := by
  induction t with
  | nil => rfl
  | cons u t ih =>
    by_cases h : u = sep
    · subst h
      obtain ⟨others, eq⟩ := exists_segments_eq u t
      rw [segments_sep_cons]
      rw [eq] at ih ⊢
      rw [join, ih]
      rfl
    · obtain ⟨first, others, eq, longer⟩ := segments_cons h t
      rw [eq] at ih
      rw [longer, ← ih]
      cases others <;> rfl

/-- No separator stands in a segment. -/
lemma not_mem_of_mem_segments (mem : part ∈ segments sep t) : sep ∉ part := by
  induction t generalizing part with
  | nil =>
    rw [segments, List.mem_singleton] at mem
    rw [mem]
    exact List.not_mem_nil
  | cons u t ih =>
    by_cases h : u = sep
    · subst h
      rw [segments_sep_cons, List.mem_cons] at mem
      rcases mem with rfl | later
      · exact List.not_mem_nil
      · exact ih later
    · obtain ⟨first, others, eq, longer⟩ := segments_cons h t
      rw [longer, List.mem_cons] at mem
      rcases mem with rfl | later
      · rw [List.mem_cons, not_or]
        exact ⟨Ne.symm h, ih (by rw [eq]; exact List.mem_cons_self)⟩
      · exact ih (by rw [eq]; exact List.mem_cons_of_mem _ later)

/-- Parts without a separator are the segments of the text that they make. -/
lemma segments_join {parts : List Text} (free : ∀ part ∈ parts, sep ∉ part) (ne : parts ≠ []) :
    segments sep (join [sep] parts) = parts := by
  induction parts with
  | nil => exact absurd rfl ne
  | cons first others ih =>
    rw [List.forall_mem_cons] at free
    cases others with
    | nil =>
      rw [join, segments_of_not_mem free.1]
    | cons second rest =>
      have joined : join [sep] (first :: second :: rest) =
          first ++ sep :: join [sep] (second :: rest) := by
        simp [join]
      rw [joined, segments_append free.1, ih free.2 (List.cons_ne_nil _ _)]

end Text

end PolicyWarden
