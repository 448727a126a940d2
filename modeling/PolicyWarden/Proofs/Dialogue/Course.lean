import Mathlib.Tactic.Common
import PolicyWarden.Proofs.Dialogue.History

/-!
# The course of a dialogue

`Dialogue.Asks` says after which history a dialogue asks a query, and `Dialogue.Ends` after which
history it reaches a value.  Both are taken apart where a dialogue is put together: what is asked by
one dialogue and then another is asked by the first of them, or by the second after an end of the
first.
-/

namespace PolicyWarden

namespace Dialogue

variable {α β : Type} {h : History} {q : Query}

/-- After a history the dialogue asks a query. -/
def Asks (d : Dialogue α) (h : History) (q : Query) : Prop :=
  ∃ next, d.Reaches h (.ask q next)

/-- After a history the dialogue has reached a value. -/
def Ends (d : Dialogue α) (h : History) (value : α) : Prop :=
  d.Reaches h (.done value)

/-! ### Single steps -/

/-- A dialogue that is done asks nothing. -/
@[simp]
lemma not_asks_done {value : α} : ¬ (done value).Asks h q := by
  rintro ⟨next, ⟨⟩⟩

/-- A dialogue that is done has reached its value. -/
@[simp]
lemma ends_done_iff {value other : α} : (done value).Ends h other ↔ h = [] ∧ value = other := by
  constructor
  · rintro ⟨⟩
    exact ⟨rfl, rfl⟩
  · rintro ⟨rfl, rfl⟩
    exact .here _

/-- A dialogue asks its first query at once, and the others after the reply to it. -/
lemma asks_ask_iff {first : Query} {next : first.Reply → Dialogue α} :
    (ask first next).Asks h q ↔
      (h = [] ∧ first = q) ∨
        ∃ reply rest, h = ⟨first, reply⟩ :: rest ∧ (next reply).Asks rest q := by
  constructor
  · rintro ⟨onward, reach⟩
    cases reach with
    | here => exact .inl ⟨rfl, rfl⟩
    | ask reply rest => exact .inr ⟨reply, _, rfl, onward, rest⟩
  · rintro (⟨rfl, rfl⟩ | ⟨reply, rest, rfl, onward, reach⟩)
    · exact ⟨next, .here _⟩
    · exact ⟨onward, .ask reply reach⟩

/-- A dialogue that asks first reaches a value after the reply. -/
lemma ends_ask_iff {first : Query} {next : first.Reply → Dialogue α} {value : α} :
    (ask first next).Ends h value ↔
      ∃ reply rest, h = ⟨first, reply⟩ :: rest ∧ (next reply).Ends rest value := by
  constructor
  · intro reach
    cases reach with
    | ask reply rest => exact ⟨reply, _, rfl, rest⟩
  · rintro ⟨reply, rest, rfl, reach⟩
    exact .ask reply reach

/-- A single query is all that is asked. -/
@[simp]
lemma asks_query_iff {first : Query} : (query first).Asks h q ↔ h = [] ∧ first = q := by
  simp [query, asks_ask_iff]

/-- A single query ends with the reply to it. -/
@[simp]
lemma ends_query_iff {first : Query} {reply : first.Reply} :
    (query first).Ends h reply ↔ h = [⟨first, reply⟩] := by
  rw [query, ends_ask_iff]
  constructor
  · rintro ⟨reply, rest, rfl, ends⟩
    obtain ⟨rfl, rfl⟩ := ends_done_iff.mp ends
    rfl
  · rintro rfl
    exact ⟨reply, [], rfl, .here _⟩

/-! ### Dialogues in sequence -/

/-- A sequence reaches a value where its second part does, after an end of its first part. -/
lemma ends_bind_iff {d : Dialogue α} {next : α → Dialogue β} {value : β} :
    (d.bind next).Ends h value ↔
      ∃ past rest between, h = past ++ rest ∧ d.Ends past between ∧
        (next between).Ends rest value := by
  induction d generalizing h with
  | done between => simp
  | ask first reply ih =>
    simp only [bind_ask, ends_ask_iff, ih]
    constructor
    · rintro ⟨r, _, rfl, past, rest, between, rfl, ends, onward⟩
      exact ⟨_, rest, between, rfl, ⟨r, past, rfl, ends⟩, onward⟩
    · rintro ⟨_, rest, between, rfl, ⟨r, past, rfl, ends⟩, onward⟩
      exact ⟨r, _, rfl, past, rest, between, rfl, ends, onward⟩

/-- A sequence asks what its first part asks, and what its second part asks after an end of the
first. -/
lemma asks_bind_iff {d : Dialogue α} {next : α → Dialogue β} :
    (d.bind next).Asks h q ↔
      d.Asks h q ∨ ∃ past rest between, h = past ++ rest ∧ d.Ends past between ∧
        (next between).Asks rest q := by
  induction d generalizing h with
  | done between => simp
  | ask first reply ih =>
    simp only [bind_ask, asks_ask_iff, ends_ask_iff, ih]
    constructor
    · rintro (start | ⟨r, past, rfl, asks | ⟨past, rest, between, rfl, ends, onward⟩⟩)
      · exact .inl (.inl start)
      · exact .inl (.inr ⟨r, past, rfl, asks⟩)
      · exact .inr ⟨_, rest, between, rfl, ⟨r, past, rfl, ends⟩, onward⟩
    · rintro ((start | ⟨r, past, rfl, asks⟩) |
        ⟨_, rest, between, rfl, ⟨r, past, rfl, ends⟩, onward⟩)
      · exact .inl start
      · exact .inr ⟨r, past, rfl, .inl asks⟩
      · exact .inr ⟨r, _, rfl, .inr ⟨past, rest, between, rfl, ends, onward⟩⟩

/-- A value that is waited for is reached one turn later. -/
lemma ends_awaited_iff {d : Dialogue α} {value : α} :
    d.awaited.Ends h value ↔ ∃ past, h = past ++ [⟨.pause, ()⟩] ∧ d.Ends past value := by
  simp only [awaited, andThen, ends_bind_iff, ends_ask_iff, ends_done_iff]
  constructor
  · rintro ⟨past, _, _, rfl, ends, _, _, rfl, rfl, rfl⟩
    exact ⟨past, rfl, ends⟩
  · rintro ⟨past, rfl, ends⟩
    exact ⟨past, _, value, rfl, ends, (), [], rfl, rfl, rfl⟩

/-- Waiting for a value asks for nothing but a turn. -/
lemma asks_awaited_iff {d : Dialogue α} :
    d.awaited.Asks h q ↔ d.Asks h q ∨ q = .pause ∧ ∃ value, d.Ends h value := by
  simp only [awaited, andThen, asks_bind_iff, asks_ask_iff, not_asks_done, and_false, exists_false,
    or_false]
  refine or_congr_right ⟨?_, ?_⟩
  · rintro ⟨past, _, value, rfl, ends, rfl, rfl⟩
    exact ⟨rfl, value, by simpa using ends⟩
  · rintro ⟨rfl, value, ends⟩
    exact ⟨h, [], value, (List.append_nil h).symm, ends, rfl, rfl⟩

/-! ### What a dialogue ensures -/

/-- A dialogue ensures what holds of everything that it asks and of everything that it reaches. -/
lemma ensures_of_course {d : Dialogue α} {asks : History → Query → Prop}
    {ends : History → α → Prop} (asked : ∀ k q, d.Asks k q → asks (h ++ k) q)
    (ended : ∀ k value, d.Ends k value → ends (h ++ k) value) : d.Ensures asks ends h := by
  induction d generalizing h with
  | done value =>
    have now : ends (h ++ []) value := ended [] value (.here _)
    rwa [List.append_nil] at now
  | ask first next ih =>
    have now : asks (h ++ []) first := asked [] first ⟨next, .here _⟩
    rw [List.append_nil] at now
    refine ⟨now, fun reply => ih reply (fun k q later => ?_) fun k value later => ?_⟩
    · rw [List.append_assoc]
      exact asked _ q (asks_ask_iff.mpr (.inr ⟨reply, k, rfl, later⟩))
    · rw [List.append_assoc]
      exact ended _ value (.ask reply later)

end Dialogue

/-! ### Attempts -/

namespace Attempt

variable {α β : Type} {h : History} {q : Query} {a : Attempt α}

/-- An attempt that goes on after another one ends where the first one fails, or after a success of
the first. -/
lemma ends_next_iff {f : α → Attempt β} {result : Except Failure β} :
    (a.next f).Ends h result ↔
      (∃ failure, a.Ends h (.error failure) ∧ result = .error failure) ∨
        ∃ past rest between, h = past ++ rest ∧ a.Ends past (.ok between) ∧
          (f between).Ends rest result := by
  rw [next, Dialogue.ends_bind_iff]
  constructor
  · rintro ⟨past, rest, failure | between, rfl, ends, onward⟩
    · obtain ⟨rfl, rfl⟩ := Dialogue.ends_done_iff.mp onward
      exact .inl ⟨failure, by rwa [List.append_nil], rfl⟩
    · exact .inr ⟨past, rest, between, rfl, ends, onward⟩
  · rintro (⟨failure, ends, rfl⟩ | ⟨past, rest, between, rfl, ends, onward⟩)
    · exact ⟨h, [], .error failure, (List.append_nil h).symm, ends, .here _⟩
    · exact ⟨past, rest, .ok between, rfl, ends, onward⟩

/-- An attempt that goes on after another one succeeds after a success of the first. -/
lemma ends_next_ok_iff {f : α → Attempt β} {value : β} :
    (a.next f).Ends h (.ok value) ↔
      ∃ past rest between, h = past ++ rest ∧ a.Ends past (.ok between) ∧
        (f between).Ends rest (.ok value) := by
  rw [ends_next_iff]
  refine or_iff_right ?_
  rintro ⟨failure, -, eq⟩
  cases eq

/-- An attempt that goes on after another one asks what that one asks, and what it asks itself after
a success. -/
lemma asks_next_iff {f : α → Attempt β} :
    (a.next f).Asks h q ↔
      a.Asks h q ∨ ∃ past rest between, h = past ++ rest ∧ a.Ends past (.ok between) ∧
        (f between).Asks rest q := by
  rw [next, Dialogue.asks_bind_iff]
  refine or_congr_right ⟨?_, ?_⟩
  · rintro ⟨past, rest, failure | between, rfl, ends, onward⟩
    · exact absurd onward Dialogue.not_asks_done
    · exact ⟨past, rest, between, rfl, ends, onward⟩
  · rintro ⟨past, rest, between, rfl, ends, onward⟩
    exact ⟨past, rest, .ok between, rfl, ends, onward⟩

/-- The failures of an attempt do not matter for its successes. -/
@[simp]
lemma ends_mapFailure_ok_iff {f : Failure → Failure} {value : α} :
    (a.mapFailure f).Ends h (.ok value) ↔ a.Ends h (.ok value) := by
  rw [mapFailure, Dialogue.map, Dialogue.ends_bind_iff]
  constructor
  · rintro ⟨past, rest, failure | between, rfl, ends, onward⟩
    · cases (Dialogue.ends_done_iff.mp onward).2
    · obtain ⟨rfl, ⟨⟩⟩ := Dialogue.ends_done_iff.mp onward
      simpa using ends
  · intro ends
    exact ⟨h, [], .ok value, (List.append_nil h).symm, ends, .here _⟩

/-- What an attempt asks does not depend on what its failures are turned into. -/
@[simp]
lemma asks_mapFailure_iff {f : Failure → Failure} : (a.mapFailure f).Asks h q ↔ a.Asks h q := by
  rw [mapFailure, Dialogue.map, Dialogue.asks_bind_iff, or_iff_left]
  rintro ⟨past, rest, between, -, -, onward⟩
  exact Dialogue.not_asks_done onward

end Attempt

end PolicyWarden
