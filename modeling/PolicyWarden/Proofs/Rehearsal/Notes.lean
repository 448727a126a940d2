import Mathlib.Tactic.Common
import PolicyWarden.Proofs.Dialogue.History
import PolicyWarden.Proofs.Rehearsal.Desk

/-!
# What the journal keeps

The journal of a world is shared by everyone in it, and so are the values that it keeps beside its
entries.  Only retaining and releasing change these values, whoever asks for it, and an entry is
written with the values of that moment (`notes_answer`).  So the values that are kept after some
exchanges depend on the exchanges alone (`History.onKeys`).
-/

namespace PolicyWarden

/-- The values that the journal keeps beside each entry. -/
abbrev Keys := List (JournalKey × Json)

namespace Keys

variable {keys : Keys} {key other : JournalKey} {value : Json}

/-- The value that is kept under a key. -/
def value? (keys : Keys) (key : JournalKey) : Option Json :=
  (keys.find? fun kept => kept.1 = key).map (·.2)

/-- Keep a value in place of the one before. -/
def retain (keys : Keys) (key : JournalKey) (value : Json) : Keys :=
  keys.filter (fun kept => kept.1 ≠ key) ++ [(key, value)]

/-- Keep the values of some keys no longer. -/
def release (keys : Keys) (released : List JournalKey) : Keys :=
  keys.filter fun kept => !released.contains kept.1

/-- A value is kept from when it was retained. -/
@[simp]
lemma value?_retain_self : (keys.retain key value).value? key = some value := by
  have gone : (keys.filter fun kept => kept.1 ≠ key).find? (fun kept => kept.1 = key) = none := by
    rw [List.find?_eq_none]
    intro kept mem
    simpa using (List.mem_filter.mp mem).2
  rw [value?, retain, List.find?_append, gone, Option.none_or, List.find?_singleton]
  simp

/-- Retaining a value leaves the value of another key alone. -/
lemma value?_retain_of_ne (ne : other ≠ key) :
    (keys.retain key value).value? other = keys.value? other := by
  have same : (keys.filter fun kept => kept.1 ≠ key).find? (fun kept => kept.1 = other) =
      keys.find? fun kept => kept.1 = other := by
    rw [List.find?_filter]
    congr 1
    funext kept
    by_cases eq : kept.1 = other <;> simp [eq, ne]
  rw [value?, retain, List.find?_append, same, List.find?_singleton]
  simp [ne.symm, value?]

/-- No value is kept under a key that was released. -/
lemma value?_release_of_mem {released : List JournalKey} (mem : key ∈ released) :
    (keys.release released).value? key = none := by
  have gone : (keys.release released).find? (fun kept => kept.1 = key) = none := by
    rw [List.find?_eq_none]
    intro kept left same
    obtain rfl : kept.1 = key := of_decide_eq_true same
    have unreleased := (List.mem_filter.mp left).2
    simp [mem] at unreleased
  rw [value?, gone]
  rfl

end Keys

/-! ### Queries and histories -/

/-- The query changes the values that the journal keeps. -/
def Query.isKeeping : Query → Bool
  | .retain _ _ | .release _ => true
  | _ => false

/-- What a query makes of the values that the journal keeps. -/
def Query.onKeys : Query → Keys → Keys
  | .retain key value, keys => keys.retain key value
  | .release released, keys => keys.release released
  | _, keys => keys

/-- Most queries leave the values alone that the journal keeps. -/
lemma Query.onKeys_of_not_isKeeping {query : Query} (other : query.isKeeping = false)
    (keys : Keys) : query.onKeys keys = keys := by
  cases query with
  | retain _ _ | release _ => cases other
  | _ => rfl

/-- What the exchanges of a history make of the values that the journal keeps. -/
def History.onKeys (h : History) (keys : Keys) : Keys :=
  h.foldl (fun keys exchange => exchange.query.onKeys keys) keys

@[simp]
lemma History.onKeys_concat (h : History) (exchange : Exchange) (keys : Keys) :
    History.onKeys (h ++ [exchange]) keys = exchange.query.onKeys (h.onKeys keys) := by
  simp [History.onKeys]

namespace Rehearsal

namespace World

variable {w : World} {run : Run}

/-- The values that the journal keeps, and its entries so far. -/
def notes (w : World) : Keys × List Record :=
  (w.keys, w.journal)

/-- The entries that are written while a query is answered. -/
def entriesOf (w : World) : Query → List Entry
  | .record entry => [entry]
  | .configuration => (w.library.load w.environment none).entries
  | _ => []

/-! ### Nobody else takes notes -/

/-- Whatever happens by itself is not noted. -/
@[simp]
lemma notes_act (action : Action) : (w.act action).notes = w.notes := by
  cases action with
  | advance millis =>
    obtain ⟨waiting, awake, later⟩ := w.exists_advance millis
    rw [act, later]
    rfl
  | abort reason =>
    obtain ⟨timeline, waiting, awake, aborted⟩ := w.exists_abortNewest (abortReason reason)
    rw [act, aborted]
    rfl
  | _ => rfl

@[simp]
lemma notes_actAll (actions : List Action) : (w.actAll actions).notes = w.notes := by
  induction actions generalizing w with
  | nil => rfl
  | cons action actions ih => exact ih.trans (notes_act action)

@[simp]
lemma notes_perform {α : Type} (script : Option (Script α)) :
    (w.perform run script).world.notes = w.notes := by
  cases script with
  | none => rfl
  | some script => exact notes_actAll script.during

@[simp]
lemma notes_deskPolicy (resource : Text) : (w.deskPolicy run resource).1.notes = w.notes := by
  rcases deskPolicy_cases w run resource with ⟨failure, -, eq⟩ | ⟨-, eq⟩ <;> rw [eq]
  · rfl
  · exact notes_actAll _

@[simp]
lemma notes_deskWrite (resource : Text) (policy : Policy) (version : Text) :
    (w.deskWrite run resource policy version).1.notes = w.notes := by
  have checked (write : RecordedWrite) : (w.atCheck write).notes = w.notes := notes_actAll _
  rcases deskWrite_cases w run resource policy version with
    ⟨failure, -, eq⟩ | ⟨-, ⟨-, eq⟩ | ⟨-, eq⟩⟩ <;> rw [eq]
  · rfl
  · exact checked _
  · exact checked _

@[simp]
lemma notes_runErrand : (w.runErrand run).world.notes = w.notes := by
  have performed : (w.perform run run.errand).world.notes = w.notes := notes_perform _
  unfold runErrand
  dsimp only
  split <;> exact performed

@[simp]
lemma notes_invoke (timeout : Number) : (w.invoke timeout).1.notes = w.notes := by
  unfold invoke
  split <;> rfl

/-- Each query is noted in its own way: its entries are written with the values that are kept at
that moment, and then it may change these values. -/
theorem notes_answer (query : Query) :
    (w.answer run query).world.notes =
      (query.onKeys w.keys, w.journal ++ (w.entriesOf query).map fun entry => ⟨entry, w.keys⟩) := by
  have unnoted {v : World} (same : v.notes = w.notes) :
      v.notes = (w.keys, w.journal ++ [].map fun entry => ⟨entry, w.keys⟩) := by
    rw [same, List.map_nil, List.append_nil]
    rfl
  cases query with
  | record entry => rfl
  | configuration => rfl
  | retain key value => exact congrArg (Prod.mk _) (List.append_nil _).symm
  | release keys => exact congrArg (Prod.mk _) (List.append_nil _).symm
  | policy resource => exact unnoted (notes_deskPolicy resource)
  | write resource policy version => exact unnoted (notes_deskWrite resource policy version)
  | organization id =>
    refine unnoted ?_
    show (w.deskOrganization run id).1.notes = w.notes
    rw [deskOrganization_fst]
    rfl
  | call call timeout =>
    have served (service : ServiceDesk) {α : Type} (script : Option (Script α)) :
        ({ w.noteCall call timeout with service := service }.perform run script).world.notes =
          w.notes := notes_perform (w := { w.noteCall call timeout with service := service }) script
    cases call with
    | organization name => exact unnoted (served _ _)
    | policy resource version => exact unnoted (served _ _)
    | write request => exact unnoted (served _ _)
  | errand timeout => exact unnoted notes_runErrand
  | invoke timeout => exact unnoted (notes_invoke timeout)
  | settings | standing | pause => exact unnoted rfl

end World

end Rehearsal

end PolicyWarden
