import PolicyWarden.Proofs.Json.Parts
import PolicyWarden.Schema.Check

/-!
# Accepted documents

What a check accepts is said by one equivalence for each way of building checks: a value built from
parts is accepted exactly if all its parts are.

No check of the library looks at the numbers inside a document except where the value of a check is
the part itself.  So a document whose numbers are mapped is accepted as the document was
(`Schema.Carries`), each check with a function that says what becomes of its value.
-/

namespace PolicyWarden

namespace Schema

variable {α β : Type}

namespace Checked

/-- A function of a check is accepted where the check is. -/
lemma map_eq_accepted_iff {f : α → β} {c : Checked α} {value : β} :
    c.map f = accepted value ↔ ∃ x, c = accepted x ∧ f x = value := by
  cases c <;> simp [map]

/-- A check that needs another one is accepted where both are. -/
lemma bind_eq_accepted_iff {c : Checked α} {next : α → Checked β} {value : β} :
    c.bind next = accepted value ↔ ∃ x, c = accepted x ∧ next x = accepted value := by
  cases c <;> simp [bind]

/-- A value with one more part is accepted where both are. -/
lemma apply_eq_accepted_iff {f : Checked (α → β)} {part : Checked α} {value : β} :
    f.apply part = accepted value ↔ ∃ g x, f = accepted g ∧ part = accepted x ∧ g x = value := by
  cases f <;> cases part <;> simp [apply]

/-- All checks are accepted where each of them is. -/
lemma all_eq_accepted_iff {checks : List (Checked α)} {values : List α} :
    all checks = accepted values ↔ checks = values.map accepted := by
  induction checks generalizing values with
  | nil => cases values <;> simp [all]
  | cons c checks ih =>
    rw [all, apply_eq_accepted_iff]
    cases values with
    | nil =>
      simp only [map_eq_accepted_iff, List.map_nil, reduceCtorEq, iff_false]
      rintro ⟨g, x, ⟨first, -, rfl⟩, -, absurd⟩
      cases absurd
    | cons value values =>
      simp only [map_eq_accepted_iff, ih, List.map_cons, List.cons.injEq]
      constructor
      · rintro ⟨g, x, ⟨first, accepted, rfl⟩, others, eq⟩
        obtain ⟨rfl, rfl⟩ := List.cons.inj eq
        exact ⟨accepted, others⟩
      · rintro ⟨first, others⟩
        exact ⟨List.cons value, values, ⟨value, first, rfl⟩, others, rfl⟩

end Checked

open Checked

/-! ### Accepted parts -/

variable {path : Path} {part : Option Json}

/-- A text is accepted as itself. -/
lemma text_eq_accepted_iff {t : Text} : text path part = accepted t ↔ part = some (.text t) := by
  unfold text
  split <;> simp_all [reject]

/-- An object is accepted as its members. -/
lemma record_eq_accepted_iff {members : Members} :
    record path part = accepted members ↔ part = some (.object members) := by
  unfold record
  split <;> simp_all [reject]

/-- An array is accepted as its items. -/
lemma list_eq_accepted_iff {items : List Json} :
    list path part = accepted items ↔ part = some (.array items) := by
  unfold list
  split <;> simp_all [reject]

/-- One of a few texts is accepted as what it stands for. -/
lemma oneOf_eq_accepted_iff {choices : List (Text × α)} {value : α} :
    oneOf choices path part = accepted value ↔
      ∃ t, part = some (.text t) ∧
        (choices.find? fun choice => choice.1 = t).map Prod.snd = some value := by
  unfold oneOf
  split
  · next t =>
    cases found : choices.find? fun choice => choice.1 = t <;>
      simp [-Option.map_eq_some_iff, reject, found]
  · next shape => simp_all [reject]

/-- A part that may be missing is checked like any other where it is there. -/
lemma optional_some (check : Path → Option Json → Checked α) (path : Path) (v : Json) :
    optional check path (some v) = (check path (some v)).map some :=
  rfl

/-- A part that may be missing is accepted if it is missing or accepted. -/
lemma optional_eq_accepted_iff {check : Path → Option Json → Checked α} {value : Option α} :
    optional check path part = accepted value ↔
      part = none ∧ value = none ∨
        ∃ v x, part = some v ∧ check path (some v) = accepted x ∧ value = some x := by
  cases part with
  | none => simp [optional, eq_comm]
  | some v =>
    rw [optional, map_eq_accepted_iff]
    · constructor
      · rintro ⟨x, accepted, rfl⟩
        exact .inr ⟨v, x, rfl, accepted, rfl⟩
      · rintro (⟨missing, -⟩ | ⟨w, x, same, accepted, rfl⟩)
        · cases missing
        · obtain rfl := Option.some.inj same
          exact ⟨x, accepted, rfl⟩
    · exact nofun

/-! ### Acceptance as such -/

/-- The check accepts, whatever its value is. -/
def Checked.IsAccepted (c : Checked α) : Prop :=
  ∃ value, c = accepted value

namespace Checked

@[simp]
lemma isAccepted_map_iff {f : α → β} {c : Checked α} : (c.map f).IsAccepted ↔ c.IsAccepted := by
  cases c <;> simp [IsAccepted, map]

@[simp]
lemma isAccepted_apply_iff {f : Checked (α → β)} {part : Checked α} :
    (f.apply part).IsAccepted ↔ f.IsAccepted ∧ part.IsAccepted := by
  cases f <;> cases part <;> simp [IsAccepted, apply]

@[simp]
lemma isAccepted_bind_iff {c : Checked α} {next : α → Checked β} :
    (c.bind next).IsAccepted ↔ ∃ value, c = accepted value ∧ (next value).IsAccepted := by
  cases c <;> simp [IsAccepted, bind]

/-- All checks accept if each of them does. -/
lemma isAccepted_all_iff {checks : List (Checked α)} :
    (all checks).IsAccepted ↔ ∀ c ∈ checks, c.IsAccepted := by
  induction checks with
  | nil => simp [IsAccepted, all]
  | cons c checks ih => simp [all, ih]

end Checked

/-- A text is accepted. -/
lemma isAccepted_text_iff : (text path part).IsAccepted ↔ ∃ t, part = some (.text t) :=
  exists_congr fun _ => text_eq_accepted_iff

/-- A part that may be missing is accepted if it is accepted where it is there. -/
lemma isAccepted_optional_iff {check : Path → Option Json → Checked α} :
    (optional check path part).IsAccepted ↔
      ∀ v, part = some v → (check path (some v)).IsAccepted := by
  cases part with
  | none => simp [optional, IsAccepted]
  | some v => simp [optional]

/-- An object is accepted as a record if each of its values is accepted. -/
lemma isAccepted_recordOf_iff {value : Path → Option Json → Checked α} :
    (recordOf value path part).IsAccepted ↔
      ∃ members, part = some (.object members) ∧
        ∀ member ∈ members, (value (path.member member.1) (some member.2)).IsAccepted := by
  simp only [recordOf, isAccepted_bind_iff, record_eq_accepted_iff, isAccepted_map_iff,
    isAccepted_all_iff, List.forall_mem_map]
  refine exists_congr fun members => and_congr_right fun _ => ?_
  exact forall_congr' fun member => by rw [(Json.inWalkOrder_perm members).mem_iff]

/-! ### Mapped numbers -/

variable {f : Number → Json} {h : α → α} {check : Path → Option Json → Checked α}

/-- A check accepts a part with mapped numbers where it accepts the part, and `h` says with which
value. -/
def Carries (f : Number → Json) (h : α → α) (check : Path → Option Json → Checked α) : Prop :=
  ∀ path part value, check path part = .accepted value →
    check path (part.map (Json.mapNumbers f)) = .accepted (h value)

/-- A text has no numbers. -/
lemma carries_text : Carries f id text := by
  intro path part t accepted
  rw [text_eq_accepted_iff] at accepted ⊢
  rw [accepted]
  rfl

/-- One of a few texts has no numbers. -/
lemma carries_oneOf (choices : List (Text × α)) : Carries f id (oneOf choices) := by
  intro path part value accepted
  rw [oneOf_eq_accepted_iff] at accepted ⊢
  obtain ⟨t, rfl, found⟩ := accepted
  exact ⟨t, rfl, found⟩

/-- A part that may be missing is carried like the part. -/
lemma Carries.optional (carries : Carries f h check) :
    Carries f (Option.map h) (optional check) := by
  intro path part value accepted
  rw [optional_eq_accepted_iff] at accepted ⊢
  obtain ⟨rfl, rfl⟩ | ⟨v, x, rfl, inner, rfl⟩ := accepted
  · exact .inl ⟨rfl, rfl⟩
  · exact .inr ⟨_, h x, rfl, carries path (some v) x inner, rfl⟩

/-- A record is carried like its values, and its order with it. -/
lemma Carries.recordOf (carries : Carries f h check) :
    Carries f (List.map fun entry => (entry.1, h entry.2)) (recordOf check) := by
  intro path part values accepted
  simp only [Schema.recordOf, bind_eq_accepted_iff, record_eq_accepted_iff, map_eq_accepted_iff,
    all_eq_accepted_iff] at accepted ⊢
  obtain ⟨members, rfl, walked, each, rfl⟩ := accepted
  refine ⟨Json.mapMembers f members, rfl, walked.map fun entry => (entry.1, h entry.2), ?_, ?_⟩
  · rw [Json.inWalkOrder_mapMembers, Json.mapMembers_eq_map, List.map_map]
    generalize Json.inWalkOrder members = walk at each ⊢
    induction walk generalizing walked with
    | nil =>
      cases walked with
      | nil => rfl
      | cons => cases each
    | cons member walk ih =>
      cases walked with
      | nil => cases each
      | cons entry walked =>
        rw [List.map_cons, List.map_cons, List.cons.injEq] at each
        obtain ⟨x, inner, rfl⟩ := map_eq_accepted_iff.mp each.1
        have outer := carries _ _ _ inner
        rw [Option.map_some] at outer
        rw [List.map_cons, List.map_cons, List.map_cons, ih walked each.2]
        simp only [Function.comp_apply, outer, map]
  · rw [List.filter_map]
    rfl

end Schema

end PolicyWarden
