import PolicyWarden.Proofs.Schema.Check

/-!
# Places of issues

A rejected document comes with the issues of all its parts, in the order of the parts.  Which places
a list of issues is about is said by `Schema.Names`: one place after another, each with a run of
issues of its own.  Checks are put together from checks of parts, and the places of the whole are
those of the parts in order (`Schema.Names.append`, `Schema.names_all`).

The places at which a list of texts breaks a rule can be told without a check: they are the
positions of the items that are no texts of the wanted kind (`Schema.offences`).
-/

namespace PolicyWarden

/-- The value is a text with a property. -/
def Json.IsTextWith (fits : Text → Prop) : Json → Prop
  | .text t => fits t
  | _ => False

instance Json.decidableIsTextWith (fits : Text → Prop) [DecidablePred fits] :
    DecidablePred (Json.IsTextWith fits)
  | .text t => inferInstanceAs (Decidable (fits t))
  | .null | .bool _ | .number _ | .array _ | .object _ => isFalse id

/-- A value is a text with a property exactly if it is one of these texts. -/
lemma Json.isTextWith_iff {fits : Text → Prop} {v : Json} :
    v.IsTextWith fits ↔ ∃ t, v = .text t ∧ fits t := by
  cases v <;> simp [IsTextWith]

/-- Values that are texts with a property are a list of such texts. -/
lemma Json.forall_isTextWith_iff {fits : Text → Prop} {items : List Json} :
    (∀ item ∈ items, item.IsTextWith fits) ↔
      ∃ texts : List Text, items = texts.map .text ∧ ∀ t ∈ texts, fits t := by
  constructor
  · intro each
    induction items with
    | nil => exact ⟨[], rfl, nofun⟩
    | cons item items ih =>
      obtain ⟨t, rfl, fit⟩ := isTextWith_iff.mp (each item List.mem_cons_self)
      obtain ⟨texts, rfl, fits⟩ := ih fun item mem => each item (List.mem_cons_of_mem _ mem)
      exact ⟨t :: texts, rfl, List.forall_mem_cons.mpr ⟨fit, fits⟩⟩
  · rintro ⟨texts, rfl, each⟩ item mem
    obtain ⟨t, there, rfl⟩ := List.mem_map.mp mem
    exact each t there

namespace Schema

variable {α β ι : Type}

/-! ### Issues of a check -/

namespace Checked

/-- A function of a check has the issues of the check. -/
@[simp]
lemma issues_map (f : α → β) (c : Checked α) : (c.map f).issues = c.issues := by
  cases c <;> rfl

/-- A value with one more part has the issues of both. -/
@[simp]
lemma issues_apply (f : Checked (α → β)) (part : Checked α) :
    (f.apply part).issues = f.issues ++ part.issues := by
  cases f <;> cases part <;> rfl

/-- Several checks have the issues of all of them. -/
lemma issues_all (checks : List (Checked α)) : (all checks).issues = checks.flatMap issues := by
  induction checks with
  | nil => rfl
  | cons c checks ih => rw [all, issues_apply, issues_map, ih, List.flatMap_cons]

/-- A check that does not accept rejects with its issues. -/
lemma eq_rejected_issues {c : Checked α} (refused : ¬ c.IsAccepted) : c = rejected c.issues := by
  cases c with
  | accepted value => exact absurd ⟨value, rfl⟩ refused
  | rejected issues => rfl

end Checked

/-! ### The places that issues name -/

/-- The issues are about the places, one after another: each of them has a run of its own. -/
inductive Names : List Issue → List Path → Prop
  /-- No issue is about no place. -/
  | nowhere : Names [] []
  /-- A run of issues is about one place, and the others are about the others. -/
  | run {place : Path} {defects : List Defect} {issues : List Issue} {places : List Path}
      (faulty : defects ≠ []) (others : Names issues places) :
      Names (defects.map (Issue.mk place) ++ issues) (place :: places)

namespace Names

variable {issues more : List Issue} {places others : List Path} {place : Path}

/-- Defects of one place are about that place. -/
lemma of_defects {defects : List Defect} (faulty : defects ≠ []) :
    Names (defects.map (Issue.mk place)) [place] := by
  have alone : Names (defects.map (Issue.mk place) ++ []) [place] := run faulty nowhere
  rwa [List.append_nil] at alone

/-- One issue is about its place. -/
lemma single (place : Path) (defect : Defect) : Names [⟨place, defect⟩] [place] :=
  of_defects (List.cons_ne_nil defect [])

/-- Issues behind one another are about their places behind one another. -/
lemma append (first : Names issues places) (second : Names more others) :
    Names (issues ++ more) (places ++ others) := by
  induction first with
  | nowhere => exact second
  | run faulty _ ih =>
    rw [List.append_assoc]
    exact run faulty ih

/-- Each place that is named has an issue. -/
lemma exists_defect (names : Names issues places) (mem : place ∈ places) :
    ∃ defect, ⟨place, defect⟩ ∈ issues := by
  induction names with
  | nowhere => cases mem
  | @run other defects issues places faulty _ ih =>
    rcases List.mem_cons.mp mem with rfl | later
    · obtain ⟨defect, rest, rfl⟩ := List.exists_cons_of_ne_nil faulty
      exact ⟨defect, List.mem_append_left _ List.mem_cons_self⟩
    · obtain ⟨defect, there⟩ := ih later
      exact ⟨defect, List.mem_append_right _ there⟩

end Names

/-- Several checks have issues about the places of those that find a fault, in their order. -/
lemma names_all {entries : List ι} {check : ι → Checked α} {place : ι → Path} {good : ι → Prop}
    [DecidablePred good] (accepts : ∀ e, good e → (check e).issues = [])
    (rejects : ∀ e, ¬ good e → Names (check e).issues [place e]) :
    Names (Checked.all (entries.map check)).issues
      ((entries.filter fun e => ¬ good e).map place) := by
  rw [Checked.issues_all, List.flatMap_map]
  induction entries with
  | nil => exact .nowhere
  | cons e entries ih =>
    rw [List.flatMap_cons]
    by_cases fine : good e
    · rw [accepts e fine, List.nil_append, List.filter_cons_of_neg (by simpa using fine)]
      exact ih
    · rw [List.filter_cons_of_pos (by simpa using fine), List.map_cons]
      exact (rejects e fine).append ih

/-! ### Lists of texts -/

/-- The places at which a list of texts breaks a rule: the positions of the items that are no texts
of the wanted kind, in ascending order.  What is no list breaks the rule at its own place, and what
is missing breaks none. -/
def offences (fits : Text → Prop) [DecidablePred fits] (path : Path) : Option Json → List Path
  | none => []
  | some (.array items) =>
      (items.zipIdx.filter fun entry => ¬ entry.1.IsTextWith fits).map fun entry =>
        path.item entry.2
  | some _ => [path]

/-- A list of texts breaks no rule exactly if it is missing or all its items are texts of the wanted
kind. -/
lemma offences_eq_nil_iff {fits : Text → Prop} [DecidablePred fits] {path : Path}
    {part : Option Json} :
    offences fits path part = [] ↔
      ∀ v, part = some v → ∃ items, v = .array items ∧ ∀ item ∈ items, item.IsTextWith fits := by
  cases part with
  | none => simp [offences]
  | some v =>
    cases v with
    | array items =>
      have each : (∀ entry ∈ items.zipIdx, entry.1.IsTextWith fits) ↔
          ∀ item ∈ items, item.IsTextWith fits := by
        rw [← List.forall_mem_map, List.zipIdx_map_fst]
      simp only [offences, List.map_eq_nil_iff, List.filter_eq_nil_iff, decide_not,
        Bool.not_eq_true', decide_eq_false_iff_not, not_not, each]
      simp
    | _ => simp [offences]

end Schema

end PolicyWarden
