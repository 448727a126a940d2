import Mathlib.Data.Nat.Find
import PolicyWarden.Proofs.Configuration.Acceptance
import PolicyWarden.Proofs.Organization

/-!
# The organization that a path names

An organization is named in a path by `organizations/` and digits, where the one stands at the start
of a segment and the other at the end of a segment (`Organization.Occurs`).  The search in a path
finds the leftmost of these occurrences (`Organization.scan?_eq_some_iff`), and that is the same as
the first segment `organizations` with a segment of digits behind it
(`Organization.idAmong?_eq_some_iff`).

An id that was found makes the name of an organization, which can be listed in a configuration, and
in that name the id is found again.
-/

namespace PolicyWarden

namespace Organization

/-! ### Occurrences -/

/-- An id occurs in a text behind `before`: announced at the start of a segment, made of digits, and
followed by a slash or by nothing.  The text itself starts a segment if it is at a boundary. -/
structure Occurs (atBoundary : Bool) (t before id after : Text) : Prop where
  eq : t = before ++ (nameStart ++ (id ++ after))
  opens : before = [] ∧ atBoundary = true ∨ before.getLast? = some slash
  digits : Text.isDigits id = true
  closes : after = [] ∨ after.head? = some slash

/-- An id occurs in a text, and none occurs further to the left. -/
def OccursFirst (atBoundary : Bool) (t id : Text) : Prop :=
  ∃ before after, Occurs atBoundary t before id after ∧
    ∀ before' id' after', Occurs atBoundary t before' id' after' → before.length ≤ before'.length

section Occurrences

variable {atBoundary : Bool} {u : CodeUnit} {t before id after : Text}

/-- No slash is among digits. -/
lemma slash_not_mem_of_isDigits (digits : Text.isDigits id = true) : slash ∉ id := by
  intro mem
  rw [Text.isDigits, Bool.and_eq_true, List.all_eq_true] at digits
  exact absurd (digits.2 slash mem) (by decide)

/-- Digits at the start of a text are an id if a slash or nothing follows them. -/
lemma digitSegment?_eq_some_iff :
    digitSegment? t = some id ↔
      Text.isDigits id = true ∧
        ∃ after, t = id ++ after ∧ (after = [] ∨ after.head? = some slash) := by
  rw [digitSegment?_eq]
  constructor
  · intro found
    split_ifs at found with digits
    obtain rfl := Option.some.inj found
    refine ⟨digits, t.dropWhile fun u => u ≠ slash, List.takeWhile_append_dropWhile.symm, ?_⟩
    cases rest : t.dropWhile fun u => u ≠ slash with
    | nil => exact .inl rfl
    | cons v rest =>
      have stops := List.head?_dropWhile_not (fun u => decide (u ≠ slash)) t
      rw [rest] at stops
      exact .inr (by simpa using stops)
  · rintro ⟨digits, after, rfl, closes⟩
    have free := slash_not_mem_of_isDigits digits
    have first : (id ++ after).takeWhile (fun u => u ≠ slash) = id := by
      rw [List.takeWhile_append_of_pos fun u mem => by
        rw [decide_eq_true_eq]
        rintro rfl
        exact free mem]
      rcases closes with rfl | head
      · exact List.append_nil id
      · obtain ⟨rest, rfl⟩ := List.head?_eq_some_iff.mp head
        simp
    rw [first, if_pos digits]

/-- An id stands at the start of a text exactly if it occurs there behind nothing. -/
lemma idAtStart?_eq_some_iff : idAtStart? t = some id ↔ ∃ after, Occurs true t [] id after := by
  rw [idAtStart?, Option.bind_eq_some_iff]
  simp only [Text.dropStart?_eq_some_iff, digitSegment?_eq_some_iff]
  constructor
  · rintro ⟨rest, rfl, digits, after, rfl, closes⟩
    exact ⟨after, rfl, .inl ⟨rfl, rfl⟩, digits, closes⟩
  · rintro ⟨after, occurs⟩
    exact ⟨_, occurs.eq, occurs.digits, after, rfl, occurs.closes⟩

/-- What occurs behind nothing occurs at a boundary. -/
lemma occurs_nil_iff :
    Occurs atBoundary t [] id after ↔ atBoundary = true ∧ Occurs true t [] id after := by
  constructor
  · intro occurs
    rcases occurs.opens with ⟨-, boundary⟩ | last
    · exact ⟨boundary, occurs.eq, .inl ⟨rfl, rfl⟩, occurs.digits, occurs.closes⟩
    · cases last
  · rintro ⟨rfl, occurs⟩
    exact occurs

/-- What occurs behind a first unit occurs in the rest, which starts a segment if that unit is a
slash. -/
lemma occurs_cons_iff :
    Occurs atBoundary (u :: t) (u :: before) id after ↔ Occurs (u == slash) t before id after := by
  have opens : (u :: before).getLast? = some slash ↔
      before = [] ∧ (u == slash) = true ∨ before.getLast? = some slash := by
    cases before with
    | nil => simp
    | cons v before => simp [List.getLast?_cons_cons]
  constructor
  · intro occurs
    refine ⟨(List.cons.inj occurs.eq).2, ?_, occurs.digits, occurs.closes⟩
    rcases occurs.opens with ⟨none, -⟩ | last
    · cases none
    · exact opens.mp last
  · intro occurs
    exact ⟨congrArg (List.cons u) occurs.eq, .inr (opens.mpr occurs.opens), occurs.digits,
      occurs.closes⟩

/-- Nothing occurs in an empty text. -/
lemma not_occurs_nil : ¬ Occurs atBoundary [] before id after := by
  intro occurs
  have long := congrArg List.length occurs.eq
  have start : nameStart.length = 14 := by decide
  simp only [List.length_nil, List.length_append, start] at long
  omega

/-- The search finds the leftmost occurrence. -/
lemma scan?_eq_some_iff : scan? atBoundary t = some id ↔ OccursFirst atBoundary t id := by
  induction t generalizing atBoundary with
  | nil =>
    constructor
    · intro found
      cases found
    · rintro ⟨before, after, occurs, -⟩
      exact absurd occurs not_occurs_nil
  | cons u t ih =>
    rw [scan?]
    by_cases here : ∃ first after, Occurs atBoundary (u :: t) [] first after
    · -- What occurs at the very start is the leftmost occurrence, and the search stops there.
      obtain ⟨first, after, occurs⟩ := here
      obtain ⟨rfl, atStart⟩ := occurs_nil_iff.mp occurs
      have stops : idAtStart? (u :: t) = some first := idAtStart?_eq_some_iff.mpr ⟨after, atStart⟩
      rw [if_pos rfl, stops]
      constructor
      · intro found
        obtain rfl := Option.some.inj found
        exact ⟨[], after, occurs, fun _ _ _ _ => Nat.zero_le _⟩
      · rintro ⟨before, after', other, leftmost⟩
        obtain rfl := List.eq_nil_of_length_eq_zero (Nat.le_zero.mp (leftmost _ _ _ occurs))
        have again : idAtStart? (u :: t) = some id := idAtStart?_eq_some_iff.mpr ⟨after', other⟩
        exact stops.symm.trans again
    · -- Every occurrence is one in the rest, and the search goes on there.
      have passes : (if atBoundary then idAtStart? (u :: t) else none) = none := by
        split_ifs with boundary
        · rw [Option.eq_none_iff_forall_ne_some]
          intro first found
          obtain ⟨after, occurs⟩ := idAtStart?_eq_some_iff.mp found
          exact here ⟨first, after, occurs_nil_iff.mpr ⟨boundary, occurs⟩⟩
        · rfl
      have later : ∀ before first after, Occurs atBoundary (u :: t) before first after →
          ∃ rest, before = u :: rest := by
        intro before first after occurs
        cases before with
        | nil => exact absurd ⟨first, after, occurs⟩ here
        | cons v rest =>
          obtain ⟨rfl, -⟩ := List.cons.inj occurs.eq
          exact ⟨rest, rfl⟩
      rw [passes, ih]
      constructor
      · rintro ⟨before, after, occurs, leftmost⟩
        refine ⟨u :: before, after, occurs_cons_iff.mpr occurs, fun before' id' after' other => ?_⟩
        obtain ⟨rest, rfl⟩ := later _ _ _ other
        exact Nat.succ_le_succ (leftmost _ _ _ (occurs_cons_iff.mp other))
      · rintro ⟨before, after, occurs, leftmost⟩
        obtain ⟨rest, rfl⟩ := later _ _ _ occurs
        refine ⟨rest, after, occurs_cons_iff.mp occurs, fun before' id' after' other => ?_⟩
        exact Nat.le_of_succ_le_succ (leftmost _ _ _ (occurs_cons_iff.mpr other))

end Occurrences

/-! ### Positions -/

/-- At a position among segments stands `organizations`, and behind it an id of digits. -/
structure NamedAt (parts : List Text) (position : Nat) (id : Text) : Prop where
  announced : parts[position]? = some announcement
  behind : parts[position + 1]? = some id
  digits : Text.isDigits id = true

/-- An id is named at a position among segments, and none is named before. -/
def NamedFirst (parts : List Text) (id : Text) : Prop :=
  ∃ position, NamedAt parts position id ∧
    ∀ earlier < position, ∀ other, ¬ NamedAt parts earlier other

section Positions

variable {first id : Text} {parts : List Text} {position : Nat}

/-- Behind a first segment the positions are those among the others. -/
lemma namedAt_cons_iff :
    NamedAt (first :: parts) (position + 1) id ↔ NamedAt parts position id :=
  ⟨fun named => ⟨named.announced, named.behind, named.digits⟩,
    fun named => ⟨named.announced, named.behind, named.digits⟩⟩

/-- At the first position the first two segments name the id. -/
lemma namedAt_zero_iff :
    NamedAt (first :: parts) 0 id ↔
      first = announcement ∧ parts.head? = some id ∧ Text.isDigits id = true := by
  constructor
  · intro named
    refine ⟨Option.some.inj named.announced, ?_, named.digits⟩
    rw [List.head?_eq_getElem?]
    exact named.behind
  · rintro ⟨rfl, behind, digits⟩
    rw [List.head?_eq_getElem?] at behind
    exact ⟨rfl, behind, digits⟩

/-- The search among segments finds the id that is named first. -/
lemma idAmong?_eq_some_iff : idAmong? parts = some id ↔ NamedFirst parts id := by
  induction parts with
  | nil =>
    constructor
    · intro found
      cases found
    · rintro ⟨position, named, -⟩
      cases named.announced
  | cons first parts ih =>
    by_cases here : ∃ other, NamedAt (first :: parts) 0 other
    · obtain ⟨other, named⟩ := here
      obtain ⟨rfl, behind, digits⟩ := namedAt_zero_iff.mp named
      obtain ⟨others, rfl⟩ := List.head?_eq_some_iff.mp behind
      rw [idAmong?, if_pos ⟨rfl, digits⟩]
      constructor
      · intro found
        obtain rfl := Option.some.inj found
        exact ⟨0, named, fun earlier before => absurd before (Nat.not_lt_zero _)⟩
      · rintro ⟨position, again, none⟩
        cases position with
        | zero => exact named.behind.symm.trans again.behind
        | succ position => exact absurd named (none 0 (Nat.succ_pos _) other)
    · have passes : idAmong? (first :: parts) = idAmong? parts := by
        cases parts with
        | nil => rfl
        | cons second others =>
          rw [idAmong?, if_neg]
          rintro ⟨announced, digits⟩
          exact here ⟨second, namedAt_zero_iff.mpr ⟨announced, rfl, digits⟩⟩
      rw [passes, ih]
      constructor
      · rintro ⟨position, named, none⟩
        refine ⟨position + 1, namedAt_cons_iff.mpr named, fun earlier before other again => ?_⟩
        cases earlier with
        | zero => exact here ⟨other, again⟩
        | succ earlier =>
          exact none earlier (Nat.lt_of_succ_lt_succ before) other (namedAt_cons_iff.mp again)
      · rintro ⟨position, named, none⟩
        cases position with
        | zero => exact absurd ⟨id, named⟩ here
        | succ position =>
          refine ⟨position, namedAt_cons_iff.mp named, fun earlier before other again => ?_⟩
          exact none (earlier + 1) (Nat.succ_lt_succ before) other (namedAt_cons_iff.mpr again)

/-- The search among segments finds nothing exactly if no id is named. -/
lemma idAmong?_eq_none_iff :
    idAmong? parts = none ↔ ∀ position id, ¬ NamedAt parts position id := by
  constructor
  · intro missing position id named
    classical
    have some : ∃ position, ∃ id, NamedAt parts position id := ⟨position, id, named⟩
    obtain ⟨first, there⟩ := Nat.find_spec some
    have found : idAmong? parts = .some first := by
      refine idAmong?_eq_some_iff.mpr ⟨Nat.find some, there, fun earlier before other again => ?_⟩
      exact Nat.find_min some before ⟨other, again⟩
    rw [missing] at found
    cases found
  · intro none
    rw [Option.eq_none_iff_forall_ne_some]
    intro id found
    obtain ⟨position, named, -⟩ := idAmong?_eq_some_iff.mp found
    exact none position id named

end Positions

/-! ### Names -/

/-- In the name of an organization its id is found. -/
lemma idOfPath?_resourceName {id : Text} (digits : Text.isDigits id = true) :
    idOfPath? (resourceName id) = some id := by
  have whole : Occurs true (resourceName id) [] id [] :=
    ⟨by rw [List.append_nil]; rfl, .inl ⟨rfl, rfl⟩, digits, .inl rfl⟩
  exact scan?_eq_some_iff.mpr ⟨[], [], whole, fun _ _ _ _ => Nat.zero_le _⟩

end Organization

/-- A configuration in which one more resource is listed. -/
def Configuration.listing (c : Configuration) (resource : Text) : Configuration :=
  { c with resources := some (resource :: c.resources.getD []) }

/-- A valid configuration stays valid if an organization is listed in it. -/
lemma Configuration.IsValid.listing {c : Configuration} (valid : c.IsValid) {resource : Text}
    (name : Organization.IsName resource) : (c.listing resource).IsValid where
  allowDomains := valid.allowDomains
  resources listed eq := by
    obtain rfl := Option.some.inj eq
    refine List.forall_mem_cons.mpr ⟨name, ?_⟩
    cases resources : c.resources with
    | none => exact nofun
    | some others => exact valid.resources others resources

/-- A resource that is listed is covered. -/
lemma Configuration.covers_listing (c : Configuration) (resource : Text) :
    (c.listing resource).covers resource = true := by
  simp [listing, covers]

namespace Organization

/-- **The organization of a path.**  Let a path be cut into the parts between its slashes.  The id
that is found in it is the part behind the first part `organizations` that has digits behind it; and
that is the leftmost place at which the path, seen as one text, names an organization.  Nothing is
found if there is no such part.  An id that is found makes a name for a resource.  The same id is
found in that name, and any configuration that can be read can list it and then covers it. -/
theorem idOfPath?_scans_segments (path : Text) :
    let parts := Text.segments slash path
    (Text.join [slash] parts = path ∧ ∀ part ∈ parts, slash ∉ part) ∧
      (∀ id, idOfPath? path = some id ↔ NamedFirst parts id) ∧
      (idOfPath? path = none ↔ ∀ position id, ¬ NamedAt parts position id) ∧
      (∀ id, idOfPath? path = some id ↔ OccursFirst true path id) ∧
      ∀ id, idOfPath? path = some id →
        isResourceName (resourceName id) = true ∧
        idOfPath? (resourceName id) = some id ∧
        ∀ document c, Configuration.ofJson (some document) = .ok c →
          let listed := c.listing (resourceName id)
          Configuration.ofJson (some listed.toJson) = .ok listed ∧
            listed.covers (resourceName id) = true := by
  intro parts
  have among : idOfPath? path = idAmong? parts := idOfPath?_eq path
  refine ⟨⟨Text.join_segments slash path, fun _ mem => Text.not_mem_of_mem_segments mem⟩,
    fun id => ?_, ?_, fun id => scan?_eq_some_iff, fun id found => ?_⟩
  · rw [among, idAmong?_eq_some_iff]
  · rw [among, idAmong?_eq_none_iff]
  · obtain ⟨before, after, occurs, -⟩ := scan?_eq_some_iff.mp found
    have name : IsName (resourceName id) := ⟨id, rfl, occurs.digits⟩
    refine ⟨isResourceName_iff.mpr name, idOfPath?_resourceName occurs.digits, ?_⟩
    intro document c reached listed
    have valid : c.IsValid := (Configuration.ofJson_eq_ok_iff.mp reached).2.2
    exact ⟨Configuration.ofJson_toJson (valid.listing name), c.covers_listing _⟩

/-- In a path with several parts `organizations` the first one with nothing but digits behind it
counts; the organization can be listed beside another one. -/
theorem idOfPath?_scans_segments_detour :
    let path : Text := "//x/organizations/1a/organizations/organizations/12/"
    let document : Json := .object [("Resources", .array [.text "organizations/7"])]
    let listed : Configuration := ⟨[], some ["organizations/12", "organizations/7"]⟩
    idOfPath? path = some "12" ∧ NamedFirst (Text.segments slash path) "12" ∧
      OccursFirst true path "12" ∧ isResourceName (resourceName "12") = true ∧
      idOfPath? (resourceName "12") = some "12" ∧
      Configuration.ofJson (some document) = .ok ⟨[], some ["organizations/7"]⟩ ∧
      Configuration.ofJson (some listed.toJson) = .ok listed ∧
      listed.covers "organizations/12" = true := by
  intro path document listed
  have found : idOfPath? path = some "12" := by decide +kernel
  have reached : Configuration.ofJson (some document) = .ok ⟨[], some ["organizations/7"]⟩ := by
    decide +kernel
  obtain ⟨-, segments, -, leftmost, naming⟩ := idOfPath?_scans_segments path
  obtain ⟨name, again, listing⟩ := naming _ found
  obtain ⟨accepted, covered⟩ := listing document _ reached
  exact ⟨found, (segments _).mp found, (leftmost _).mp found, name, again, reached, accepted,
    covered⟩

end Organization

end PolicyWarden
