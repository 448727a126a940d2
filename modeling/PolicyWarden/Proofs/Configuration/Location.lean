import PolicyWarden.Configuration.Location
import PolicyWarden.Proofs.Text.Segments

/-!
# Spellings of a location

A place is told by the names on the way from the root.  `Location.Leads` says where a walk along the
segments of a path leads from a place, and `Location.Denotes` where a path leads in a directory:
from the root if the path begins with a slash, and from the directory otherwise.  Every path denotes
exactly one place (`Location.denotes_iff`), and its location is the place written down.  So two
spellings have the same location exactly if they denote the same place
(`Location.resolve_eq_resolve_iff`), and a location is a spelling of itself
(`Location.resolve_resolve`).
-/

namespace PolicyWarden

namespace Location

/-- A place: the names on the way from the root, the directory around it being the place without its
last name.  The root has no name. -/
abbrev Place := List Text

/-- The segment is the name of a file or a directory. -/
structure IsName (segment : Text) : Prop where
  ne_nil : segment ≠ []
  ne_dot : segment ≠ "."
  ne_dots : segment ≠ ".."

/-! ### Walks -/

/-- `Leads start segments target`: a walk along the segments leads from a place to another one. -/
inductive Leads : Place → List Text → Place → Prop
  /-- Without segments one stays. -/
  | arrived {place : Place} : Leads place [] place
  /-- An empty segment and a dot lead nowhere else. -/
  | stay {place target : Place} {segment : Text} {rest : List Text}
      (idle : segment = [] ∨ segment = ".") (onward : Leads place rest target) :
      Leads place (segment :: rest) target
  /-- Two dots lead to the directory around, and from the root to the root. -/
  | back {place target : Place} {rest : List Text} (onward : Leads place.dropLast rest target) :
      Leads place ((".." : Text) :: rest) target
  /-- A name leads to what has that name in the place. -/
  | into {place target : Place} {name : Text} {rest : List Text} (named : IsName name)
      (onward : Leads (place ++ [name]) rest target) :
      Leads place (name :: rest) target

/-- A path leads to a place in a directory. -/
inductive Denotes (directory : Text) : Text → Place → Prop
  /-- A path that begins with a slash leads there from the root. -/
  | absolute {rest : Text} {place : Place} (walk : Leads [] (Text.segments slash rest) place) :
      Denotes directory (slash :: rest) place
  /-- Any other path leads there from where the directory is. -/
  | relative {path : Text} {start place : Place} (unrooted : path.head? ≠ some slash)
      (base : Leads [] (Text.segments slash directory) start)
      (walk : Leads start (Text.segments slash path) place) : Denotes directory path place

variable {start target place : Place} {segment directory path other : Text} {rest : List Text}

/-- A name is entered. -/
lemma enter_of_isName (named : IsName segment) (done : List Text) :
    enter done segment = segment :: done := by
  simp [enter, named.ne_nil, named.ne_dot, named.ne_dots]

/-- A segment leads nowhere else, or one step back, or to a name. -/
lemma enter_cases (done : List Text) (segment : Text) :
    (segment = [] ∨ segment = ".") ∧ enter done segment = done ∨
      segment = ".." ∧ enter done segment = done.tail ∨
      IsName segment ∧ enter done segment = segment :: done := by
  by_cases idle : segment = [] ∨ segment = "."
  · exact .inl ⟨idle, by simpa [enter] using fun h₁ h₂ => absurd idle (by simp [h₁, h₂])⟩
  · rw [not_or] at idle
    by_cases dots : segment = ".."
    · subst dots
      exact .inr (.inl ⟨rfl, rfl⟩)
    · have named : IsName segment := ⟨idle.1, idle.2, dots⟩
      exact .inr (.inr ⟨named, enter_of_isName named done⟩)

/-- Entering the segments one after another is the walk along them. -/
lemma leads_iff : Leads start rest target ↔ rest.foldl enter start.reverse = target.reverse := by
  constructor
  · intro leads
    induction leads with
    | arrived => rfl
    | @stay place _ segment _ idle _ ih =>
      have same : enter place.reverse segment = place.reverse := by
        rcases idle with rfl | rfl <;> rfl
      rw [List.foldl_cons, same, ih]
    | @back place _ _ _ ih =>
      have around : enter place.reverse ".." = place.dropLast.reverse := by
        rw [← List.tail_reverse]
        rfl
      rw [List.foldl_cons, around, ih]
    | @into place _ name _ named _ ih =>
      rw [List.foldl_cons, enter_of_isName named, ← ih, List.reverse_concat]
  · induction rest generalizing start with
    | nil =>
      intro same
      obtain rfl : start = target := List.reverse_inj.mp same
      exact .arrived
    | cons segment rest ih =>
      rw [List.foldl_cons]
      rcases enter_cases start.reverse segment with ⟨idle, eq⟩ | ⟨rfl, eq⟩ | ⟨named, eq⟩ <;> rw [eq]
      · exact fun same => .stay idle (ih same)
      · rw [List.tail_reverse]
        exact fun same => .back (ih same)
      · rw [← List.reverse_concat]
        exact fun same => .into named (ih same)

/-- A walk along two paths is one along the first and from there one along the second. -/
lemma leads_append {first : List Text} :
    Leads start (first ++ rest) target ↔
      ∃ between, Leads start first between ∧ Leads between rest target := by
  simp only [leads_iff, List.foldl_append]
  constructor
  · intro same
    exact ⟨(first.foldl enter start.reverse).reverse, by simp, by rw [List.reverse_reverse, same]⟩
  · rintro ⟨between, before, behind⟩
    rw [before, behind]

/-- The names of a path are the place to which it leads from the root. -/
lemma names_eq_iff : names directory path = place ↔
    Leads [] (Text.segments slash (fromRoot directory path)) place := by
  rw [leads_iff, names, List.reverse_eq_iff]
  rfl

/-! ### Paths -/

/-- A path denotes the place whose names it leads along, and no other one. -/
lemma denotes_iff : Denotes directory path place ↔ names directory path = place := by
  rw [names_eq_iff]
  constructor
  · rintro (walk | ⟨unrooted, base, walk⟩)
    · rw [fromRoot, if_pos rfl, Text.segments_sep_cons]
      exact .stay (.inl rfl) walk
    · cases path with
      | nil =>
        rw [fromRoot]
        rw [leads_iff] at walk base ⊢
        exact base.trans walk
      | cons u rest =>
        have relative : u ≠ slash := fun eq => unrooted (congrArg some eq)
        rw [fromRoot, if_neg relative, Text.segments_append_sep]
        exact leads_append.mpr ⟨_, base, walk⟩
  · intro leads
    cases path with
    | nil =>
      rw [fromRoot] at leads
      exact .relative (by simp) leads (.stay (.inl rfl) .arrived)
    | cons u rest =>
      by_cases rooted : u = slash
      · subst rooted
        rw [fromRoot, if_pos rfl, Text.segments_sep_cons] at leads
        rw [leads_iff] at leads
        exact .absolute (leads_iff.mpr leads)
      · rw [fromRoot, if_neg rooted, Text.segments_append_sep, leads_append] at leads
        obtain ⟨start, base, walk⟩ := leads
        exact .relative (fun eq => rooted (Option.some.inj eq)) base walk

/-- Every path denotes a place. -/
lemma denotes_names (directory path : Text) : Denotes directory path (names directory path) :=
  denotes_iff.mpr rfl

/-! ### Locations -/

/-- The segment names something, and is a segment on its own. -/
structure IsStep (segment : Text) : Prop where
  named : IsName segment
  free : slash ∉ segment

/-- What is entered was there before, or is a name among the segments. -/
lemma isStep_of_mem_foldl_enter {done : List Text} (free : ∀ part ∈ rest, slash ∉ part)
    (sound : ∀ name ∈ done, IsStep name) : ∀ name ∈ rest.foldl enter done, IsStep name := by
  induction rest generalizing done with
  | nil => exact sound
  | cons part rest ih =>
    rw [List.forall_mem_cons] at free
    refine ih free.2 ?_
    rcases enter_cases done part with ⟨-, eq⟩ | ⟨-, eq⟩ | ⟨named, eq⟩ <;> rw [eq]
    · exact sound
    · exact fun name mem => sound name (List.mem_of_mem_tail mem)
    · exact List.forall_mem_cons.mpr ⟨⟨named, free.1⟩, sound⟩

/-- Only names lead to a place. -/
lemma isStep_of_mem_names (mem : segment ∈ names directory path) : IsStep segment := by
  rw [names, List.mem_reverse] at mem
  refine isStep_of_mem_foldl_enter (fun _ mem => ?_) (by simp) _ mem
  exact Text.not_mem_of_mem_segments mem

/-- Names are entered one after another. -/
lemma foldl_enter_of_isStep (steps : ∀ name ∈ place, IsStep name) (done : List Text) :
    place.foldl enter done = place.reverse ++ done := by
  induction place generalizing done with
  | nil => rfl
  | cons name rest ih =>
    rw [List.forall_mem_cons] at steps
    rw [List.foldl_cons, enter_of_isName steps.1.named, ih steps.2, List.reverse_cons,
      List.append_assoc]
    rfl

/-- A location leads along the names that it is made of, in every directory. -/
lemma names_ofNames (steps : ∀ name ∈ place, IsStep name) :
    names directory (ofNames place) = place := by
  rw [names, ofNames, fromRoot, if_pos rfl, Text.segments_sep_cons, List.foldl_cons]
  cases place with
  | nil => rfl
  | cons name rest =>
    rw [Text.segments_join (fun part mem => (steps part mem).free) (List.cons_ne_nil _ _)]
    show ((name :: rest).foldl enter []).reverse = _
    rw [foldl_enter_of_isStep steps, List.append_nil, List.reverse_reverse]

/-- The location of a path leads to where the path leads. -/
lemma names_resolve (directory' : Text) :
    names directory' (resolve directory path) = names directory path :=
  names_ofNames fun _ mem => isStep_of_mem_names mem

/-- A location is its own location, in every directory. -/
lemma resolve_resolve (directory' : Text) :
    resolve directory' (resolve directory path) = resolve directory path :=
  congrArg ofNames (names_resolve directory')

/-- Two spellings have the same location exactly if they denote the same place. -/
lemma resolve_eq_resolve_iff :
    resolve directory path = resolve directory other ↔
      ∃ place, Denotes directory path place ∧ Denotes directory other place := by
  simp only [denotes_iff]
  constructor
  · intro same
    have names_eq : names directory other = names directory path := by
      rw [← names_resolve directory, ← same, names_resolve directory]
    exact ⟨_, rfl, names_eq⟩
  · rintro ⟨place, here, there⟩
    rw [resolve, resolve, here, there]

/-- A path from the directory, one with a detour and one from the root have one location. -/
example :
    resolve "/work" "./config.json" = Text.ofString "/work/config.json" ∧
      resolve "/work" "a/..//config.json" = Text.ofString "/work/config.json" ∧
      resolve "/work" "/work/config.json" = Text.ofString "/work/config.json" ∧
      resolve "/work" "../../config.json" = Text.ofString "/config.json" := by
  decide +kernel

end Location

end PolicyWarden
