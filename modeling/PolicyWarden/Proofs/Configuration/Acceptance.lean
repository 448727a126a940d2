import PolicyWarden.Configuration.Basic
import PolicyWarden.Proofs.Schema.Issues

/-!
# Acceptance of configurations

The format of configurations is said here in terms of documents (`Configuration.Conforms`), and so
is which configuration a document holds (`Configuration.IsTakenFrom`).  The check of a document
accepts exactly what conforms, with the configuration that the document holds
(`Configuration.ofJson_eq_ok_iff`).  A configuration that is written down again is read as itself,
so reading brings documents into a normal form.

Every other document is refused for issues that name all its faults by key and position
(`Configuration.faults`): first those among the allowed domains, then those among the resources.
-/

namespace PolicyWarden

open Schema

/-- A text is found among the texts that it is joined with. -/
lemma Text.infix_join {t : Text} {texts : List Text} (glue : Text) (mem : t ∈ texts) :
    t <:+: join glue texts := by
  induction texts with
  | nil => cases mem
  | cons first texts ih =>
    cases texts with
    | nil =>
      rw [List.mem_singleton.mp mem]
      exact List.infix_rfl
    | cons second texts =>
      rw [join]
      rcases List.mem_cons.mp mem with rfl | later
      · exact ⟨[], glue ++ join glue (second :: texts), by simp⟩
      · exact (ih later).trans (List.suffix_append _ _).isInfix

/-! ### Names of organizations -/

namespace Organization

/-- The name of an organization is `organizations/` followed by one or more digits. -/
def IsName (t : Text) : Prop :=
  ∃ id, t = resourceName id ∧ Text.isDigits id = true

/-- Names of organizations are recognized. -/
lemma isResourceName_iff {t : Text} : isResourceName t = true ↔ IsName t := by
  unfold isResourceName
  cases dropped : Text.dropStart? nameStart t with
  | some id =>
    obtain rfl := Text.dropStart?_eq_some_iff.mp dropped
    constructor
    · intro digits
      exact ⟨id, rfl, digits⟩
    · rintro ⟨other, eq, digits⟩
      rwa [List.append_cancel_left eq]
  | none =>
    simp only [Bool.false_eq_true, false_iff]
    rintro ⟨id, rfl, -⟩
    rw [resourceName, Text.dropStart?_eq_some_iff.mpr rfl] at dropped
    cases dropped

instance : DecidablePred IsName :=
  fun _ => decidable_of_iff _ isResourceName_iff

end Organization

namespace Configuration

/-! ### The format -/

/-- A domain is a text that is not empty and has neither an at sign nor white space in it. -/
structure IsDomain (t : Text) : Prop where
  nonempty : t ≠ []
  noAtSign : CodeUnit.ofChar '@' ∉ t
  noBlank : ∀ u ∈ t, CodeUnit.isBlank u = false

/-- A document of the format is an object in which the allowed domains are missing or a list of
domains, and the resources are missing, null or a list of names of organizations. -/
structure Conforms (document : Json) : Prop where
  isObject : ∃ members, document = .object members
  allowDomains : ∀ v, document.get? domainsKey = some v →
    ∃ items, v = .array items ∧ ∀ item ∈ items, item.IsTextWith IsDomain
  resources : ∀ v, document.get? resourcesKey = some v → v ≠ .null →
    ∃ items, v = .array items ∧ ∀ item ∈ items, item.IsTextWith Organization.IsName

/-- The configuration is the one of the document: it has the same lists, none of the allowed domains
if they are missing, and no list of resources if that is missing or null. -/
structure IsTakenFrom (c : Configuration) (document : Json) : Prop where
  allowDomains : (document.get? domainsKey).getD (.array []) = .array (c.allowDomains.map .text)
  resources : (document.get? resourcesKey).getD .null = resourcesJson c.resources

/-- A configuration allows domains and lists organizations. -/
structure IsValid (c : Configuration) : Prop where
  allowDomains : ∀ domain ∈ c.allowDomains, IsDomain domain
  resources : ∀ resources, c.resources = some resources →
    ∀ resource ∈ resources, Organization.IsName resource

/-! ### Texts without defects -/

/-- Domains are the texts without defects of domains. -/
lemma domainDefects_eq_nil_iff {t : Text} : domainDefects t = [] ↔ IsDomain t := by
  simp only [domainDefects, List.append_eq_nil_iff, ite_eq_right_iff, reduceCtorEq, imp_false,
    List.isEmpty_iff, List.contains_iff_mem, Bool.not_eq_true, List.any_eq_false]
  constructor
  · rintro ⟨⟨nonempty, noAtSign⟩, noBlank⟩
    exact ⟨nonempty, noAtSign, noBlank⟩
  · intro domain
    exact ⟨⟨domain.nonempty, domain.noAtSign⟩, domain.noBlank⟩

/-- Names of organizations are the texts without defects of resources. -/
lemma resourceDefects_eq_nil_iff {t : Text} : resourceDefects t = [] ↔ Organization.IsName t := by
  rw [← Organization.isResourceName_iff, resourceDefects]
  split <;> simp_all

instance : DecidablePred IsDomain :=
  fun _ => decidable_of_iff _ domainDefects_eq_nil_iff

section Lists

variable {defects : Text → List Defect} {fits : Text → Prop} {path : Path} {part : Option Json}
  {texts : List Text}

/-- A text without defects is accepted as itself. -/
lemma sound_eq_accepted_iff {t : Text} :
    sound defects path part = .accepted t ↔ part = some (.text t) ∧ defects t = [] := by
  simp only [sound, Checked.bind_eq_accepted_iff, text_eq_accepted_iff]
  constructor
  · rintro ⟨other, rfl, accepted⟩
    split at accepted
    · rename_i none
      cases accepted
      exact ⟨rfl, none⟩
    · cases accepted
  · rintro ⟨rfl, none⟩
    refine ⟨t, rfl, ?_⟩
    rw [none]

/-- A list of texts without defects is accepted as itself. -/
lemma listOf_sound_eq_accepted_iff :
    listOf (sound defects) path part = .accepted texts ↔
      part = some (.array (texts.map .text)) ∧ ∀ t ∈ texts, defects t = [] := by
  have items (items : List Json) (start : Nat) :
      ((items.zipIdx start).map fun entry => sound defects (path.item entry.2) (some entry.1)) =
          texts.map Checked.accepted ↔
        items = texts.map .text ∧ ∀ t ∈ texts, defects t = [] := by
    induction items generalizing start texts with
    | nil => cases texts <;> simp
    | cons item items ih =>
      cases texts with
      | nil => simp
      | cons t texts =>
        rw [List.zipIdx_cons, List.map_cons, List.map_cons, List.cons.injEq, ih,
          sound_eq_accepted_iff, List.map_cons, List.cons.injEq, List.forall_mem_cons,
          Option.some.injEq]
        exact and_and_and_comm
  simp only [listOf, Checked.bind_eq_accepted_iff, list_eq_accepted_iff,
    Checked.all_eq_accepted_iff, items]
  constructor
  · rintro ⟨_, rfl, rfl, each⟩
    exact ⟨rfl, each⟩
  · rintro ⟨rfl, each⟩
    exact ⟨_, rfl, rfl, each⟩

/-- The issues of a list of texts are about the items that are no texts of the wanted kind. -/
lemma names_listOf_sound [DecidablePred fits] (same : ∀ t, defects t = [] ↔ fits t) (v : Json) :
    Names (listOf (sound defects) path (some v)).issues (offences fits path (some v)) := by
  cases v with
  | array items =>
    have accepts (entry : Json × Nat) (fine : entry.1.IsTextWith fits) :
        (sound defects (path.item entry.2) (some entry.1)).issues = [] := by
      obtain ⟨t, eq, fit⟩ := Json.isTextWith_iff.mp fine
      rw [eq, sound_eq_accepted_iff.mpr ⟨rfl, (same t).mpr fit⟩]
      rfl
    have rejects (entry : Json × Nat) (wrong : ¬ entry.1.IsTextWith fits) :
        Names (sound defects (path.item entry.2) (some entry.1)).issues [path.item entry.2] := by
      obtain ⟨item, position⟩ := entry
      cases item with
      | text t =>
        have found : defects t ≠ [] := mt (same t).mp wrong
        obtain ⟨defect, others, eq⟩ := List.exists_cons_of_ne_nil found
        have issues : (sound defects (path.item position) (some (.text t))).issues =
            (defects t).map (Issue.mk (path.item position)) := by
          simp only [sound, text, Checked.bind, eq]
          rfl
        rw [issues]
        exact .of_defects found
      | _ => exact .single _ _
    exact names_all accepts rejects
  | _ => exact .single _ _

end Lists

/-! ### Configurations of documents -/

section Documents

variable {path : Path} {part : Option Json} {document : Json} {c : Configuration}

/-- The allowed domains are the list that is there, or none if it is missing. -/
lemma checkDomains_eq_accepted_iff {domains : List Text} :
    checkDomains path part = .accepted domains ↔
      part.getD (.array []) = .array (domains.map .text) ∧
        ∀ domain ∈ domains, IsDomain domain := by
  simp only [← domainDefects_eq_nil_iff]
  cases part with
  | none =>
    have missing : checkDomains path none = .accepted [] := rfl
    rw [missing]
    cases domains <;> simp
  | some v =>
    have present : checkDomains path (some v) = listOf (sound domainDefects) path (some v) := by
      rw [checkDomains, optional_some]
      cases listOf (sound domainDefects) path (some v) <;> rfl
    rw [present, listOf_sound_eq_accepted_iff, Option.some.injEq, Option.getD_some]

/-- Resources that are there and not null are a list. -/
lemma checkResources_of_ne_null {v : Json} (listed : v ≠ .null) :
    checkResources path (some v) = (listOf (sound resourceDefects) path (some v)).map some := by
  unfold checkResources
  split
  · rename_i null
    exact absurd (Option.some.inj null) listed
  · rfl

/-- The resources are the list that is there, or no list if it is missing or null. -/
lemma checkResources_eq_accepted_iff {resources : Option (List Text)} :
    checkResources path part = .accepted resources ↔
      part.getD .null = resourcesJson resources ∧
        ∀ listed, resources = some listed → ∀ resource ∈ listed, Organization.IsName resource := by
  simp only [← resourceDefects_eq_nil_iff]
  by_cases none : part.getD .null = .null
  · have unlisted : checkResources path part = .accepted Option.none := by
      cases part with
      | none => rfl
      | some v =>
        rw [Option.getD_some] at none
        rw [none]
        rfl
    rw [unlisted, none]
    cases resources <;> simp [resourcesJson]
  · cases part with
    | none => exact absurd rfl none
    | some v =>
      rw [Option.getD_some] at none
      rw [checkResources_of_ne_null none, Checked.map_eq_accepted_iff, Option.getD_some]
      simp only [listOf_sound_eq_accepted_iff, Option.some.injEq]
      constructor
      · rintro ⟨texts, ⟨eq, each⟩, rfl⟩
        refine ⟨eq, fun other same => ?_⟩
        obtain rfl := Option.some.inj same
        exact each
      · rintro ⟨eq, each⟩
        cases resources with
        | none => exact absurd eq none
        | some texts => exact ⟨texts, ⟨eq, each texts rfl⟩, rfl⟩

/-- A document is accepted exactly if it is an object, and then with the configuration that it
holds, if that is valid. -/
lemma check_eq_accepted_iff :
    check (some document) = .accepted c ↔
      (∃ members, document = .object members) ∧ c.IsTakenFrom document ∧ c.IsValid := by
  simp only [check, Checked.bind_eq_accepted_iff, record_eq_accepted_iff,
    Checked.apply_eq_accepted_iff, Checked.map_eq_accepted_iff, checkDomains_eq_accepted_iff,
    checkResources_eq_accepted_iff, Option.some.injEq]
  constructor
  · rintro ⟨members, rfl, -, resources, ⟨domains, ⟨allowed, domain⟩, rfl⟩, ⟨listed, name⟩, rfl⟩
    exact ⟨⟨members, rfl⟩, ⟨allowed, listed⟩, ⟨domain, name⟩⟩
  · rintro ⟨⟨members, rfl⟩, taken, valid⟩
    exact ⟨members, rfl, _, c.resources, ⟨c.allowDomains, ⟨taken.allowDomains, valid.allowDomains⟩,
      rfl⟩, ⟨taken.resources, valid.resources⟩, rfl⟩

/-- A configuration is read from a document exactly if the document is an object that holds it and
it is valid. -/
lemma ofJson_eq_ok_iff :
    ofJson (some document) = .ok c ↔
      (∃ members, document = .object members) ∧ c.IsTakenFrom document ∧ c.IsValid := by
  rw [← check_eq_accepted_iff, ofJson]
  cases check (some document) <;> simp [unusable]

/-- A valid configuration is read from the document that it is written down as. -/
lemma ofJson_toJson (valid : c.IsValid) : ofJson (some c.toJson) = .ok c :=
  ofJson_eq_ok_iff.mpr ⟨⟨_, rfl⟩, ⟨rfl, rfl⟩, valid⟩

/-- Some configuration is read exactly from the documents of the format. -/
lemma exists_ofJson_iff : (∃ c, ofJson (some document) = .ok c) ↔ Conforms document := by
  simp only [ofJson_eq_ok_iff]
  constructor
  · rintro ⟨c, object, taken, valid⟩
    refine ⟨object, fun v there => ?_, fun v there listed => ?_⟩
    · have eq := taken.allowDomains
      rw [there, Option.getD_some] at eq
      exact ⟨_, eq, Json.forall_isTextWith_iff.mpr ⟨_, rfl, valid.allowDomains⟩⟩
    · have eq := taken.resources
      rw [there, Option.getD_some] at eq
      cases resources : c.resources with
      | none =>
        rw [resources] at eq
        exact absurd eq listed
      | some texts =>
        rw [resources] at eq
        exact ⟨_, eq, Json.forall_isTextWith_iff.mpr ⟨_, rfl, valid.resources texts resources⟩⟩
  · intro conforms
    have domains : ∃ texts : List Text,
        (document.get? domainsKey).getD (.array []) = .array (texts.map .text) ∧
          ∀ t ∈ texts, IsDomain t := by
      cases there : document.get? domainsKey with
      | none => exact ⟨[], rfl, nofun⟩
      | some v =>
        obtain ⟨items, rfl, each⟩ := conforms.allowDomains v there
        obtain ⟨texts, rfl, fits⟩ := Json.forall_isTextWith_iff.mp each
        exact ⟨texts, rfl, fits⟩
    have resources : ∃ listed : Option (List Text),
        (document.get? resourcesKey).getD .null = resourcesJson listed ∧
          ∀ texts, listed = some texts → ∀ t ∈ texts, Organization.IsName t := by
      by_cases null : (document.get? resourcesKey).getD .null = .null
      · exact ⟨none, null, nofun⟩
      · cases there : document.get? resourcesKey with
        | none => exact absurd (by rw [there]; rfl) null
        | some v =>
          rw [there, Option.getD_some] at null
          obtain ⟨items, rfl, each⟩ := conforms.resources v there null
          obtain ⟨texts, rfl, fits⟩ := Json.forall_isTextWith_iff.mp each
          refine ⟨some texts, rfl, fun other same => ?_⟩
          obtain rfl := Option.some.inj same
          exact fits
    obtain ⟨texts, allowed, domain⟩ := domains
    obtain ⟨listed, names, named⟩ := resources
    exact ⟨⟨texts, listed⟩, conforms.isObject, ⟨allowed, names⟩, ⟨domain, named⟩⟩

end Documents

/-! ### Faults of documents -/

/-- The places at which a document departs from the format: the document itself if it is no object;
otherwise what is wrong with the allowed domains, and then with the resources. -/
def faults : Json → List Path
  | .object members =>
      offences IsDomain [.key domainsKey] (Json.lookup domainsKey members) ++
        offences Organization.IsName [.key resourcesKey]
          ((Json.lookup resourcesKey members).filter fun v => v ≠ .null)
  | _ => [[]]

section Faults

variable {document : Json} {path : Path}

/-- A document is of the format exactly if it has no faults. -/
lemma conforms_iff_faults_eq_nil : Conforms document ↔ faults document = [] := by
  cases document with
  | object members =>
    have resources (v : Json) :
        (Json.lookup resourcesKey members).filter (fun v => v ≠ .null) = some v ↔
          Json.lookup resourcesKey members = some v ∧ v ≠ .null := by
      simp [Option.filter_eq_some_iff]
    simp only [faults, List.append_eq_nil_iff, offences_eq_nil_iff, resources, and_imp]
    constructor
    · intro conforms
      exact ⟨conforms.allowDomains, conforms.resources⟩
    · rintro ⟨domains, names⟩
      exact ⟨⟨members, rfl⟩, domains, names⟩
  | _ =>
    refine ⟨fun conforms => ?_, fun none => absurd none (List.cons_ne_nil _ _)⟩
    obtain ⟨members, eq⟩ := conforms.isObject
    cases eq

/-- The issues of the allowed domains are about their faults. -/
lemma names_checkDomains (path : Path) (part : Option Json) :
    Names (checkDomains path part).issues (offences IsDomain path part) := by
  cases part with
  | none => exact .nowhere
  | some v =>
    rw [checkDomains, Checked.issues_map, optional_some, Checked.issues_map]
    exact names_listOf_sound (fun _ => domainDefects_eq_nil_iff) v

/-- The issues of the resources are about their faults. -/
lemma names_checkResources (path : Path) (part : Option Json) :
    Names (checkResources path part).issues
      (offences Organization.IsName path (part.filter fun v => v ≠ .null)) := by
  cases part with
  | none => exact .nowhere
  | some v =>
    by_cases null : v = .null
    · subst null
      exact .nowhere
    · rw [checkResources_of_ne_null null, Checked.issues_map, Option.filter_some,
        if_pos (by simpa using null)]
      exact names_listOf_sound (fun _ => resourceDefects_eq_nil_iff) v

/-- The issues of a document are about its faults. -/
lemma names_check (document : Json) : Names (check (some document)).issues (faults document) := by
  cases document with
  | object members =>
    show Names (Checked.apply _ _).issues _
    rw [Checked.issues_apply, Checked.issues_map]
    exact (names_checkDomains _ _).append (names_checkResources _ _)
  | _ => exact .single _ _

/-- The failure of a document with some issues. -/
def refusal (issues : List Issue) : Failure :=
  .problem (.configuration (.invalid issues)) (.schema issues)

/-- A document that is not of the format is refused for its issues. -/
lemma ofJson_eq_refusal (misfits : ¬ Conforms document) :
    ofJson (some document) = .error (refusal (check (some document)).issues) := by
  have refused : ¬ (check (some document)).IsAccepted := by
    rintro ⟨c, accepted⟩
    refine misfits (exists_ofJson_iff.mp ⟨c, ?_⟩)
    rw [ofJson, accepted]
  rw [ofJson, Checked.eq_rejected_issues refused]
  rfl

/-! ### What the failure says -/

/-- What is said about an item is said under its key and its position. -/
def itemLine (key : Text) (position : Nat) (defect : Defect) : Text :=
  key ++ "." ++ Text.ofNat position ++ ": " ++ defect.message

/-- The line about an item names its key and its position. -/
lemma line_item (top key : Text) (position : Nat) (defect : Defect) :
    Issue.line top ⟨[.key key, .index position], defect⟩ = itemLine key position defect := by
  have place : Path.render [.key key, .index position] = key ++ "." ++ Text.ofNat position := rfl
  have named : (key ++ "." ++ Text.ofNat position : Text).isEmpty = false := by
    cases key <;> rfl
  simp only [Issue.line, place, named, Bool.false_eq_true, if_false, itemLine]

/-- The message of a refusal has the line of each of its issues. -/
lemma line_infix_message {issues : List Issue} {issue : Issue} (mem : issue ∈ issues) :
    issue.line "<root>" <:+: (Problem.configuration (.invalid issues)).message := by
  have line : issue.line "<root>" <:+: lines "<root>" issues :=
    Text.infix_join _ (List.mem_map_of_mem mem)
  exact line.trans (List.suffix_append _ _).isInfix

end Faults

/-- **Acceptance.**  A configuration is read exactly from the documents of the format, and then it
is the one of the document; written down again, it is read as itself.  Any other document has
faults, and the failure comes with issues about just these faults, one after another; its message
names each item among them by its key and position. -/
theorem ofJson_accepts_format (document : Json) :
    ((∃ c, ofJson (some document) = .ok c) ↔ Conforms document) ∧
      (∀ c, ofJson (some document) = .ok c →
        c.IsTakenFrom document ∧ ofJson (some c.toJson) = .ok c) ∧
      (¬ Conforms document → faults document ≠ [] ∧
        ∃ issues, ofJson (some document) = .error (refusal issues) ∧
          Names issues (faults document) ∧
          ∃ message, (refusal issues).message? = some message ∧
            ∀ key position, [.key key, .index position] ∈ faults document →
              ∃ defect, itemLine key position defect <:+: message) := by
  refine ⟨exists_ofJson_iff, fun c reached => ?_, fun misfits => ⟨?_, ?_⟩⟩
  · obtain ⟨-, taken, valid⟩ := ofJson_eq_ok_iff.mp reached
    exact ⟨taken, ofJson_toJson valid⟩
  · exact mt conforms_iff_faults_eq_nil.mpr misfits
  · have names := names_check document
    refine ⟨_, ofJson_eq_refusal misfits, names, _, rfl, fun key position mem => ?_⟩
    obtain ⟨defect, among⟩ := names.exists_defect mem
    refine ⟨defect, ?_⟩
    rw [← line_item "<root>"]
    exact line_infix_message among

/-! ### A sample -/

/-- A document with a domain that is listed twice, no resources and another key. -/
def sampleDocument : Json :=
  .object [("AllowDomains", .array [.text "b.org", .text "a.org", .text "b.org"]),
    ("Owner", .number (.whole 1)), ("Resources", .null)]

/-- A document with faults in both lists. -/
def faultyDocument : Json :=
  .object [("Resources", .array [.text "organizations/1", .text "projects/1"]),
    ("AllowDomains", .array [.text "a.org", .text [], .text "a@b c", .number (.whole 1)])]

/-- The sample is read with its domains in order and written without its other key; of the other
document four items are refused. -/
theorem ofJson_accepts_format_sample :
    (∃ c, ofJson (some sampleDocument) = .ok c ∧ c = ⟨["b.org", "a.org", "b.org"], none⟩ ∧
        ofJson (some c.toJson) = .ok c) ∧
      ¬ Conforms faultyDocument ∧
      ∃ issues, ofJson (some faultyDocument) = .error (refusal issues) ∧
        Names issues
          [[.key domainsKey, .index 1], [.key domainsKey, .index 2], [.key domainsKey, .index 3],
            [.key resourcesKey, .index 1]] ∧
        ∃ message, (refusal issues).message? = some message ∧
          ∃ defect, itemLine domainsKey 2 defect <:+: message := by
  obtain ⟨-, taken, -⟩ := ofJson_accepts_format sampleDocument
  have reached : ofJson (some sampleDocument) = .ok ⟨["b.org", "a.org", "b.org"], none⟩ := by
    decide +kernel
  refine ⟨⟨_, reached, rfl, (taken _ reached).2⟩, ?_⟩
  have places : faults faultyDocument =
      [[.key domainsKey, .index 1], [.key domainsKey, .index 2], [.key domainsKey, .index 3],
        [.key resourcesKey, .index 1]] := by
    decide +kernel
  have misfits : ¬ Conforms faultyDocument := by
    rw [conforms_iff_faults_eq_nil, places]
    exact List.cons_ne_nil _ _
  obtain ⟨-, -, refused⟩ := ofJson_accepts_format faultyDocument
  obtain ⟨-, issues, failed, names, message, told, named⟩ := refused misfits
  rw [places] at names named
  exact ⟨misfits, issues, failed, names, message, told, named domainsKey 2 (by decide)⟩

end Configuration

end PolicyWarden
