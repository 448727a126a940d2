import Mathlib.Tactic.Common
import PolicyWarden.Proofs.Finding.RoundTrip

/-!
# Acceptance of notifications

The format of notifications is said here in terms of documents: which members must be there, which
may be missing, and of what kind they are (`Notification.Conforms`).  The check of a notification
accepts exactly these documents, so what becomes of a text can be read off its document.

A finding is read if the document conforms, its category is the expected one and one of its paths
leads through an organization.  If only the category differs, the failure says so, wherever the
paths lead; any other text is malformed.  What the format does not know makes no difference:
`Notification.known` takes it out of a document, and the check overlooks that.
-/

namespace PolicyWarden

open Schema

/-! ### The format -/

/-- Security marks have a name, and marks that are texts if there are any. -/
structure SecurityMarks.Conforms (members : Members) : Prop where
  name : ∃ t, Json.lookup "name" members = some (.text t)
  marks : ∀ v, Json.lookup "marks" members = some v →
    ∃ marks, v = .object marks ∧ ∀ mark ∈ marks, ∃ t, mark.2 = .text t

/-- The keys of a finding under which there must be a text. -/
def ReportedFinding.textKeys : List Text :=
  ["name", "parent", "resourceName", "category", "eventTime", "createTime"]

/-- The fields of a finding: its texts and its state must be there, and what else is there must be of
its kind. -/
structure ReportedFinding.Conforms (fields : Members) : Prop where
  texts : ∀ key ∈ textKeys, ∃ t, Json.lookup key fields = some (.text t)
  state : ∃ state : FindingState, Json.lookup "state" fields = some (.text state.name)
  externalUri : ∀ v, Json.lookup "externalUri" fields = some v → ∃ t, v = .text t
  sourceProperties : ∀ v, Json.lookup "sourceProperties" fields = some v →
    ∃ members, v = .object members
  securityMarks : ∀ v, Json.lookup "securityMarks" fields = some v →
    ∃ members, v = .object members ∧ SecurityMarks.Conforms members

/-- A document of the format is an object with the name of a configuration and a finding. -/
def Notification.Conforms (document : Json) : Prop :=
  ∃ members fields, document = .object members ∧
    (∃ t, Json.lookup "notificationConfigName" members = some (.text t)) ∧
    Json.lookup "finding" members = some (.object fields) ∧ ReportedFinding.Conforms fields

section Accepted

variable {path : Path} {part : Option Json}

/-- Source properties are accepted if they are an object or missing. -/
lemma isAccepted_propertyMembers_iff :
    (propertyMembers path part).IsAccepted ↔ ∀ v, part = some v → ∃ members, v = .object members := by
  have any (path : Path) (part : Option Json) : (anyValue path part).IsAccepted := ⟨_, rfl⟩
  simp [propertyMembers, isAccepted_optional_iff, isAccepted_recordOf_iff, any]

/-- A state is accepted by its name. -/
lemma isAccepted_state_iff :
    (oneOf FindingState.choices path part).IsAccepted ↔
      ∃ state : FindingState, part = some (.text state.name) := by
  constructor
  · rintro ⟨state, accepted⟩
    obtain ⟨t, found, choice⟩ := oneOf_eq_accepted_iff.mp accepted
    exact ⟨state, by rw [found, FindingState.name_of_choice choice]⟩
  · rintro ⟨state, rfl⟩
    refine ⟨state, oneOf_eq_accepted_iff.mpr ⟨state.name, rfl, ?_⟩⟩
    cases state <;> decide

/-- Security marks are accepted if they are an object as the format has it. -/
lemma SecurityMarks.isAccepted_check_iff :
    (check path part).IsAccepted ↔ ∃ members, part = some (.object members) ∧ Conforms members := by
  simp only [check, Checked.isAccepted_bind_iff, record_eq_accepted_iff,
    Checked.isAccepted_apply_iff, Checked.isAccepted_map_iff, field, isAccepted_text_iff,
    isAccepted_optional_iff, isAccepted_recordOf_iff, Option.some.injEq]
  refine exists_congr fun members => and_congr_right fun _ => ⟨?_, fun conforms => ?_⟩
  · rintro ⟨name, marks⟩
    exact ⟨name, marks⟩
  · exact ⟨conforms.name, conforms.marks⟩

/-- A finding is accepted if it is an object as the format has it. -/
lemma ReportedFinding.isAccepted_check_iff :
    (check path part).IsAccepted ↔ ∃ fields, part = some (.object fields) ∧ Conforms fields := by
  simp only [check, Checked.isAccepted_bind_iff, record_eq_accepted_iff,
    Checked.isAccepted_apply_iff, Checked.isAccepted_map_iff, field, isAccepted_text_iff,
    isAccepted_state_iff, isAccepted_optional_iff, isAccepted_propertyMembers_iff,
    SecurityMarks.isAccepted_check_iff, Option.some.injEq]
  refine exists_congr fun fields => and_congr_right fun _ => ⟨?_, fun conforms => ?_⟩
  · rintro ⟨⟨⟨⟨⟨⟨⟨⟨⟨name, parent⟩, resource⟩, state⟩, category⟩, uri⟩, properties⟩, marks⟩, event⟩,
      create⟩
    refine ⟨?_, state, uri, properties, marks⟩
    simp only [textKeys, List.forall_mem_cons]
    exact ⟨name, parent, resource, category, event, create, List.forall_mem_nil _⟩
  · have texts := conforms.texts
    simp only [textKeys, List.forall_mem_cons] at texts
    obtain ⟨name, parent, resource, category, event, create, -⟩ := texts
    exact ⟨⟨⟨⟨⟨⟨⟨⟨⟨name, parent⟩, resource⟩, conforms.state⟩, category⟩, conforms.externalUri⟩,
      conforms.sourceProperties⟩, conforms.securityMarks⟩, event⟩, create⟩

/-- A document is accepted exactly if it conforms. -/
lemma Notification.isAccepted_check_iff {document : Json} :
    (check document).IsAccepted ↔ Conforms document := by
  simp only [check, Checked.isAccepted_bind_iff, record_eq_accepted_iff,
    Checked.isAccepted_apply_iff, Checked.isAccepted_map_iff, field, isAccepted_text_iff,
    ReportedFinding.isAccepted_check_iff, Option.some.injEq]
  constructor
  · rintro ⟨members, eq, name, fields, finding, conforms⟩
    exact ⟨members, fields, eq, name, finding, conforms⟩
  · rintro ⟨members, fields, eq, name, finding, conforms⟩
    exact ⟨members, eq, name, fields, finding, conforms⟩

end Accepted

/-! ### What the format does not know -/

namespace Json

/-- Keep the members of an object that are known by their keys, and of each of them what its own
function keeps. -/
def keepMembers (known : List (Text × (Json → Json))) (members : Members) : Members :=
  members.filterMap fun member =>
    (known.lookup member.1).map fun inner => (member.1, inner member.2)

/-- Keep what is known of an object; any other value is kept as it is. -/
def keep (known : List (Text × (Json → Json))) : Json → Json
  | object members => object (keepMembers known members)
  | other => other

/-- A member that is known is found where it was. -/
lemma lookup_keepMembers {known : List (Text × (Json → Json))} {key : Text} {inner : Json → Json}
    (listed : known.lookup key = some inner) (members : Members) :
    lookup key (keepMembers known members) = (lookup key members).map inner := by
  induction members with
  | nil => rfl
  | cons member members ih =>
    obtain ⟨k, v⟩ := member
    by_cases same : k = key
    · subst same
      simp [keepMembers, listed, lookup]
    · cases unlisted : known.lookup k with
      | none => simpa [keepMembers, unlisted, lookup, same] using ih
      | some other => simpa [keepMembers, unlisted, lookup, same] using ih

/-- A member that is not known makes no difference, wherever it stands. -/
lemma keepMembers_insert {known : List (Text × (Json → Json))} {key : Text}
    (unlisted : known.lookup key = none) (before after : Members) (value : Json) :
    keepMembers known (before ++ (key, value) :: after) = keepMembers known (before ++ after) := by
  simp [keepMembers, unlisted]

end Json

/-- What the format knows of security marks. -/
def SecurityMarks.known : Json → Json :=
  Json.keep [("name", id), ("marks", id)]

/-- What the format knows of a finding. -/
def ReportedFinding.known : Json → Json :=
  Json.keep [("name", id), ("parent", id), ("resourceName", id), ("state", id), ("category", id),
    ("externalUri", id), ("sourceProperties", id), ("securityMarks", SecurityMarks.known),
    ("eventTime", id), ("createTime", id)]

/-- What the format knows of a document. -/
def Notification.known : Json → Json :=
  Json.keep [("notificationConfigName", id), ("finding", ReportedFinding.known)]

/-- The check judges a part as before if something is taken out of it. -/
def Schema.Overlooks {α : Type} (f : Json → Json) (check : Path → Option Json → Checked α) : Prop :=
  ∀ path part, check path (part.map f) = check path part

section Overlooked

variable {α : Type} {f : Json → Json} {check : Path → Option Json → Checked α}

/-- A part that is left as it is is judged as before. -/
lemma Schema.overlooks_id : Overlooks id check := by
  intro path part
  rw [Option.map_id, id]

/-- A part that may be missing is judged as before if the part is. -/
lemma Schema.Overlooks.optional (overlooks : Overlooks f check) : Overlooks f (optional check) := by
  intro path part
  cases part with
  | none => rfl
  | some v => exact congrArg (Checked.map some) (overlooks path (some v))

/-- A known field is judged as before if its part is. -/
lemma Schema.Overlooks.field (overlooks : Overlooks f check) {known : List (Text × (Json → Json))}
    {key : Text} (listed : known.lookup key = some f) (path : Path) (members : Members) :
    PolicyWarden.field check path (Json.keepMembers known members) key =
      PolicyWarden.field check path members key := by
  rw [PolicyWarden.field, Json.lookup_keepMembers listed]
  exact overlooks _ _

/-- The check of an object overlooks what is not known if it does so for the members of the
object. -/
lemma Schema.overlooks_record {known : List (Text × (Json → Json))}
    {next : Path → Members → Checked α}
    (same : ∀ path members, next path (Json.keepMembers known members) = next path members) :
    Overlooks (Json.keep known) fun path part => (record path part).bind (next path) := by
  intro path part
  cases part with
  | none => rfl
  | some v =>
    cases v with
    | object members => exact same path members
    | _ => rfl

/-- The check of security marks overlooks what is not known. -/
lemma SecurityMarks.overlooks_known : Overlooks SecurityMarks.known SecurityMarks.check := by
  refine overlooks_record fun path members => ?_
  rw [overlooks_id.field rfl, overlooks_id.field rfl]

/-- The check of a finding overlooks what is not known. -/
lemma ReportedFinding.overlooks_known : Overlooks ReportedFinding.known ReportedFinding.check := by
  refine overlooks_record fun path members => ?_
  rw [overlooks_id.field rfl, overlooks_id.field rfl, overlooks_id.field rfl, overlooks_id.field rfl,
    overlooks_id.field rfl, overlooks_id.field rfl, overlooks_id.field rfl,
    SecurityMarks.overlooks_known.optional.field rfl, overlooks_id.field rfl,
    overlooks_id.field rfl]

/-- The check of a notification overlooks what is not known. -/
lemma Notification.check_known (document : Json) :
    Notification.check (known document) = Notification.check document := by
  have overlooks : Overlooks known fun path part =>
      (record path part).bind fun members =>
        ((PolicyWarden.field text [] members "notificationConfigName").map Notification.mk)
          |>.apply (PolicyWarden.field ReportedFinding.check [] members "finding") := by
    refine overlooks_record fun _ members => ?_
    rw [overlooks_id.field rfl, ReportedFinding.overlooks_known.field rfl]
  exact overlooks [] (some document)

end Overlooked

/-! ### What becomes of a text -/

/-- The finding is the one of the document.  Its source properties stand in the order in which records
are walked, and the key that is left out is not among them; its organization is that of the parent,
or else that of the resource. -/
structure Finding.IsTakenFrom (f : Finding) (document : Json) : Prop where
  name : Notification.reported? document "name" = some (.text f.name)
  category : Notification.reported? document "category" = some (.text f.category)
  state : Notification.reported? document "state" = some (.text f.state.name)
  resourceName : Notification.reported? document "resourceName" = some (.text f.resourceName)
  createTime : Notification.reported? document "createTime" = some (.text f.createTime)
  eventTime : Notification.reported? document "eventTime" = some (.text f.eventTime)
  sourceProperties : f.sourceProperties =
    (Json.inWalkOrder (Notification.reportedProperties document)).filter
      fun member => member.1 ≠ Text.ofString "__proto__"
  organizationId : ∃ parent, Notification.reported? document "parent" = some (.text parent) ∧
    ((Organization.idAmong? (Text.segments Organization.slash parent)).or
      (Organization.idAmong? (Text.segments Organization.slash f.resourceName))) =
        some f.organizationId

namespace Finding

variable {expected t : Text} {document : Json} {n : Notification}

/-- What an accepted document reports is in the finding that is made of it. -/
lemma isTakenFrom (accepted : Notification.check document = .accepted n) {id : Text}
    (found : n.finding.organizationId? = some id) :
    (n.finding.toFinding id).IsTakenFrom document := by
  obtain ⟨fields, reports, fits⟩ := Notification.exists_fits accepted
  have text {key value : Text} (fits : field text (Path.member [] "finding") fields key
      = .accepted value) : Notification.reported? document key = some (.text value) := by
    rw [reports]
    exact text_eq_accepted_iff.mp fits
  have state : Notification.reported? document "state" = some (.text n.finding.state.name) := by
    obtain ⟨t, found, choice⟩ := oneOf_eq_accepted_iff.mp fits.state
    rw [reports, ← FindingState.name_of_choice choice]
    exact found
  have properties : n.finding.sourceProperties =
      (Json.inWalkOrder (Notification.reportedProperties document)).filter
        fun member => member.1 ≠ Text.ofString "__proto__" := by
    rw [Notification.reportedProperties, reports]
    obtain ⟨missing, none⟩ | ⟨members, present, eq⟩ :=
      propertyMembers_eq_accepted_iff.mp fits.sourceProperties
    · rw [missing, none]
      rfl
    · rw [present, eq]
      rfl
  have organization : (Organization.idAmong? (Text.segments Organization.slash n.finding.parent)).or
      (Organization.idAmong? (Text.segments Organization.slash n.finding.resourceName)) =
        some id := by
    rw [← found, ReportedFinding.organizationId?, ← Organization.idOfPath?_eq,
      ← Organization.idOfPath?_eq]
    cases Organization.idOfPath? n.finding.parent <;> rfl
  exact {
    name := text fits.name
    category := text fits.category
    state := state
    resourceName := text fits.resourceName
    createTime := text fits.createTime
    eventTime := text fits.eventTime
    sourceProperties := properties
    organizationId := ⟨n.finding.parent, text fits.parent, organization⟩ }

/-- The category of an accepted document is the one that it reports. -/
lemma reported?_category (accepted : Notification.check document = .accepted n) :
    Notification.reported? document "category" = some (.text n.finding.category) := by
  obtain ⟨fields, reports, fits⟩ := Notification.exists_fits accepted
  rw [reports]
  exact text_eq_accepted_iff.mp fits.category

/-- An organization is found for an accepted document exactly where one of its paths leads through
one. -/
lemma exists_organizationId?_iff (accepted : Notification.check document = .accepted n) :
    (∃ id, n.finding.organizationId? = some id) ↔ Notification.NamesOrganization document := by
  refine ⟨?_, Notification.exists_organizationId? accepted⟩
  rintro ⟨id, found⟩
  obtain ⟨fields, reports, fits⟩ := Notification.exists_fits accepted
  rw [ReportedFinding.organizationId?] at found
  cases above : Organization.idOfPath? n.finding.parent with
  | some other =>
    refine ⟨n.finding.parent, .inl ?_, Organization.leadsThrough_of_idOfPath? above⟩
    rw [reports]
    exact text_eq_accepted_iff.mp fits.parent
  | none =>
    rw [above] at found
    refine ⟨n.finding.resourceName, .inr ?_, Organization.leadsThrough_of_idOfPath? found⟩
    rw [reports]
    exact text_eq_accepted_iff.mp fits.resourceName

/-- A text whose document is accepted is judged by the finding in it. -/
lemma read_of_accepted (expected : Text) (parsed : Json.read? t = some document)
    (accepted : Notification.check document = .accepted n) :
    read expected t = ofReported expected n.finding := by
  simp only [read, Notification.read, parsed, Notification.ofJson, accepted]

/-- A text whose document is rejected is malformed, with the issues of the document. -/
lemma read_of_rejected (expected : Text) (parsed : Json.read? t = some document)
    {issues : List Issue} (rejected : Notification.check document = .rejected issues) :
    read expected t = .error (.problem (.malformedPayload (.schema issues)) .absent) := by
  simp only [read, Notification.read, parsed, Notification.ofJson, rejected,
    Notification.malformed]

/-- A text is judged by the finding that its document was accepted with, or it is malformed because
it holds no document of the format. -/
lemma read_cases (expected t : Text) :
    (∃ document n, Json.read? t = some document ∧ Notification.check document = .accepted n ∧
        read expected t = ofReported expected n.finding) ∨
      (¬ ∃ document, Json.read? t = some document ∧ Notification.Conforms document) ∧
        ∃ defect cause, read expected t = .error (.problem (.malformedPayload defect) cause) := by
  cases parsed : Json.read? t with
  | none =>
    refine .inr ⟨?_, .notJson, .notJson (Json.complaint t), ?_⟩
    · rintro ⟨document, eq, -⟩
      cases eq
    · rw [read, Notification.read, parsed]
      rfl
  | some document =>
    cases judged : Notification.check document with
    | accepted n => exact .inl ⟨document, n, rfl, judged, read_of_accepted expected parsed judged⟩
    | rejected issues =>
      refine .inr ⟨?_, .schema issues, .absent, read_of_rejected expected parsed judged⟩
      rintro ⟨other, eq, conforms⟩
      obtain rfl := Option.some.inj eq
      obtain ⟨n, accepted⟩ := Notification.isAccepted_check_iff.mpr conforms
      rw [judged] at accepted
      cases accepted

/-- A document that was accepted conforms. -/
lemma conforms_of_accepted (accepted : Notification.check document = .accepted n) :
    Notification.Conforms document :=
  Notification.isAccepted_check_iff.mp ⟨n, accepted⟩

/-- A finding is read exactly from a text that holds a document of the format, of the expected
category, one of whose paths leads through an organization. -/
lemma exists_read_iff (expected t : Text) :
    (∃ f, read expected t = .ok f) ↔
      ∃ document, Json.read? t = some document ∧ Notification.Conforms document ∧
        Notification.reported? document "category" = some (.text expected) ∧
        Notification.NamesOrganization document := by
  obtain ⟨document, n, parsed, accepted, eq⟩ | ⟨none, defect, cause, eq⟩ := read_cases expected t
  · have category := reported?_category accepted
    rw [eq, ofReported]
    constructor
    · rintro ⟨f, reached⟩
      split_ifs at reached with other
      have named : ∃ id, n.finding.organizationId? = some id := by
        cases found : n.finding.organizationId? with
        | some id => exact ⟨id, rfl⟩
        | none =>
          rw [found] at reached
          cases reached
      rw [not_not] at other
      rw [other] at category
      exact ⟨document, parsed, conforms_of_accepted accepted, category,
        (exists_organizationId?_iff accepted).mp named⟩
    · rintro ⟨other, again, -, same, names⟩
      obtain rfl : document = other := Option.some.inj (parsed.symm.trans again)
      have agrees : n.finding.category = expected := by
        simpa using category.symm.trans same
      obtain ⟨id, found⟩ := (exists_organizationId?_iff accepted).mpr names
      rw [if_neg (not_not.mpr agrees), found]
      exact ⟨_, rfl⟩
  · rw [eq]
    constructor
    · rintro ⟨f, reached⟩
      cases reached
    · rintro ⟨document, parsed, conforms, -⟩
      exact absurd ⟨document, parsed, conforms⟩ none

/-- A finding that is read is the one of the document. -/
lemma isTakenFrom_of_read {f : Finding} (reached : read expected t = .ok f) :
    ∃ document, Json.read? t = some document ∧ f.IsTakenFrom document := by
  obtain ⟨document, n, parsed, accepted, eq⟩ | ⟨-, defect, cause, eq⟩ := read_cases expected t
  · rw [eq, ofReported] at reached
    split_ifs at reached with other
    cases found : n.finding.organizationId? with
    | some id =>
      rw [found] at reached
      obtain rfl := Except.ok.inj reached
      exact ⟨document, parsed, isTakenFrom accepted found⟩
    | none =>
      rw [found] at reached
      cases reached
  · rw [eq] at reached
    cases reached

/-- The failure says that the category is another one exactly if the document conforms and has that
category, wherever its paths lead. -/
lemma read_eq_unsupported_iff (expected t category : Text) :
    read expected t = .error (.ofProblem (.unsupportedCategory category expected)) ↔
      ∃ document, Json.read? t = some document ∧ Notification.Conforms document ∧
        Notification.reported? document "category" = some (.text category) ∧
        category ≠ expected := by
  obtain ⟨document, n, parsed, accepted, eq⟩ | ⟨none, defect, cause, eq⟩ := read_cases expected t
  · have reported := reported?_category accepted
    rw [eq, ofReported]
    constructor
    · intro failed
      split_ifs at failed with other
      · obtain rfl : n.finding.category = category := by
          simpa [Failure.ofProblem] using failed
        exact ⟨document, parsed, conforms_of_accepted accepted, reported, other⟩
      · cases found : n.finding.organizationId? with
        | some id =>
          rw [found] at failed
          cases failed
        | none =>
          rw [found] at failed
          cases failed
    · rintro ⟨again, same, -, category', other⟩
      obtain rfl : document = again := Option.some.inj (parsed.symm.trans same)
      obtain rfl : n.finding.category = category := by
        simpa using reported.symm.trans category'
      rw [if_pos other]
  · rw [eq]
    constructor
    · intro failed
      cases failed
    · rintro ⟨document, parsed, conforms, -⟩
      exact absurd ⟨document, parsed, conforms⟩ none

/-- Any other failure says that the text is malformed. -/
lemma malformed_of_read {failure : Failure} (failed : read expected t = .error failure) :
    (∃ category, failure = .ofProblem (.unsupportedCategory category expected)) ∨
      ∃ defect cause, failure = .problem (.malformedPayload defect) cause := by
  obtain ⟨document, n, parsed, accepted, eq⟩ | ⟨-, defect, cause, eq⟩ := read_cases expected t
  · rw [eq, ofReported] at failed
    split_ifs at failed with other
    · exact .inl ⟨_, (Except.error.inj failed).symm⟩
    · cases found : n.finding.organizationId? with
      | some id =>
        rw [found] at failed
        cases failed
      | none =>
        rw [found] at failed
        exact .inr ⟨_, _, (Except.error.inj failed).symm⟩
  · rw [eq] at failed
    exact .inr ⟨defect, cause, (Except.error.inj failed).symm⟩

/-- Texts whose documents differ in nothing that the format knows are judged alike. -/
lemma read_eq_of_known {other : Text} {document' : Json} (parsed : Json.read? t = some document)
    (parsed' : Json.read? other = some document')
    (same : Notification.known document = Notification.known document') :
    read expected t = read expected other := by
  have judged : Notification.check document = Notification.check document' := by
    rw [← Notification.check_known document, same, Notification.check_known]
  cases accepts : Notification.check document with
  | accepted n =>
    rw [read_of_accepted expected parsed accepts,
      read_of_accepted expected parsed' (judged.symm.trans accepts)]
  | rejected issues =>
    rw [read_of_rejected expected parsed accepts,
      read_of_rejected expected parsed' (judged.symm.trans accepts)]

/-- **Acceptance.**  A finding is read from a text exactly if it holds a document of the format, of
the expected category, with a path through an organization, and then the finding is the one of the
document.  The failure says that the category is another one exactly if the document is of the format
and its category differs, wherever its paths lead; any other failure says that the text is malformed.
What the format does not know makes no difference to what is read, nor to the failure. -/
theorem read_accepts_format (expected t : Text) :
    ((∃ f, read expected t = .ok f) ↔
        ∃ document, Json.read? t = some document ∧ Notification.Conforms document ∧
          Notification.reported? document "category" = some (.text expected) ∧
          Notification.NamesOrganization document) ∧
      (∀ f, read expected t = .ok f →
        ∃ document, Json.read? t = some document ∧ f.IsTakenFrom document) ∧
      (∀ category,
        read expected t = .error (.ofProblem (.unsupportedCategory category expected)) ↔
          ∃ document, Json.read? t = some document ∧ Notification.Conforms document ∧
            Notification.reported? document "category" = some (.text category) ∧
            category ≠ expected) ∧
      (∀ failure, read expected t = .error failure →
        (∃ category, failure = .ofProblem (.unsupportedCategory category expected)) ∨
          ∃ defect cause, failure = .problem (.malformedPayload defect) cause) ∧
      ∀ other document document', Json.read? t = some document →
        Json.read? other = some document' →
        Notification.known document = Notification.known document' →
        read expected t = read expected other :=
  ⟨exists_read_iff expected t, fun _ reached => isTakenFrom_of_read reached,
    read_eq_unsupported_iff expected t, fun _ failed => malformed_of_read failed,
    fun _ _ _ parsed parsed' same => read_eq_of_known parsed parsed' same⟩

/-! ### A sample -/

/-- The finding of the sample, with some source properties. -/
def sampleFields (properties : Members) : Members :=
  [("name", .text "f"), ("parent", .text "organizations/12"), ("resourceName", .text "r"),
    ("state", .text "ACTIVE"), ("category", .text "c"), ("sourceProperties", .object properties),
    ("eventTime", .text "e"), ("createTime", .text "t")]

/-- A notification of the category `c`, with some source properties and perhaps other members. -/
def sample (others properties : Members) : Json :=
  let configName : Members := [("notificationConfigName", .text "n")]
  let finding : Members := [("finding", .object (sampleFields properties))]
  .object (configName ++ (others ++ finding))

/-- The finding that the sample reports. -/
def sampleFinding (properties : Members) : Finding :=
  ⟨"f", "12", "c", .active, "r", properties, "t", "e"⟩

/-- A property that a scanner may report. -/
def sampleProperties : Members :=
  [("k", .null)]

/-- A property under the key that is left out. -/
def reservedProperties : Members :=
  [("__proto__", .number (.whole 1))]

/-- The sample is read as the finding of its document, whatever other members it has, and is of
another category than `d`. -/
theorem read_accepts_format_sample :
    let plain := sample [] sampleProperties
    let extended := sample [("extra", .null)] sampleProperties
    (∃ f, read "c" plain.render = .ok f ∧ f.IsTakenFrom plain) ∧
      read "d" plain.render = .error (.ofProblem (.unsupportedCategory "c" "d")) ∧
      read "c" plain.render = read "c" extended.render := by
  intro plain extended
  obtain ⟨parsed, parsed', judged⟩ : Json.read? plain.render = some plain ∧
      Json.read? extended.render = some extended ∧
      Notification.check plain = .accepted ⟨"n", "f", "organizations/12", "r", .active, "c", none,
        sampleProperties, none, "e", "t"⟩ := by
    decide +kernel
  have conforms : Notification.Conforms plain := conforms_of_accepted judged
  have category : Notification.reported? plain "category" = some (.text "c") :=
    reported?_category judged
  have names : Notification.NamesOrganization plain :=
    ⟨"organizations/12", .inl (by decide +kernel), [], "12", [], by decide, by decide⟩
  have same : Notification.known plain = Notification.known extended :=
    congrArg Json.object (Json.keepMembers_insert rfl [("notificationConfigName", .text "n")]
      [("finding", .object (sampleFields sampleProperties))] .null).symm
  obtain ⟨accepts, taken, -, -, overlooks⟩ := read_accepts_format "c" plain.render
  obtain ⟨f, reached⟩ := accepts.mpr ⟨plain, parsed, conforms, category, names⟩
  obtain ⟨document, again, takes⟩ := taken f reached
  obtain rfl : plain = document := Option.some.inj (parsed.symm.trans again)
  refine ⟨⟨f, reached, takes⟩, ?_, overlooks extended.render plain extended parsed parsed' same⟩
  exact ((read_accepts_format "d" plain.render).2.2.1 "c").mpr
    ⟨plain, parsed, conforms, category, by decide⟩

/-- A source property under the key that is left out does not come into the finding. -/
theorem reserved_property_is_left_out :
    let document := sample [] reservedProperties
    Json.read? document.render = some document ∧
      read "c" document.render = .ok (sampleFinding []) ∧
      Notification.reportedProperties document = reservedProperties ∧
      ¬ (sampleFinding []).sourceProperties.Perm (Notification.reportedProperties document) := by
  intro document
  obtain ⟨parsed, reached, reported⟩ : Json.read? document.render = some document ∧
      read "c" document.render = .ok (sampleFinding []) ∧
      Notification.reportedProperties document = reservedProperties := by
    decide +kernel
  refine ⟨parsed, reached, reported, fun perm => ?_⟩
  rw [reported] at perm
  exact absurd perm.length_eq (by decide)

end Finding

end PolicyWarden
