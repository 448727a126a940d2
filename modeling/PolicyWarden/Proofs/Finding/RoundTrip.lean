import PolicyWarden.Intake
import PolicyWarden.Proofs.Json.RoundTrip
import PolicyWarden.Proofs.Organization
import PolicyWarden.Proofs.Schema.Check
import PolicyWarden.Proofs.Text.Base64

/-!
# Notifications delivered

A notification goes from its scanner to the intake through three formats: its document is printed as
JSON, the text is encoded in UTF-8, and the bytes are written in base64.  Each format is undone by
its reader, so the intake judges the document that was sent, with the numbers that its numerals
denote.  The schema looks at no number, so it accepts this document as it accepted the other one
(`Notification.Fits`), and the finding is the one that was reported
(`Intake.finding_of_document`).
-/

namespace PolicyWarden

open Schema

/-! ### Documents that fit the schema -/

/-- The fields of an object are those of a reported finding, each as its check accepts it. -/
structure ReportedFinding.Fits (path : Path) (fields : Members) (r : ReportedFinding) : Prop where
  name : field text path fields "name" = .accepted r.name
  parent : field text path fields "parent" = .accepted r.parent
  resourceName : field text path fields "resourceName" = .accepted r.resourceName
  state : field (oneOf FindingState.choices) path fields "state" = .accepted r.state
  category : field text path fields "category" = .accepted r.category
  externalUri : field (optional text) path fields "externalUri" = .accepted r.externalUri
  sourceProperties :
    field propertyMembers path fields "sourceProperties" = .accepted r.sourceProperties
  securityMarks :
    field (optional SecurityMarks.check) path fields "securityMarks" = .accepted r.securityMarks
  eventTime : field text path fields "eventTime" = .accepted r.eventTime
  createTime : field text path fields "createTime" = .accepted r.createTime

namespace ReportedFinding

/-- An object is accepted as a finding exactly if its fields are those of the finding. -/
lemma check_eq_accepted_iff {path : Path} {part : Option Json} {r : ReportedFinding} :
    check path part = .accepted r ↔ ∃ fields, part = some (.object fields) ∧ Fits path fields r := by
  simp only [check, Checked.bind_eq_accepted_iff, record_eq_accepted_iff,
    Checked.apply_eq_accepted_iff, Checked.map_eq_accepted_iff]
  refine exists_congr fun fields => and_congr_right fun _ => ⟨?_, fun fits => ?_⟩
  · rintro ⟨_, createTime, ⟨_, eventTime, ⟨_, marks, ⟨_, properties, ⟨_, uri, ⟨_, category,
      ⟨_, state, ⟨_, resource, ⟨_, parent, ⟨name, hname, rfl⟩, hparent, rfl⟩, hresource, rfl⟩,
      hstate, rfl⟩, hcategory, rfl⟩, huri, rfl⟩, hproperties, rfl⟩, hmarks, rfl⟩, hevent, rfl⟩,
      hcreate, rfl⟩
    exact ⟨hname, hparent, hresource, hstate, hcategory, huri, hproperties, hmarks, hevent, hcreate⟩
  · exact ⟨_, r.createTime, ⟨_, r.eventTime, ⟨_, r.securityMarks, ⟨_, r.sourceProperties,
      ⟨_, r.externalUri, ⟨_, r.category, ⟨_, r.state, ⟨_, r.resourceName, ⟨_, r.parent,
      ⟨r.name, fits.name, rfl⟩, fits.parent, rfl⟩, fits.resourceName, rfl⟩, fits.state, rfl⟩,
      fits.category, rfl⟩, fits.externalUri, rfl⟩, fits.sourceProperties, rfl⟩,
      fits.securityMarks, rfl⟩, fits.eventTime, rfl⟩, fits.createTime, rfl⟩

end ReportedFinding

/-- A document is accepted exactly if it is an object with the name of a configuration and a
finding. -/
lemma Notification.check_eq_accepted_iff {document : Json} {n : Notification} :
    check document = .accepted n ↔
      ∃ members, document = .object members ∧
        field text [] members "notificationConfigName" = .accepted n.configName ∧
        field ReportedFinding.check [] members "finding" = .accepted n.finding := by
  simp only [check, Checked.bind_eq_accepted_iff, record_eq_accepted_iff,
    Checked.apply_eq_accepted_iff, Checked.map_eq_accepted_iff, Option.some.injEq]
  refine exists_congr fun members => and_congr_right fun _ => ⟨?_, fun fits => ?_⟩
  · rintro ⟨_, finding, ⟨name, hname, rfl⟩, hfinding, rfl⟩
    exact ⟨hname, hfinding⟩
  · exact ⟨_, n.finding, ⟨n.configName, fits.1, rfl⟩, fits.2, rfl⟩

/-- Source properties are the members of an object in walking order without the key that is left
out, and none if they are missing. -/
lemma propertyMembers_eq_accepted_iff {path : Path} {part : Option Json} {properties : Members} :
    propertyMembers path part = .accepted properties ↔
      part = none ∧ properties = [] ∨
        ∃ members, part = some (.object members) ∧
          properties = (Json.inWalkOrder members).filter
            fun member => member.1 ≠ Text.ofString "__proto__" := by
  have whole (walk values : Members) :
      walk.map (fun member => (anyValue (path.member member.1) (some member.2)).map
        fun v => (member.1, v)) = values.map .accepted ↔ walk = values := by
    have self : walk.map (fun member => (anyValue (path.member member.1) (some member.2)).map
        fun v => (member.1, v)) = walk.map .accepted := List.map_congr_left fun _ _ => rfl
    rw [self]
    exact List.map_inj_right fun _ _ => Checked.accepted.inj
  simp only [propertyMembers, Checked.map_eq_accepted_iff, optional_eq_accepted_iff, recordOf,
    Checked.bind_eq_accepted_iff, record_eq_accepted_iff, Checked.all_eq_accepted_iff, whole]
  constructor
  · rintro ⟨_, ⟨rfl, rfl⟩ | ⟨_, _, rfl, ⟨members, same, _, rfl, rfl⟩, rfl⟩, rfl⟩
    · exact .inl ⟨rfl, rfl⟩
    · exact .inr ⟨members, same, rfl⟩
  · rintro (⟨rfl, rfl⟩ | ⟨members, rfl, rfl⟩)
    · exact ⟨none, .inl ⟨rfl, rfl⟩, rfl⟩
    · exact ⟨_, .inr ⟨_, _, rfl, ⟨members, rfl, _, rfl, rfl⟩, rfl⟩, rfl⟩

/-! ### Mapped numbers -/

section Carried

variable {f : Number → Json}

/-- A field is carried like its check. -/
lemma Schema.Carries.field {α : Type} {h : α → α} {check : Path → Option Json → Checked α}
    (carries : Carries f h check) {path : Path} {members : Members} {key : Text} {value : α}
    (accepted : field check path members key = .accepted value) :
    PolicyWarden.field check path (Json.mapMembers f members) key = .accepted (h value) := by
  rw [PolicyWarden.field, Json.lookup_mapMembers]
  exact carries _ _ _ accepted

/-- Security marks have no numbers. -/
lemma carries_securityMarks : Carries f id SecurityMarks.check := by
  intro path part marks accepted
  simp only [SecurityMarks.check, Checked.bind_eq_accepted_iff, record_eq_accepted_iff,
    Checked.apply_eq_accepted_iff, Checked.map_eq_accepted_iff] at accepted ⊢
  obtain ⟨members, rfl, _, marks, ⟨name, hname, rfl⟩, hmarks, rfl⟩ := accepted
  have texts := carries_text.recordOf.optional.field (f := f) hmarks
  have same : Option.map (List.map fun entry : Text × Text => (entry.1, id entry.2)) marks = marks := by
    cases marks <;> simp
  rw [same] at texts
  exact ⟨_, rfl, _, marks, ⟨name, carries_text.field hname, rfl⟩, texts, rfl⟩

/-- The numbers of source properties are mapped. -/
lemma carries_propertyMembers : Carries f (Json.mapMembers f) propertyMembers := by
  intro path part properties accepted
  rw [propertyMembers_eq_accepted_iff] at accepted ⊢
  obtain ⟨rfl, rfl⟩ | ⟨members, rfl, rfl⟩ := accepted
  · exact .inl ⟨rfl, rfl⟩
  · refine .inr ⟨Json.mapMembers f members, rfl, ?_⟩
    rw [Json.inWalkOrder_mapMembers, Json.mapMembers_eq_map, Json.mapMembers_eq_map,
      List.filter_map]
    rfl

/-- A finding with the numbers of its source properties mapped. -/
def ReportedFinding.mapNumbers (f : Number → Json) (r : ReportedFinding) : ReportedFinding :=
  { r with sourceProperties := Json.mapMembers f r.sourceProperties }

/-- A finding is accepted with mapped numbers. -/
lemma carries_reportedFinding : Carries f (ReportedFinding.mapNumbers f) ReportedFinding.check := by
  intro path part r accepted
  rw [ReportedFinding.check_eq_accepted_iff] at accepted ⊢
  obtain ⟨fields, rfl, fits⟩ := accepted
  refine ⟨Json.mapMembers f fields, rfl, ?_⟩
  exact {
    name := carries_text.field fits.name
    parent := carries_text.field fits.parent
    resourceName := carries_text.field fits.resourceName
    state := (carries_oneOf _).field fits.state
    category := carries_text.field fits.category
    externalUri := by
      have uri := carries_text.optional.field (f := f) fits.externalUri
      rwa [Option.map_id] at uri
    sourceProperties := carries_propertyMembers.field fits.sourceProperties
    securityMarks := by
      have marks := carries_securityMarks.optional.field (f := f) fits.securityMarks
      rwa [Option.map_id] at marks
    eventTime := carries_text.field fits.eventTime
    createTime := carries_text.field fits.createTime }

/-- A notification is accepted with mapped numbers. -/
lemma Notification.check_mapNumbers {document : Json} {n : Notification}
    (accepted : check document = .accepted n) :
    check (document.mapNumbers f) = .accepted { n with finding := n.finding.mapNumbers f } := by
  rw [check_eq_accepted_iff] at accepted ⊢
  obtain ⟨members, rfl, name, finding⟩ := accepted
  exact ⟨_, rfl, carries_text.field name, carries_reportedFinding.field finding⟩

end Carried

/-! ### Findings as they were reported -/

namespace Notification

/-- The member that the finding of a document has under a key. -/
def reported? (document : Json) (key : Text) : Option Json :=
  (document.get? "finding").bind fun finding => finding.get? key

/-- The source properties that a document reports; missing ones are none. -/
def reportedProperties (document : Json) : Members :=
  ((reported? document "sourceProperties").map Json.members).getD []

end Notification

/-- The finding says what the document reports.  The source properties may stand in another order,
and a zero has lost its sign. -/
structure Finding.IsReportedBy (f : Finding) (document : Json) : Prop where
  name : Notification.reported? document "name" = some (.text f.name)
  category : Notification.reported? document "category" = some (.text f.category)
  state : Notification.reported? document "state" = some (.text f.state.name)
  resourceName : Notification.reported? document "resourceName" = some (.text f.resourceName)
  createTime : Notification.reported? document "createTime" = some (.text f.createTime)
  eventTime : Notification.reported? document "eventTime" = some (.text f.eventTime)
  sourceProperties : f.sourceProperties.Perm
    (Json.mapMembers (fun n => .number n.unsignedZero) (Notification.reportedProperties document))

/-- The state of an accepted finding is reported by its name. -/
lemma FindingState.name_of_choice {t : Text} {state : FindingState}
    (choice : (choices.find? fun choice => choice.1 = t).map Prod.snd = some state) :
    t = state.name := by
  obtain ⟨entry, found, rfl⟩ := Option.map_eq_some_iff.mp choice
  have key : entry.1 = t := by simpa using List.find?_some found
  have member := List.mem_of_find?_eq_some found
  rw [← key]
  simp only [choices, List.mem_cons, List.not_mem_nil, or_false] at member
  obtain rfl | rfl := member <;> rfl

namespace Notification

variable {document : Json} {n : Notification}

/-- What a document reports is what its finding was accepted with. -/
lemma exists_fits (accepted : check document = .accepted n) :
    ∃ fields, (∀ key, reported? document key = Json.lookup key fields) ∧
      ReportedFinding.Fits (Path.member [] "finding") fields n.finding := by
  obtain ⟨members, rfl, -, finding⟩ := check_eq_accepted_iff.mp accepted
  obtain ⟨fields, found, fits⟩ := ReportedFinding.check_eq_accepted_iff.mp finding
  refine ⟨fields, fun key => ?_, fits⟩
  rw [reported?, Json.get?, Json.members, found]
  rfl

/-- The finding that was accepted, with the numbers of its properties mapped, is the reported one,
if no property has the key that is left out and all numbers in the properties are exact integers. -/
lemma isReportedBy (accepted : check document = .accepted n) (id : Text)
    (keys : ∀ member ∈ reportedProperties document, member.1 ≠ Text.ofString "__proto__")
    (integers : ∀ member ∈ reportedProperties document,
      ∀ x ∈ member.2.numbers, x.IsExactInteger) :
    ((n.finding.mapNumbers Number.written).toFinding id).IsReportedBy document := by
  obtain ⟨fields, reports, fits⟩ := exists_fits accepted
  have text {key value : Text} (fits : field text (Path.member [] "finding") fields key
      = .accepted value) : reported? document key = some (.text value) := by
    rw [reports]
    exact text_eq_accepted_iff.mp fits
  have state : reported? document "state" = some (.text n.finding.state.name) := by
    obtain ⟨t, found, choice⟩ := oneOf_eq_accepted_iff.mp fits.state
    rw [reports, ← FindingState.name_of_choice choice]
    exact found
  have properties : (Json.mapMembers Number.written n.finding.sourceProperties).Perm
      (Json.mapMembers (fun n => .number n.unsignedZero) (reportedProperties document)) := by
    have exact' : Json.mapMembers Number.written (reportedProperties document)
        = Json.mapMembers (fun n => .number n.unsignedZero) (reportedProperties document) := by
      have object := Json.mapNumbers_congr (v := .object (reportedProperties document))
        (f := Number.written) (g := fun n => .number n.unsignedZero) fun x mem => by
          rw [Json.numbers, Json.numbersOfMembers_eq_flatMap, List.mem_flatMap] at mem
          obtain ⟨member, inside, mem⟩ := mem
          exact Number.written_of_isExactInteger (integers member inside x mem)
      simpa only [Json.mapNumbers, Json.object.injEq] using object
    rw [← exact']
    obtain ⟨missing, none⟩ | ⟨members, present, eq⟩ :=
      propertyMembers_eq_accepted_iff.mp fits.sourceProperties
    · have reported : reportedProperties document = [] := by
        rw [reportedProperties, reports, missing]
        rfl
      rw [reported, none]
    · have reported : reportedProperties document = members := by
        rw [reportedProperties, reports, present]
        rfl
      have all : (Json.inWalkOrder members).filter
          (fun member => member.1 ≠ Text.ofString "__proto__") = Json.inWalkOrder members := by
        refine List.filter_eq_self.mpr fun member mem => ?_
        have inside : member ∈ reportedProperties document := by
          rw [reported]
          exact (Json.inWalkOrder_perm members).mem_iff.mp mem
        simpa using keys member inside
      rw [reported, eq, all, Json.mapMembers_eq_map, Json.mapMembers_eq_map]
      exact (Json.inWalkOrder_perm members).map _
  exact {
    name := text fits.name
    category := text fits.category
    state := state
    resourceName := text fits.resourceName
    createTime := text fits.createTime
    eventTime := text fits.eventTime
    sourceProperties := properties }

/-- A document that was printed and encoded is judged as it was, with the numbers that its numerals
denote. -/
lemma read_decode_encode_render (accepted : check document = .accepted n)
    (regular : ∀ x ∈ document.numbers, x.IsRegular) (distinct : document.HasDistinctKeys) :
    read (Utf8.decode (Utf8.encode document.render))
      = .ok { n with finding := n.finding.mapNumbers Number.written } := by
  rw [Json.decode_encode_render regular, read, Json.read?_render regular distinct]
  simp only [ofJson, check_mapNumbers accepted]

end Notification

/-- The paths of a document lead to an organization. -/
def Notification.NamesOrganization (document : Json) : Prop :=
  ∃ path, (reported? document "parent" = some (.text path) ∨
    reported? document "resourceName" = some (.text path)) ∧ Organization.LeadsThrough path

/-- The organization of an accepted finding is found where one of its paths leads through it. -/
lemma Notification.exists_organizationId? {document : Json} {n : Notification}
    (accepted : check document = .accepted n) (names : NamesOrganization document) :
    ∃ id, n.finding.organizationId? = some id := by
  obtain ⟨fields, reports, fits⟩ := exists_fits accepted
  obtain ⟨path, place, leads⟩ := names
  obtain ⟨id, found⟩ := leads.exists_idOfPath?
  have at' {key value : Text} (reported : reported? document key = some (.text path))
      (fits : field text (Path.member [] "finding") fields key = .accepted value) :
      path = value := by
    rw [reports, text_eq_accepted_iff.mp fits] at reported
    exact (Json.text.inj (Option.some.inj reported)).symm
  unfold ReportedFinding.organizationId?
  rcases place with parent | resource
  · obtain rfl := at' parent fits.parent
    exact ⟨id, by rw [found]⟩
  · obtain rfl := at' resource fits.resourceName
    cases n.finding.parent |> Organization.idOfPath? with
    | some other => exact ⟨other, rfl⟩
    | none => exact ⟨id, found⟩

/-- **A finding arrives as it was reported.**  Whatever document fits the schema, is of the expected
category and leads to an organization: printed as JSON, encoded in UTF-8 and written in base64, it
is taken from the event that carries it as the finding that it reports.  Its texts may hold any
units, and its source properties any values whose numbers are exact integers. -/
theorem Intake.finding_of_document {document : Json} {n : Notification}
    (accepted : Notification.check document = .accepted n)
    (regular : ∀ x ∈ document.numbers, x.IsRegular) (distinct : document.HasDistinctKeys)
    (category : Notification.reported? document "category" = some (.text nonOrgMemberCategory))
    (organization : Notification.NamesOrganization document)
    (keys : ∀ member ∈ Notification.reportedProperties document,
      member.1 ≠ Text.ofString "__proto__")
    (integers : ∀ member ∈ Notification.reportedProperties document,
      ∀ x ∈ member.2.numbers, x.IsExactInteger)
    {event : Event}
    (carries : event.data = some (.text (Base64.encode (Utf8.encode document.render)))) :
    ∃ f, Intake.finding event = .ok f ∧ f.IsReportedBy document := by
  obtain ⟨id, found⟩ := Notification.exists_organizationId? accepted organization
  refine ⟨(n.finding.mapNumbers Number.written).toFinding id, ?_,
    Notification.isReportedBy accepted id keys integers⟩
  have same : n.finding.category = nonOrgMemberCategory := by
    have reported := (Notification.isReportedBy accepted id keys integers).category
    rw [category] at reported
    exact (Json.text.inj (Option.some.inj reported)).symm
  have notEmpty : Base64.encode (Utf8.encode document.render) ≠ [] := by
    intro empty
    have whole := Json.decode_encode_render regular
    rw [Base64.encode_eq_nil_iff.mp empty] at whole
    obtain ⟨members, rfl, -⟩ := Notification.check_eq_accepted_iff.mp accepted
    rw [Json.render, Json.write] at whole
    cases whole
  have truthy : Json.isTruthy (.text (Base64.encode (Utf8.encode document.render))) = true := by
    simp [Json.isTruthy, notEmpty]
  have payload : event.payload = .ok (some (Utf8.encode document.render)) := by
    rw [Event.payload, carries, Option.filter_some, if_pos truthy]
    simp [Event.bytesOf, Except.map]
  have read := Notification.read_decode_encode_render accepted regular distinct
  simp only [Intake.finding, payload, Finding.readBytes, Finding.read, read, Finding.ofReported]
  rw [if_neg (by simpa [ReportedFinding.mapNumbers] using same)]
  have organizationId : (n.finding.mapNumbers Number.written).organizationId? = some id := found
  rw [organizationId]

/-- Source properties of many kinds: their last text has surrogates without partner, and they do not
stand in walking order. -/
def Notification.specimenProperties : Members :=
  [("10", .array [.null, .bool true, .object [("9", .number .negativeZero), ("", .array [])]]),
    ("9", .number (.whole (-9007199254740991))),
    ("späť", .text (Text.ofString "\u0001\t𝄞/" ++ [0xDC00, 0xD834]))]

/-- The finding with these properties. -/
def Notification.specimenFinding : ReportedFinding where
  name := "organizations/12/sources/3/findings/\"f\\\n"
  parent := "folders/organizations/x"
  resourceName := "//cloudresourcemanager/organizations/12/projects"
  state := .inactive
  category := nonOrgMemberCategory
  externalUri := none
  sourceProperties := Json.inWalkOrder specimenProperties
  securityMarks := none
  eventTime := "2024-01-02T03:04:05Z"
  createTime := ""

/-- The document of this finding, with a member that no schema knows. -/
def Notification.specimen : Json :=
  .object [
    ("notificationConfigName", .text "organizations/12/notificationConfigs/scc"),
    ("resource", .object [("score", .array [.number (.dyadic true 3602879701896397 55)])]),
    ("finding", .object [
      ("name", .text specimenFinding.name),
      ("parent", .text specimenFinding.parent),
      ("resourceName", .text specimenFinding.resourceName),
      ("state", .text "INACTIVE"),
      ("category", .text "NON_ORG_IAM_MEMBER"),
      ("sourceProperties", .object specimenProperties),
      ("eventTime", .text specimenFinding.eventTime),
      ("createTime", .text specimenFinding.createTime)])]

/-- The specimen arrives as it was reported. -/
theorem Intake.finding_of_specimen :
    ∃ f, Intake.finding ⟨none,
        some (.text (Base64.encode (Utf8.encode Notification.specimen.render))), none⟩ = .ok f ∧
      f.IsReportedBy Notification.specimen := by
  obtain ⟨accepted, regular, distinct, category, path, segments, digits, keys, integers⟩ :
      Notification.check Notification.specimen =
        .accepted ⟨"organizations/12/notificationConfigs/scc", Notification.specimenFinding⟩ ∧
      (∀ x ∈ Notification.specimen.numbers, x.IsRegular) ∧
      Notification.specimen.HasDistinctKeys ∧
      Notification.reported? Notification.specimen "category"
        = some (.text nonOrgMemberCategory) ∧
      Notification.reported? Notification.specimen "resourceName"
        = some (.text Notification.specimenFinding.resourceName) ∧
      Text.segments Organization.slash Notification.specimenFinding.resourceName
        = [Text.ofString "", "", "cloudresourcemanager"] ++
          Organization.announcement :: Text.ofString "12" :: [Text.ofString "projects"] ∧
      Text.isDigits "12" = true ∧
      (∀ member ∈ Notification.reportedProperties Notification.specimen,
        member.1 ≠ Text.ofString "__proto__") ∧
      (∀ member ∈ Notification.reportedProperties Notification.specimen,
        ∀ x ∈ member.2.numbers, x.IsExactInteger) := by
    decide +kernel
  exact Intake.finding_of_document accepted regular distinct category
    ⟨_, .inr path, _, _, _, segments, digits⟩ keys integers rfl

end PolicyWarden
