import Mathlib.Tactic.Common
import PolicyWarden.Proofs.Dialogue.Counting
import PolicyWarden.Proofs.Dialogue.Rules
import PolicyWarden.Proofs.Intake.Redelivery
import PolicyWarden.Proofs.Remediation.Discipline

/-!
# What has to be known before a policy is touched

Handling an event takes several steps before the gateway is called, and each of them can fail: the
data of the event is decoded and parsed, the state of the finding is looked at, the settings are
read, the configuration is loaded, and the organization must be covered by it.  `Intake.Permits`
says of every query of a handling what must have gone well before it, so that no order of failures
leads to a call that nobody asked for.
-/

namespace PolicyWarden

/-- The query loads a configuration. -/
def Query.isLoading : Query → Bool
  | .configuration => true
  | _ => false

/-- The query is about an organization: it asks for it, or reads or writes its policy. -/
def Query.Concerns (organizationId : Text) : Query → Prop
  | .organization id => id = organizationId
  | .policy resource => resource = Organization.resourceName organizationId
  | .write resource _ _ => resource = Organization.resourceName organizationId
  | _ => False

namespace Plan

variable {plan : Plan}

/-- A plan that is not excluded leaves the choice of resources open, or lists its own. -/
lemma listed_of_not_isExcluded (included : ¬ plan.IsExcluded) :
    plan.configuration.resources = none ∨ plan.configuration.resources = some [] ∨
      ∃ listed, plan.configuration.resources = some listed ∧ plan.resource ∈ listed := by
  rcases resources : plan.configuration.resources with _ | listed
  · exact .inl rfl
  · refine .inr ?_
    by_cases empty : listed = []
    · exact .inl (congrArg some empty)
    · refine .inr ⟨listed, rfl, ?_⟩
      by_contra missing
      exact included ⟨listed, resources, empty, missing⟩

/-- What a history entitles to is about the organization of the plan. -/
lemma Entitles.concerns {h : History} {query : Query} (entitled : plan.Entitles h query)
    (call : query.isGatewayCall = true) : query.Concerns plan.organizationId := by
  cases query with
  | organization id => exact entitled.1
  | policy resource => exact entitled.1
  | write resource policy version => exact entitled.1
  | _ => cases call

end Plan

/-- The event carries the data of a finding of this remediation that is active. -/
structure Event.IsActive (event : Event) (finding : Finding) : Prop where
  carried : ∃ bytes, event.payload = .ok (some bytes) ∧
    Finding.readBytes nonOrgMemberCategory bytes = .ok finding
  category : finding.category = nonOrgMemberCategory
  state : finding.state = .active

namespace Finding

/-- A reported finding is accepted under the expected category only. -/
lemma category_of_ofReported {expected : Text} {reported : ReportedFinding} {finding : Finding}
    (accepted : ofReported expected reported = .ok finding) : finding.category = expected := by
  by_cases other : reported.category ≠ expected
  · rw [ofReported, if_pos other] at accepted
    cases accepted
  · rw [ofReported, if_neg other] at accepted
    cases id : reported.organizationId? with
    | none =>
      rw [id] at accepted
      cases accepted
    | some id' =>
      rw [id] at accepted
      cases accepted
      exact not_not.mp other

/-- What is read as a finding has the expected category. -/
lemma category_of_readBytes {expected : Text} {bytes : Bytes} {finding : Finding}
    (accepted : readBytes expected bytes = .ok finding) : finding.category = expected := by
  rw [readBytes, read] at accepted
  cases notified : Notification.read (Utf8.decode bytes) with
  | error failure =>
    rw [notified] at accepted
    cases accepted
  | ok notification =>
    rw [notified] at accepted
    exact category_of_ofReported accepted

end Finding

namespace Intake

/-! ### Permission -/

/-- What must have gone well before a query.  The configuration is loaded for an active finding
when the settings are known, and only if it was not loaded before.  The gateway is called about the
organization of that finding when the configuration is known as well and does not leave the
organization out. -/
structure Permits (event : Event) (h : History) (query : Query) : Prop where
  loading : query = .configuration →
    (∃ finding settings, event.IsActive finding ∧ ⟨.settings, .ok settings⟩ ∈ h) ∧
      h.count Query.isLoading = 0
  calling : query.isGatewayCall = true → ∃ finding settings configuration,
    event.IsActive finding ∧ ⟨.settings, .ok settings⟩ ∈ h ∧
      ⟨.configuration, .ok configuration⟩ ∈ h ∧
      (configuration.resources = none ∨ configuration.resources = some [] ∨
        ∃ listed, configuration.resources = some listed ∧
          Organization.resourceName finding.organizationId ∈ listed) ∧
      query.Concerns finding.organizationId

variable {event : Event} {finding : Finding} {h : History}

/-- A query that neither loads the configuration nor calls the gateway is always permitted. -/
lemma permits_of_idle {query : Query} (quiet : query.isLoading = false)
    (idle : query.isGatewayCall = false) : Permits event h query := by
  refine ⟨?_, fun call => ?_⟩
  · rintro rfl
    cases quiet
  · rw [idle] at call
    cases call

/-- What an event carries is a finding of this remediation. -/
lemma isActive_of_finding (carried : Intake.finding event = .ok finding)
    (state : finding.state = .active) : event.IsActive finding := by
  rw [Intake.finding] at carried
  rcases payload : event.payload with failure | none | bytes
  · rw [payload] at carried
    cases carried
  · rw [payload] at carried
    cases carried
  · rw [payload] at carried
    exact ⟨⟨bytes, payload, carried⟩, Finding.category_of_readBytes carried, state⟩

/-- A remediation never loads a configuration. -/
lemma isLoading_of_asks_execute {plan : Plan} {k : History} {query : Query}
    (asks : (Remediation.execute .direct plan).Asks k query) : query.isLoading = false := by
  obtain ⟨next, reach⟩ := asks
  let rule : Rule := fun _ query => query.isLoading = false
  have lenient : rule.IsLenient := ⟨fun _ _ _ => rfl, fun _ => rfl, fun _ => rfl⟩
  have direct : Gateway.direct.Obeys rule :=
    Gateway.obeys_direct (fun _ _ => rfl) (fun _ _ => rfl) fun _ _ _ _ => rfl
  exact reach.asks_of_ensures (Remediation.obeys_execute lenient direct plan [])

/-- Once everything is known that has to be, whatever the remediation asks is permitted. -/
lemma ensures_permits_execute {settings : Settings} {configuration : Configuration}
    (active : event.IsActive finding) (settled : ⟨.settings, .ok settings⟩ ∈ h)
    (configured : ⟨.configuration, .ok configuration⟩ ∈ h) (writeAttempts : Option Number) :
    (Remediation.execute .direct ⟨configuration, finding.organizationId, writeAttempts⟩).Ensures
      (Permits event) (fun _ _ => True) h := by
  refine Dialogue.ensures_of_course (fun k query asks => ?_) fun _ _ _ => trivial
  have quiet := isLoading_of_asks_execute asks
  refine ⟨?_, fun call => ?_⟩
  · rintro rfl
    cases quiet
  · obtain ⟨next, reach⟩ := asks
    have orders := reach.asks_of_ensures (Remediation.ensures_orders _) call
    exact ⟨finding, settings, configuration, active, List.mem_append_left k settled,
      List.mem_append_left k configured, Plan.listed_of_not_isExcluded orders.included,
      orders.entitled.concerns call⟩

/-- Remediating what an active finding asks for asks only what is permitted. -/
lemma ensures_permits_remediate (active : event.IsActive finding)
    (unloaded : h.count Query.isLoading = 0) :
    (remediate .direct finding).Ensures (Permits event) (fun _ _ => True) h := by
  have known (settings : Settings) : ⟨.settings, .ok settings⟩ ∈ h ++ [⟨.settings, .ok settings⟩] :=
    List.mem_append_right h List.mem_cons_self
  refine ensures_remediate (permits_of_idle rfl rfl) (fun settings => ?_)
    (fun _ _ => permits_of_idle rfl rfl) fun settings configuration => ?_
  · refine ⟨fun _ => ⟨⟨finding, settings, active, known settings⟩, ?_⟩, fun call => ?_⟩
    · rw [History.count_append, unloaded]
      rfl
    · cases call
  · rw [Attempt.next, Dialogue.awaited, Dialogue.ensures_bind, Dialogue.ensures_bind]
    have executed := ensures_permits_execute active
      (List.mem_append_left [⟨.invoke settings.timeout, .ok ()⟩]
        (List.mem_append_left [⟨.configuration, .ok configuration⟩] (known settings)))
      (List.mem_append_left _ (List.mem_append_right _ List.mem_cons_self))
      (some settings.writeAttempts)
    refine executed.imp (fun _ _ permitted => permitted) fun k result _ => ?_
    refine ⟨permits_of_idle rfl rfl, fun _ => ?_⟩
    rcases result with _ | outcome
    · trivial
    · exact ⟨permits_of_idle rfl rfl, fun _ => trivial⟩

/-- Processing an event asks only what is permitted. -/
lemma ensures_permits_process (unloaded : h.count Query.isLoading = 0) :
    (process .direct event).Ensures (Permits event) (fun _ _ => True) h := by
  rw [process]
  cases carried : Intake.finding event with
  | error failure => trivial
  | ok finding =>
    refine ⟨permits_of_idle rfl rfl, fun _ => ⟨permits_of_idle rfl rfl, fun _ => ?_⟩⟩
    cases state : finding.state with
    | inactive => exact ⟨permits_of_idle rfl rfl, fun _ => trivial⟩
    | active =>
      refine ensures_permits_remediate (isActive_of_finding carried state) ?_
      rw [History.count_append, History.count_append, unloaded]
      rfl

/-- Handling an event asks only what is permitted. -/
lemma ensures_permits_handle (event : Event) :
    (handle .direct event).Ensures (Permits event) (fun _ _ => True) [] := by
  exact ensures_handle (permits_of_idle rfl rfl) (ensures_permits_process rfl)
    (fun _ => permits_of_idle rfl rfl) (fun _ _ _ => permits_of_idle rfl rfl)
    fun _ => permits_of_idle rfl rfl

/-- **No call without authority.**  Handling an event over any gateway is handling it over the
direct one with that gateway in the place of its queries.  Whatever is replied, each query is
permitted when it is asked: the gateway is called only about the organization of an active finding
of this remediation that the event itself carries, after the settings were read and a configuration
was loaded that does not leave the organization out.  The configuration is loaded at most once, and
only for such a finding and with the settings at hand. -/
theorem handle_asks_only_permitted (event : Event) :
    (∀ gateway, handle gateway event = (handle .direct event).through gateway) ∧
      (∀ h query, (handle .direct event).Asks h query → Permits event h query) ∧
      ∀ h rest, (handle .direct event).Reaches h rest → h.count Query.isLoading ≤ 1 := by
  have permitted {k : History} {query : Query} (asks : (handle .direct event).Asks k query) :
      Permits event k query := by
    obtain ⟨next, reach⟩ := asks
    exact reach.asks_of_ensures (ensures_permits_handle event)
  refine ⟨fun gateway => handle_eq_through gateway event, fun k query asks => permitted asks,
    fun h rest reach => ?_⟩
  refine reach.count_le fun k query asks loads => ?_
  cases query with
  | configuration =>
    rw [((permitted asks).loading rfl).2]
    exact Nat.one_pos
  | _ => cases loads

/-- The gateway is called for an active finding if nothing stands against it. -/
lemma asks_organization (carried : Intake.finding event = .ok finding)
    (state : finding.state = .active) (settings : Settings) (configuration : Configuration)
    (covers : configuration.covers (Organization.resourceName finding.organizationId) = true) :
    (handle .direct event).Asks
      [⟨.retain .eventId event.recordedId, ()⟩, ⟨.retain .findingName (.text finding.name), ()⟩,
        ⟨.record (.received finding), ()⟩, ⟨.settings, .ok settings⟩,
        ⟨.configuration, .ok configuration⟩, ⟨.invoke settings.timeout, .ok ()⟩]
      (.organization finding.organizationId) := by
  let plan : Plan := ⟨configuration, finding.organizationId, some settings.writeAttempts⟩
  obtain ⟨next, first⟩ : (Attempt.next (Remediation.execute .direct plan).awaited conclude).Asks []
      (.organization finding.organizationId) := by
    refine Attempt.asks_next_iff.mpr (.inl (Dialogue.asks_awaited_iff.mpr (.inl ?_)))
    have covered : plan.configuration.covers plan.resource = true := covers
    rw [Remediation.execute, if_pos covered]
    exact ⟨_, .here _⟩
  refine Dialogue.asks_ask_iff.mpr (.inr ⟨(), _, rfl, ?_⟩)
  refine Dialogue.asks_bind_iff.mpr (.inl (Dialogue.asks_awaited_iff.mpr (.inl ?_)))
  rw [process, carried]
  dsimp only
  rw [follow, state]
  exact ⟨next, .ask _ <| .ask _ <| .ask _ <| .ask _ <| .ask _ first⟩

/-- An event with an active finding leads to a call that is permitted. -/
theorem handle_asks_only_permitted_active :
    ∃ h query, (handle .direct Rehearsal.World.activeEvent).Asks h query ∧
      query.isGatewayCall = true ∧ Permits Rehearsal.World.activeEvent h query ∧
      h.count Query.isLoading = 1 := by
  let settings : Settings := ⟨Settings.defaultTimeout, Settings.defaultWriteAttempts⟩
  have asks := asks_organization Rehearsal.World.finding_activeEvent rfl settings ⟨[], none⟩ rfl
  exact ⟨_, _, asks, rfl, (handle_asks_only_permitted _).2.1 _ _ asks, rfl⟩

end Intake

end PolicyWarden
