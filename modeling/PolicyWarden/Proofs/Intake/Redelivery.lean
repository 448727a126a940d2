import Mathlib.Tactic.Common
import PolicyWarden.Proofs.Intake.Handling

/-!
# Redelivery of events

Events are delivered at least once and in no particular order.  In a quiet world each event comes
down to at most one purging, and events about one organization purge the same resource under the
same allowance; so all that matters about a list of events is which events it contains.
-/

namespace PolicyWarden

/-- The name of an organization tells its id. -/
lemma Organization.resourceName_injective {id other : Text}
    (same : Organization.resourceName id = Organization.resourceName other) : id = other :=
  List.append_cancel_left same

namespace Rehearsal

/-! ### Purgings of many events -/

namespace Surroundings

variable {s : Surroundings}

/-- What a purging of an organization says about its surroundings. -/
lemma purging?_eq_some {id : Text} {p : Text × Allowance} (purging : s.purging? id = some p) :
    ∃ organization configuration, s.organization? id = some organization ∧
      s.configuration = .ok configuration ∧
      p = (Organization.resourceName id, ⟨organization.domain, configuration.allowDomains⟩) := by
  unfold purging? Plan.purging? at purging
  split at purging
  · split at purging
    · split at purging
      · obtain ⟨organization, found, rfl⟩ := Option.map_eq_some_iff.mp purging
        exact ⟨organization, _, found, by assumption, rfl⟩
      · cases purging
    · cases purging
  · cases purging

/-- An event asks for the purging of an organization. -/
lemma purgingOf?_eq_some {event : Except Void Event} {p : Text × Allowance}
    (purging : s.purgingOf? event = some p) : ∃ id, s.purging? id = some p := by
  unfold purgingOf? at purging
  split at purging
  · split at purging
    · split at purging
      · exact ⟨_, purging⟩
      · cases purging
    · cases purging
  · cases purging

/-- Whatever events ask for, each resource is purged under one allowance only. -/
lemma agree_purgings (s : Surroundings) (events : List (Except Void Event)) :
    Store.Agree (events.filterMap s.purgingOf?) := by
  intro p memp q memq same
  obtain ⟨event, -, asks⟩ := List.mem_filterMap.mp memp
  obtain ⟨other, -, asks'⟩ := List.mem_filterMap.mp memq
  obtain ⟨id, purging⟩ := purgingOf?_eq_some asks
  obtain ⟨id', purging'⟩ := purgingOf?_eq_some asks'
  obtain ⟨_, _, -, -, eq⟩ := purging?_eq_some purging
  obtain ⟨_, _, -, -, eq'⟩ := purging?_eq_some purging'
  have ids : id = id' := by
    refine Organization.resourceName_injective ?_
    rw [eq, eq'] at same
    exact same
  rw [ids, purging'] at purging
  exact congrArg Prod.snd (Option.some.inj purging).symm

end Surroundings

/-! ### Handling many events -/

namespace World

variable {w : World}

/-- The world after events were handled one after another. -/
def handleAll (w : World) (events : List (Except Void Event)) : World :=
  events.foldl (fun w event => (w.step (.event event)).1) w

/-- A quiet world handles an event as its account says. -/
lemma step_event_fst (quiet : w.IsQuiet) (event : Except Void Event) :
    (w.step (.event event)).1 = (w.solo (Intake.receive .direct event)).world := by
  obtain ⟨result, reached⟩ : ∃ result,
      (w.solo (Intake.receive .direct event)).value? = some result :=
    exists_value_alone (Intake.isPrompt_receive event)
  show (w.attempt (Intake.receive w.gateway event) fun _ => .nothing).1 = _
  rw [quiet.direct, attempt_eq_solo quiet.calm reached]

/-- Handling an event leaves the world quiet and does the purging that the event asks for. -/
lemma stays_step_event (quiet : w.IsQuiet) (event : Except Void Event) :
    w.Stays (w.step (.event event)).1 ∧
      (w.step (.event event)).1.desk.store =
        w.desk.store.purgeAll (w.surroundings.purgingOf? event).toList := by
  have started : w.Stays { w with runs := w.runs + 1 } :=
    ⟨quiet.congr rfl rfl rfl rfl rfl rfl, rfl⟩
  rw [step_event_fst quiet]
  refine ⟨started.trans (started.quiet.alone (Intake.isPrompt_receive event)), ?_⟩
  exact Intake.store_receive started.quiet event

/-- Handling events does the purgings that they ask for, each in the surroundings that all of them
find. -/
lemma store_handleAll (quiet : w.IsQuiet) (events : List (Except Void Event)) :
    (w.handleAll events).desk.store =
      w.desk.store.purgeAll (events.filterMap w.surroundings.purgingOf?) := by
  induction events generalizing w with
  | nil => rfl
  | cons event events ih =>
    obtain ⟨stays, store⟩ := stays_step_event quiet event
    have rest := ih stays.quiet
    rw [store, stays.surroundings_eq] at rest
    refine rest.trans ?_
    rw [← Store.purgeAll_append]
    cases asks : w.surroundings.purgingOf? event with
    | none => rw [List.filterMap_cons_none asks]; rfl
    | some purging => rw [List.filterMap_cons_some asks]; rfl

/-- The configuration of the surroundings is one that the library loads. -/
lemma exists_loaded {configuration : Configuration}
    (configured : w.surroundings.configuration = .ok configuration) :
    ∃ loaded, (w.library.load w.environment none).result = .ok loaded ∧
      loaded.configuration = configuration := by
  unfold surroundings at configured
  cases load : (w.library.load w.environment none).result with
  | error failure =>
    rw [load] at configured
    cases configured
  | ok loaded =>
    rw [load] at configured
    exact ⟨loaded, rfl, Except.ok.inj configured⟩

/-- **Redelivery and reordering.**  Events that are handled in a quiet world may come in any order
and any number: lists with the same events leave every resource with the same policy and the same
tag.  Each resource is left untouched, or it is the one of a known organization and has the purge of
the policy that it had at first, under the next tag. -/
theorem handleAll_eq_of_same_events (quiet : w.IsQuiet) (events others : List (Except Void Event))
    (same : ∀ event, event ∈ events ↔ event ∈ others) (resource : Text) :
    (w.handleAll events).desk.store.stored? resource =
        (w.handleAll others).desk.store.stored? resource ∧
      ((w.handleAll events).desk.store.stored? resource = w.desk.store.stored? resource ∨
        ∃ id organization loaded, resource = Organization.resourceName id ∧
          w.desk.store.organization? id = some organization ∧
          (w.library.load w.environment none).result = .ok loaded ∧
          let before := w.desk.store.stored resource
          let allowance : Allowance := ⟨organization.domain, loaded.configuration.allowDomains⟩
          (w.handleAll events).desk.store.stored? resource =
            some ⟨(before.policy.purge allowance).policy, before.etag + 1⟩) := by
  let purgings := events.filterMap w.surroundings.purgingOf?
  have agree : Store.Agree purgings := Surroundings.agree_purgings _ events
  have congruent : ∀ p, p ∈ purgings ↔ p ∈ others.filterMap w.surroundings.purgingOf? := by
    intro p
    rw [List.mem_filterMap, List.mem_filterMap]
    exact exists_congr fun event => and_congr_left fun _ => same event
  rw [store_handleAll quiet events, store_handleAll quiet others]
  refine ⟨Store.stored?_purgeAll_congr agree congruent resource, ?_⟩
  by_cases purged : ∃ a, (resource, a) ∈ purgings
  · obtain ⟨a, mem⟩ := purged
    rw [Store.stored?_purgeAll_of_mem agree mem, Stored.purged]
    by_cases clean : ((w.desk.store.stored resource).policy.purge a).removals = []
    · exact .inl (if_pos clean)
    · obtain ⟨event, -, asks⟩ := List.mem_filterMap.mp mem
      obtain ⟨id, purging⟩ := Surroundings.purgingOf?_eq_some asks
      obtain ⟨organization, configuration, found, configured, eq⟩ :=
        Surroundings.purging?_eq_some purging
      obtain ⟨rfl, rfl⟩ := Prod.mk.inj eq
      obtain ⟨loaded, load, rfl⟩ := exists_loaded configured
      exact .inr ⟨id, organization, loaded, rfl, found, load, if_neg clean⟩
  · refine .inl (Store.stored?_purgeAll_of_not_mem ?_)
    rintro ⟨r, a⟩ mem rfl
    exact purged ⟨a, mem⟩

/-! ### An event that comes twice -/

/-- A notification of an active finding in the organization `1`. -/
def activeDocument : Text :=
  ("\x7b\"notificationConfigName\":\"c\",\"finding\":\x7b\"name\":\"f\"," : Text) ++
    "\"parent\":\"organizations/1/sources/2\",\"resourceName\":\"r\",\"state\":\"ACTIVE\"," ++
    "\"category\":\"NON_ORG_IAM_MEMBER\",\"eventTime\":\"t\",\"createTime\":\"t\"\x7d\x7d"

/-- An event that carries the notification byte by byte. -/
def activeEvent : Event :=
  ⟨none, some (.array (activeDocument.map fun u => .number (.whole u.toNat))), none⟩

/-- The finding that the event carries. -/
def activeFinding : Finding :=
  ⟨"f", "1", nonOrgMemberCategory, .active, "r", [], "t", "t"⟩

/-- The event carries its finding. -/
lemma finding_activeEvent : Intake.finding activeEvent = .ok activeFinding := by
  decide +kernel

/-- A world with an organization, its policy and a plain configuration. -/
def plainWorld : World where
  library :=
    ⟨"/work", [], [("/work/config.json", ⟨⟨[], none⟩, 0⟩)], 1⟩
  desk :=
    { store := (Store.empty.addOrganization Remediation.plainOrganization).put
        Remediation.plainPlan.resource Remediation.mixedPolicy }

/-- An event that comes twice, with an empty one in between, purges the policy once. -/
theorem handleAll_eq_of_same_events_twice :
    let events : List (Except Void Event) :=
      [.ok activeEvent, .ok ⟨none, none, none⟩, .ok activeEvent]
    let others : List (Except Void Event) := [.ok ⟨none, none, none⟩, .ok activeEvent]
    let resource := Remediation.plainPlan.resource
    plainWorld.IsQuiet ∧ (∀ event, event ∈ events ↔ event ∈ others) ∧
      (plainWorld.handleAll events).desk.store.stored? resource =
        (plainWorld.handleAll others).desk.store.stored? resource ∧
      (plainWorld.handleAll others).desk.store.stored? resource =
        some ⟨⟨[⟨"owner", ["user:a@c"], []⟩], []⟩, 2⟩ := by
  intro events others resource
  have quiet : plainWorld.IsQuiet := ⟨rfl, ⟨rfl, rfl⟩, rfl, rfl, rfl⟩
  have same : ∀ event, event ∈ events ↔ event ∈ others := by
    intro event
    simp only [events, others, List.mem_cons, List.not_mem_nil, or_false]
    tauto
  refine ⟨quiet, same, (handleAll_eq_of_same_events quiet events others same resource).1, ?_⟩
  decide +kernel

end World

end Rehearsal

end PolicyWarden
