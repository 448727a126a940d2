import Mathlib.Tactic.Common
import PolicyWarden.Proofs.Remediation.Commitment
import PolicyWarden.Proofs.Remediation.Undisturbed

/-!
# Handling one event

In a quiet world an event comes down to at most one purging.  Which one it is depends on the event
and on the surroundings only, never on the policies in the store: an event that cannot be read, one
of another category, an inactive finding, bad settings or an unusable configuration, an organization
that is unknown or not covered, and a time limit that is up at once all ask for none.
-/

namespace PolicyWarden

namespace Rehearsal

/-! ### The purging that an event asks for -/

namespace Surroundings

/-- The standing of an invocation that is opened with a time limit; one that cannot be opened may
not go on. -/
def standing (s : Surroundings) (timeout : Number) : Standing :=
  match readTimeout timeout with
  | .ok millis =>
      let opened := Timeline.opened { now := s.now, invocations := [] } millis s.deadlineOffset
      opened.standing (s.now + s.standingOffset)
  | .error failure => .expired failure

/-- The organization with an id. -/
def organization? (s : Surroundings) (id : Text) : Option Organization :=
  s.organizations.find? fun organization => organization.id = id

/-- The purging of an organization, if it is known and covered, and there is time for it. -/
def purging? (s : Surroundings) (id : Text) : Option (Text × Allowance) :=
  match s.settings, s.configuration with
  | .ok settings, .ok configuration =>
      match s.standing settings.timeout with
      | .active _ =>
          Plan.purging? ⟨configuration, id, some settings.writeAttempts⟩ (s.organization? id)
      | .expired _ => none
  | _, _ => none

/-- The purging that an event asks for: that of the organization of an active finding. -/
def purgingOf? (s : Surroundings) : Except Void Event → Option (Text × Allowance)
  | .ok event =>
      match Intake.finding event with
      | .ok finding =>
          match finding.state with
          | .active => s.purging? finding.organizationId
          | .inactive => none
      | .error _ => none
  | .error _ => none

end Surroundings

end Rehearsal

/-! ### One event -/

namespace Intake

open Rehearsal Rehearsal.World

variable {w : World} {run : Run}

/-- Remediating what a finding asks for never waits. -/
lemma isPrompt_remediate (finding : Finding) : (remediate .direct finding).IsPrompt := by
  have asked {query : Query} (prompt : query.isPrompt = true) : (Dialogue.query query).IsPrompt :=
    ⟨prompt, fun _ => trivial⟩
  refine Dialogue.IsPrompt.next (asked rfl) fun settings => ?_
  refine Dialogue.IsPrompt.next (asked rfl) fun configuration => ?_
  refine Dialogue.IsPrompt.next (asked rfl) fun _ => ?_
  exact (Remediation.isPrompt_execute _).awaited.next fun _ => ⟨rfl, fun _ => trivial⟩

/-- Processing an event never waits. -/
lemma isPrompt_process (event : Event) : (process .direct event).IsPrompt := by
  unfold process
  cases finding event with
  | error failure => trivial
  | ok finding =>
    refine ⟨rfl, fun _ => ⟨rfl, fun _ => ?_⟩⟩
    cases finding.state with
    | active => exact isPrompt_remediate finding
    | inactive => exact ⟨rfl, fun _ => trivial⟩

/-- Wrapping up never waits. -/
lemma isPrompt_wrapUp (event : Event) (result : Except Failure Unit) :
    (wrapUp event result).IsPrompt := by
  cases result with
  | ok _ => exact ⟨rfl, fun _ => trivial⟩
  | error failure =>
    rw [wrapUp]
    cases failureEntry event failure with
    | ok entry => exact ⟨rfl, fun _ => ⟨rfl, fun _ => trivial⟩⟩
    | error undescribed => exact ⟨rfl, fun _ => trivial⟩

/-- Handling an event never waits. -/
lemma isPrompt_receive (event : Except Void Event) : (receive .direct event).IsPrompt := by
  cases event with
  | error void => trivial
  | ok event =>
    exact ⟨rfl, fun _ => (isPrompt_process event).awaited.bind (isPrompt_wrapUp event)⟩

/-- Giving the keys back leaves the store alone. -/
lemma store_release (result : Except Failure Unit) :
    (alone (release result) run w).world.desk.store = w.desk.store := by
  rw [release, world_alone_andThen rfl]
  rfl

/-- Wrapping up leaves the store alone. -/
lemma store_wrapUp (event : Event) (result : Except Failure Unit) :
    (alone (wrapUp event result) run w).world.desk.store = w.desk.store := by
  cases result with
  | ok _ => exact store_release (.ok ())
  | error failure =>
    rw [wrapUp]
    cases failureEntry event failure with
    | ok entry =>
      show (alone (.andThen (.record entry) (release (answer failure))) run w).world.desk.store = _
      rw [world_alone_andThen rfl]
      exact store_release (answer failure)
    | error undescribed => exact store_release (.error undescribed)

/-- A dialogue that waits for a prompt one goes on in the world that the latter leaves. -/
lemma exists_world_alone_awaited {α β : Type} {d : Dialogue α} (prompt : d.IsPrompt)
    (next : α → Dialogue β) :
    ∃ value, (alone (d.awaited.bind next) run w).world =
      (alone (next value) (alone d run w).run (alone d run w).world).world := by
  obtain ⟨value, reached⟩ : ∃ value, (alone d run w).value? = some value :=
    exists_value_alone prompt
  refine ⟨value, ?_⟩
  rw [Dialogue.awaited, Dialogue.bind_assoc, world_alone_bind reached]
  exact world_alone_andThen rfl

/-- Concluding leaves the store as the attempt left it. -/
lemma store_conclude {a : Attempt Outcome} (prompt : a.IsPrompt) :
    (alone (Attempt.next a.awaited conclude) run w).world.desk.store =
      (alone a run w).world.desk.store := by
  obtain ⟨result, eq⟩ : ∃ result, (alone (Attempt.next a.awaited conclude) run w).world =
      (alone (Attempt.next (.done result) conclude) (alone a run w).run
        (alone a run w).world).world :=
    exists_world_alone_awaited prompt _
  rw [eq]
  cases result with
  | ok outcome =>
    show (alone (.andThen (.record (.finished outcome)) (Attempt.ok ())) _ _).world.desk.store = _
    rw [world_alone_andThen rfl]
    rfl
  | error failure => rfl

/-- What comes of opening an invocation stands as the surroundings say. -/
lemma invoke_cases (w : World) (run : Run) (timeout : Number) :
    (∃ failure, (w.invoke timeout).2 = .error failure ∧
        w.surroundings.standing timeout = .expired failure) ∨
      (w.invoke timeout).2 = .ok () ∧
        (w.invoke timeout).1.standing ((w.invoke timeout).1.joinNewest run) =
          w.surroundings.standing timeout := by
  unfold invoke Timeline.openInvocation Surroundings.standing
  cases read : readTimeout timeout with
  | error failure => exact .inl ⟨failure, rfl, rfl⟩
  | ok millis =>
    refine .inr ⟨rfl, ?_⟩
    let invocations := w.timeline.invocations
    let opened := w.timeline.opened millis w.deadlineOffset
    let after : World := { w with
      timeline := { w.timeline with invocations := invocations ++ [opened] } }
    have newest : after.timeline.newest? = some invocations.length := by
      simp [Timeline.newest?, after]
    have found : after.invocation? (after.joinNewest run) = some opened := by
      show after.timeline.newest?.bind after.timeline.invocation? = some opened
      rw [newest]
      exact List.getElem?_concat_length
    show after.standing (after.joinNewest run) = _
    rw [World.standing, found]
    rfl

/-- An attempt that begins with a query goes on with the reply. -/
lemma world_alone_next {α β : Type} (query : Query) {reply : query.Reply} {f : α → Attempt β}
    (result : query.Reply → Except Failure α)
    (replied : (w.answer run query).progress.reply? = some reply) :
    (alone (Attempt.next (.ask query fun r => .done (result r)) f) run w).world =
      (alone (Attempt.next (.done (result reply)) f) (w.answer run query).run
        (w.answer run query).world).world := by
  rw [Attempt.next, Dialogue.bind_ask, alone_ask replied, world_after]
  rfl

section Opened

variable {settings : Settings} {configuration : Configuration} {organizationId : Text}

/-- Carrying out the plan under an invocation that was just opened purges what the surroundings
say. -/
lemma store_execute_opened (quiet : w.IsQuiet) (settled : w.surroundings.settings = .ok settings)
    (configured : w.surroundings.configuration = .ok configuration)
    (stands : w.standing run = w.surroundings.standing settings.timeout) :
    (alone (Remediation.execute .direct
      ⟨configuration, organizationId, some settings.writeAttempts⟩) run w).world.desk.store =
      w.desk.store.purgeAll (w.surroundings.purging? organizationId).toList := by
  unfold Surroundings.purging?
  rw [settled, configured]
  cases standing : w.standing run with
  | expired reason =>
    rw [Remediation.store_execute_of_expired standing]
    dsimp only
    rw [← stands, standing]
    rfl
  | active left =>
    rw [Remediation.store_execute_of_active quiet standing]
    dsimp only
    rw [← stands, standing]
    rfl

/-- Opening an invocation and carrying out the plan purges what the surroundings say. -/
lemma store_invoke_next (quiet : w.IsQuiet) (settled : w.surroundings.settings = .ok settings)
    (configured : w.surroundings.configuration = .ok configuration) :
    (alone (Attempt.next (.query (.invoke settings.timeout)) fun _ =>
      Attempt.next (Remediation.execute .direct
        ⟨configuration, organizationId, some settings.writeAttempts⟩).awaited conclude) run
          w).world.desk.store =
      w.desk.store.purgeAll (w.surroundings.purging? organizationId).toList := by
  let after := (w.invoke settings.timeout).1
  have stays : w.Stays after := quiet.answer run (.invoke settings.timeout) rfl
  have store : after.desk.store = w.desk.store := congrArg (·.store) (desk_invoke settings.timeout)
  refine (congrArg (·.desk.store) (world_alone_next (.invoke settings.timeout) id rfl)).trans ?_
  show (alone (Attempt.next (.done (w.invoke settings.timeout).2) _) (after.joinNewest run)
    after).world.desk.store = _
  rcases invoke_cases w run settings.timeout with ⟨failure, refused, standing⟩ | ⟨opened, standing⟩
  · have nothing : w.surroundings.purging? organizationId = none := by
      unfold Surroundings.purging?
      rw [settled, configured]
      dsimp only
      rw [standing]
    rw [refused, nothing]
    exact store
  · let plan : Plan := ⟨configuration, organizationId, some settings.writeAttempts⟩
    rw [opened]
    show (alone (Attempt.next (Remediation.execute .direct plan).awaited conclude)
      (after.joinNewest run) after).world.desk.store = _
    rw [store_conclude (Remediation.isPrompt_execute plan), ← stays.surroundings_eq, ← store]
    rw [← stays.surroundings_eq] at settled configured standing
    exact store_execute_opened stays.quiet settled configured standing

/-- Loading the configuration and going on purges what the surroundings say. -/
lemma store_configuration_next (quiet : w.IsQuiet)
    (settled : w.surroundings.settings = .ok settings) :
    (alone (Attempt.next (.query .configuration) fun configuration =>
      Attempt.next (.query (.invoke settings.timeout)) fun _ =>
        Attempt.next (Remediation.execute .direct
          ⟨configuration, organizationId, some settings.writeAttempts⟩).awaited conclude) run
            w).world.desk.store =
      w.desk.store.purgeAll (w.surroundings.purging? organizationId).toList := by
  let after := (w.loadConfiguration none).1
  have stays : w.Stays after := quiet.answer run .configuration rfl
  refine (congrArg (·.desk.store) (world_alone_next .configuration id rfl)).trans ?_
  show (alone (Attempt.next (.done w.surroundings.configuration) _) run after).world.desk.store = _
  cases configured : w.surroundings.configuration with
  | error failure =>
    have nothing : w.surroundings.purging? organizationId = none := by
      unfold Surroundings.purging?
      rw [settled, configured]
    rw [nothing]
    rfl
  | ok configuration =>
    rw [← stays.surroundings_eq] at settled configured ⊢
    exact store_invoke_next stays.quiet settled configured

end Opened

/-- A remediation that a finding asks for purges what the surroundings say. -/
lemma store_remediate (quiet : w.IsQuiet) (finding : Finding) :
    (alone (remediate .direct finding) run w).world.desk.store =
      w.desk.store.purgeAll (w.surroundings.purging? finding.organizationId).toList := by
  refine (congrArg (·.desk.store) (world_alone_next .settings id rfl)).trans ?_
  show (alone (Attempt.next (.done w.surroundings.settings) _) run w).world.desk.store = _
  cases settled : w.surroundings.settings with
  | error failure =>
    have nothing : w.surroundings.purging? finding.organizationId = none := by
      unfold Surroundings.purging?
      rw [settled]
    rw [nothing]
    rfl
  | ok settings => exact store_configuration_next quiet settled

/-- Following a finding purges what the surroundings say, if it is active. -/
lemma store_follow (quiet : w.IsQuiet) (finding : Finding) :
    (alone (follow .direct finding) run w).world.desk.store =
      w.desk.store.purgeAll (match finding.state with
        | .active => w.surroundings.purging? finding.organizationId
        | .inactive => none).toList := by
  let noted := (w.retain .findingName (.text finding.name)).recordAll [.received finding]
  have stays : w.Stays noted := by
    have retained : w.Stays (w.retain .findingName (.text finding.name)) :=
      quiet.answer run (.retain .findingName (.text finding.name)) rfl
    exact retained.trans (retained.quiet.answer run (.record (.received finding)) rfl)
  rw [follow, world_alone_andThen rfl, world_alone_andThen rfl]
  cases finding.state with
  | active => exact (store_remediate stays.quiet finding).trans (by rw [stays.surroundings_eq]; rfl)
  | inactive =>
    dsimp only
    rw [world_alone_andThen rfl]
    rfl

/-- **One event.**  Handling an event in a quiet world does the purging that it asks for in the
surroundings, and nothing else to the store. -/
theorem store_receive (quiet : w.IsQuiet) (event : Except Void Event) :
    (alone (receive .direct event) run w).world.desk.store =
      w.desk.store.purgeAll (w.surroundings.purgingOf? event).toList := by
  cases event with
  | error void => rfl
  | ok event =>
    let noted := w.retain .eventId event.recordedId
    have stays : w.Stays noted := quiet.answer run (.retain .eventId event.recordedId) rfl
    obtain ⟨result, eq⟩ : ∃ result, (alone ((process .direct event).awaited.bind (wrapUp event)) run
        noted).world = (alone (wrapUp event result) (alone (process .direct event) run noted).run
          (alone (process .direct event) run noted).world).world :=
      exists_world_alone_awaited (isPrompt_process event) (wrapUp event)
    rw [receive, handle, world_alone_andThen rfl]
    refine (congrArg (·.desk.store) eq).trans ?_
    rw [store_wrapUp, process, Surroundings.purgingOf?]
    cases finding event with
    | error failure => rfl
    | ok finding =>
      dsimp only
      rw [store_follow stays.quiet finding, stays.surroundings_eq]
      cases finding.state <;> rfl

end Intake

end PolicyWarden
