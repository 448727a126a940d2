import PolicyWarden.Gateway.Deadline
import PolicyWarden.Rehearsal.World

/-!
# How the world answers

Each query changes the world and gets a reply, at once or later, or is left waiting.  The store
answers as a gateway does that checks the invocation first; the service answers by its scripts.
-/

namespace PolicyWarden

namespace Rehearsal

/-- The world after a query, the run that asked it, and how far the query has come. -/
structure Answered (ρ : Type) where
  world : World
  run : Run
  progress : Progress ρ

namespace World

variable {α : Type}

/-! ### Standing -/

/-- The invocation of a run. -/
def invocation? (w : World) (run : Run) : Option Invocation :=
  run.invocation.bind w.timeline.invocation?

/-- The standing of the invocation of a run; without one it may not go on. -/
def standing (w : World) (run : Run) : Standing :=
  match w.invocation? run with
  | some invocation => invocation.standing (w.timeline.now + w.standingOffset)
  | none => .expired .absent

/-- The reason for which the signal of a run has been raised. -/
def raised? (w : World) (run : Run) : Option Failure :=
  (w.invocation? run).bind Invocation.reason

/-! ### Journal -/

/-- Write entries into the journal. -/
def recordAll (w : World) (entries : List Entry) : World :=
  { w with journal := w.journal ++ entries.map fun entry => ⟨entry, w.keys⟩ }

/-- Keep a value beside all later entries. -/
def retain (w : World) (key : JournalKey) (value : Json) : World :=
  { w with keys := (w.keys.filter fun kept => kept.1 ≠ key) ++ [(key, value)] }

/-- Keep the values of some keys no longer. -/
def release (w : World) (keys : List JournalKey) : World :=
  { w with keys := w.keys.filter fun kept => !keys.contains kept.1 }

/-! ### Settings and configurations -/

/-- The settings of the moment. -/
def readSettings (w : World) : Except Failure Settings :=
  match w.settings with
  | some settings => .ok settings
  | none => Settings.read w.environment

/-- Load a configuration and record that. -/
def loadConfiguration (w : World) (path : Option Text) :
    World × Except Failure LoadedConfiguration :=
  let load := w.library.load w.environment path
  ({ w with library := load.library }.recordAll load.entries, load.result)

/-! ### Invocations -/

/-- Open an invocation. -/
def invoke (w : World) (timeout : Number) : World × Except Failure Unit :=
  match w.timeline.openInvocation timeout w.deadlineOffset with
  | .ok timeline => ({ w with timeline := timeline }, .ok ())
  | .error failure => (w, .error failure)

/-- The run with the newest invocation, if one was opened. -/
def joinNewest (w : World) (run : Run) : Run :=
  { run with invocation := w.timeline.newest? }

/-! ### The store -/

/-- The failure of an operation that has been broken down. -/
def breakdown? (w : World) (operation : Operation) : Option Failure :=
  ((w.desk.failures.find? fun entry => entry.1 = operation).map (·.2)).filter Failure.isTruthy

/-- Ask for an operation of the store. -/
def enter (w : World) (run : Run) (operation : Operation) (stage : Stage) (resource : Text) :
    World × Except Failure Unit :=
  let counted := { w with desk := { w.desk with calls := w.desk.calls ++ [operation] } }
  (counted,
    match w.standing run with
    | .expired reason => .error (Deadline.exceeded stage (some resource) reason)
    | .active _ =>
        match w.breakdown? operation with
        | some failure => .error failure
        | none => .ok ())

/-- An organization is not in the store. -/
def unknownOrganization (id : Text) : Failure :=
  .error (Organization.resourceName id ++ " not found")

/-- The store is asked for an organization. -/
def deskOrganization (w : World) (run : Run) (id : Text) : World × Except Failure Organization :=
  match w.enter run .organization .fetchOrganization (Organization.resourceName id) with
  | (w, .error failure) => (w, .error failure)
  | (w, .ok _) =>
      match w.desk.store.organization? id with
      | some organization => (w, .ok organization)
      | none => (w, .error (unknownOrganization id))

/-- What happens after a reading. -/
def afterRead (w : World) : World :=
  { w with desk := { w.desk with afterRead := w.desk.afterRead.tail } }.actAll
    (w.desk.afterRead.headD [])

/-- What happens before a write is looked at. -/
def beforeWrite (w : World) : World :=
  { w with desk := { w.desk with beforeWrite := w.desk.beforeWrite.tail } }.actAll
    (w.desk.beforeWrite.headD [])

/-- The store is asked for a policy. -/
def deskPolicy (w : World) (run : Run) (resource : Text) :
    World × Except Failure VersionedPolicy :=
  match w.enter run .policy .fetchPolicy resource with
  | (w, .error failure) => (w, .error failure)
  | (w, .ok _) => (w.afterRead, .ok (w.desk.store.fetch resource))

/-- Note a write that reached the store. -/
def noteWrite (w : World) (write : RecordedWrite) : World :=
  { w with desk := { w.desk with writes := w.desk.writes ++ [write] } }

/-- The store is asked to replace a policy. -/
def deskWrite (w : World) (run : Run) (resource : Text) (policy : Policy) (version : Text) :
    World × Except Failure Unit :=
  match w.enter run .write .writePolicy resource with
  | (w, .error failure) => (w, .error failure)
  | (w, .ok _) =>
      let ready := (w.noteWrite ⟨resource, policy, version⟩).beforeWrite
      match ready.desk.store.write? resource policy version with
      | some store => (ready.mapStore fun _ => store, .ok ())
      | none => (ready, .error (.ofProblem (.concurrentModification resource)))

/-! ### The service -/

/-- The service has no script for a call. -/
def noReply : Failure :=
  .error "no reply"

/-- Note a call that reached the service. -/
def noteCall (w : World) (call : Service.Call) (timeout : Option Nat) : World :=
  { w with requests := w.requests ++ [⟨call, timeout⟩] }

/-- Follow the script of a call. -/
def perform (w : World) (run : Run) : Option (Script α) → Answered (Race α)
  | none => ⟨w, run, .soon (.settled (.error noReply))⟩
  | some script =>
      let after := w.actAll script.during
      ⟨after, run, script.conduct.race (after.raised? run)⟩

/-- The service is called. -/
def serve (w : World) (run : Run) : (call : Service.Call) → Answered (Race call.Reply)
  | .organization _ =>
      let desk := { w.service with organizations := laterScripts w.service.organizations }
      { w with service := desk }.perform run w.service.organizations.head?
  | .policy _ _ =>
      let desk := { w.service with policies := laterScripts w.service.policies }
      { w with service := desk }.perform run w.service.policies.head?
  | .write _ =>
      let desk := { w.service with writes := laterScripts w.service.writes }
      { w with service := desk }.perform run w.service.writes.head?

/-- An errand is run.  One that is over at once cannot be told to settle any more. -/
def runErrand (w : World) (run : Run) : Answered (Race (Option Json)) :=
  let answered := w.perform run run.errand
  match answered.progress, run.name with
  | .now _, _ | _, none => answered
  | _, some name =>
      let named := (name, run.number) :: answered.world.named
      { answered with world := { answered.world with named := named } }

/-! ### All queries -/

/-- A reply at once. -/
def replied {ρ : Type} (run : Run) (answer : World × ρ) : Answered ρ :=
  ⟨answer.1, run, .now answer.2⟩

/-- Answer a query of a run. -/
def answer (w : World) (run : Run) : (query : Query) → Answered query.Reply
  | .record entry => replied run (w.recordAll [entry], ())
  | .retain key value => replied run (w.retain key value, ())
  | .release keys => replied run (w.release keys, ())
  | .settings => replied run (w, w.readSettings)
  | .configuration =>
      let loaded := w.loadConfiguration none
      replied run (loaded.1, loaded.2.map LoadedConfiguration.configuration)
  | .invoke timeout =>
      let invoked := w.invoke timeout
      replied (invoked.1.joinNewest run) invoked
  | .standing => replied run (w, w.standing run)
  | .organization id => replied run (w.deskOrganization run id)
  | .policy resource => replied run (w.deskPolicy run resource)
  | .write resource policy version => replied run (w.deskWrite run resource policy version)
  | .call call timeout => (w.noteCall call timeout).serve run call
  | .errand _ => w.runErrand run
  | .pause => ⟨w, run, .soon ()⟩

end World

end Rehearsal

end PolicyWarden
