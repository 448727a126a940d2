import PolicyWarden.Configuration.Library
import PolicyWarden.Dialogue.Basic
import PolicyWarden.Gateway.Basic
import PolicyWarden.Rehearsal.Script
import PolicyWarden.Store

/-!
# The rehearsed world

The world holds everything that a dialogue can ask for: time, environment, files, journal, a store
and a scripted service.  Dialogues that wait for a call are kept with what they go on with; when the
signal of their invocation is raised they wake up, and are resumed when their turn comes.
-/

namespace PolicyWarden

namespace Rehearsal

/-! ### Answers -/

/-- What a finished dialogue or action gives back. -/
inductive Answer where
  /-- An action took place. -/
  | acted
  /-- There is nothing to give back. -/
  | nothing
  /-- An invocation was opened. -/
  | opened (deadline : Instant)
  /-- The time that an invocation has left, if it is known. -/
  | remaining (millis : Option Nat) (aborted : Bool)
  /-- The value of a call, if it has one, and the milliseconds that it was given, if known. -/
  | returned (value : Option Json) (timeout : Option Nat)
  /-- The value with which a call was told to settle, if there was one. -/
  | value (value : Option Json)
  | organization (organization : Organization)
  | policy (policy : VersionedPolicy)
  | outcome (outcome : Outcome)
  | configuration (loaded : LoadedConfiguration)
  /-- A call was told to settle, if it was ever made. -/
  | told (known : Bool)
  deriving DecidableEq, Repr

/-- An answer or a failure. -/
abbrev Report := Except Failure Answer

/-! ### Runs -/

/-- What belongs to one run of a dialogue. -/
structure Run where
  /-- The number of the run. -/
  number : Nat
  /-- The current invocation. -/
  invocation : Option Nat
  /-- The script of its errand. -/
  errand : Option (Script (Option Json)) := none
  /-- The name under which its errand can be told to settle. -/
  name : Option Text := none
  /-- The number under which it is reported as pending, once it has had to wait. -/
  pending : Option Nat := none

/-- A run that waits for the reply to a query. -/
structure Waiting where
  run : Run
  query : Query
  next : query.Reply → Dialogue Report

/-- A run that can go on. -/
structure Awake where
  run : Run
  dialogue : Dialogue Report

/-! ### Parts of the world -/

/-- An entry of the journal with the values that were kept at its time. -/
structure Record where
  entry : Entry
  keys : List (JournalKey × Json)
  deriving DecidableEq, Repr

/-- A write that reached the store, accepted or not. -/
structure RecordedWrite where
  resource : Text
  policy : Policy
  version : Text
  deriving DecidableEq, Repr

/-- A call that reached the service. -/
structure RecordedCall where
  call : Service.Call
  timeout : Option Nat
  deriving DecidableEq, Repr

/-- The store together with what goes on around it. -/
structure StoreDesk where
  store : Store := .empty
  /-- The operations that were asked for. -/
  calls : List Operation := []
  writes : List RecordedWrite := []
  failures : List (Operation × Failure) := []
  /-- What happens after the next readings. -/
  afterRead : List (List Action) := []
  /-- What happens before the next writes are looked at. -/
  beforeWrite : List (List Action) := []

/-- The scripts of the service. -/
structure ServiceDesk where
  organizations : List (Script (Except Void Service.OrganizationReply)) := []
  policies : List (Script (Except Void Service.PolicyReply)) := []
  writes : List (Script Unit) := []

/-- Everything that a dialogue can ask for. -/
structure World where
  timeline : Timeline := .start
  /-- How far the clock that sets deadlines is ahead. -/
  deadlineOffset : Int := 0
  /-- How far the clock that checks deadlines is ahead. -/
  standingOffset : Int := 0
  environment : Environment := []
  /-- Settings that take the place of those in the environment. -/
  settings : Option Settings := none
  library : ConfigurationLibrary := .ofFiles "/work" []
  gateway : Gateway := .direct
  desk : StoreDesk := {}
  service : ServiceDesk := {}
  keys : List (JournalKey × Json) := []
  /-- The journal since it was last taken away. -/
  journal : List Record := []
  /-- The calls of the service since they were last taken away. -/
  requests : List RecordedCall := []
  /-- The runs that have been started. -/
  runs : Nat := 0
  /-- The runs that have had to wait. -/
  pendings : Nat := 0
  waiting : List Waiting := []
  awake : List Awake := []
  /-- The errands with a name, the newest first, each with its run. -/
  named : List (Text × Nat) := []
  /-- The reports of runs that had to wait, since they were last taken away. -/
  reports : List (Nat × Report) := []

namespace World

/-! ### Waking up -/

/-- The reply of an abort to a query that waits: the end of a race in which nothing happened
before. -/
def abortReply? (reason : Failure) : (query : Query) → Option query.Reply
  | .call _ _ => (Contest.pending.hear reason).winner?
  | .errand _ => (Contest.pending.hear reason).winner?
  | _ => none

/-- The reply of a settled errand to a query that waits. -/
def settleReply? (result : Except Failure (Option Json)) : (query : Query) → Option query.Reply
  | .errand _ => (Contest.pending.settle result).winner?
  | _ => none

/-- Wake up the waiting runs that are chosen and have a reply. -/
def wake (w : World) (chosen : Run → Bool)
    (reply? : (query : Query) → Option query.Reply) : World :=
  let awakened := w.waiting.filterMap fun waiting =>
    if chosen waiting.run then
      (reply? waiting.query).map fun reply => ⟨waiting.run, waiting.next reply⟩
    else none
  let left := w.waiting.filter fun waiting =>
    !(chosen waiting.run && (reply? waiting.query).isSome)
  { w with waiting := left, awake := w.awake ++ awakened }

/-- Wake up the runs of an invocation whose signal was raised. -/
def wakeInvocation (reason : Failure) (w : World) (number : Nat) : World :=
  w.wake (fun run => run.invocation = some number) (abortReply? reason)

/-! ### Actions -/

/-- Raise the signal of the newest invocation, unless that has been done. -/
def abortNewest (w : World) (reason : Failure) : World :=
  match w.timeline.newest? with
  | some number =>
      let aborted := { w with timeline := w.timeline.abort number reason }
      if (w.timeline.invocation? number).any Invocation.aborted then aborted
      else aborted.wakeInvocation reason number
  | none => w

/-- Let time pass and fire the timers that are due. -/
def advance (w : World) (millis : Int) : World :=
  let due := (w.timeline.stall millis).dueNumbers
  due.foldl (wakeInvocation timeoutReason) { w with timeline := w.timeline.advance millis }

/-- Change the store. -/
def mapStore (w : World) (f : Store → Store) : World :=
  { w with desk := { w.desk with store := f w.desk.store } }

/-- Let something happen. -/
def act (w : World) : Action → World
  | .advance millis => w.advance millis
  | .stall millis => { w with timeline := w.timeline.stall millis }
  | .abort reason => w.abortNewest (abortReason reason)
  | .putPolicy resource policy => w.mapStore fun s => s.put resource policy
  | .addOrganization organization => w.mapStore fun s => s.addOrganization organization
  | .breakDown operation failure =>
      { w with desk := { w.desk with failures := (operation, failure) :: w.desk.failures } }
  | .putFile location file => { w with library := w.library.putFile location file }
  | .setEnvironment environment => { w with environment := environment }
  | .clearConfigurations => { w with library := w.library.clear }

/-- Let several things happen. -/
def actAll (w : World) (actions : List Action) : World :=
  actions.foldl act w

end World

end Rehearsal

end PolicyWarden
