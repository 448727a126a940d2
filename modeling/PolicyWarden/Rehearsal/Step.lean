import PolicyWarden.Gateway.Service
import PolicyWarden.Intake
import PolicyWarden.Rehearsal.Running

/-!
# Steps of a rehearsal

A rehearsal is a list of steps.  Each step lets something happen or starts a run, and then every run
that was woken up takes its turn, so that a step reports all that came of it.
-/

namespace PolicyWarden

namespace Rehearsal

/-- One step. -/
inductive Step where
  /-- Something happens. -/
  | act (action : Action)
  /-- An invocation is opened. -/
  | renew (timeout : Number)
  /-- An invocation is opened and shown. -/
  | create (timeout : Number)
  /-- The time that the newest invocation has left is asked for. -/
  | remaining
  /-- The newest invocation must be able to go on. -/
  | require (stage : Stage) (resource : Option Text)
  /-- An errand is run under the deadline, perhaps under a name. -/
  | errand (stage : Stage) (resource : Option Text) (name : Option Text)
      (script : Script (Option Json))
  /-- An errand with a name is told to settle. -/
  | tell (name : Text) (result : Except Failure (Option Json))
  /-- The gateway is asked for an organization. -/
  | organization (id : Text)
  /-- The gateway is asked for a policy. -/
  | policy (resource : Text)
  /-- The gateway is asked to replace a policy. -/
  | write (resource : Text) (policy : Policy) (version : Text)
  /-- A plan is carried out. -/
  | execute (plan : Plan)
  /-- An event, or a void in its place, is handled. -/
  | event (event : Except Void Event)
  /-- A configuration is loaded. -/
  | load (path : Option Text)

/-- What comes of a step at once: a report, or the number under which its run is pending. -/
inductive Result where
  | reported (report : Report)
  | pending (number : Nat)

namespace World

/-! ### Runs -/

/-- A run under the newest invocation. -/
def newRun (w : World) : Run :=
  { number := 0, invocation := w.timeline.newest? }

/-- Start a run and say what came of it. -/
def launch (w : World) (run : Run) (d : Dialogue Report) : World × Result :=
  match w.start run d with
  | (after, some report) => (after, .reported report)
  | (after, none) => (after, .pending w.pendings)

/-- Start an attempt under the newest invocation. -/
def attempt {α : Type} (w : World) (a : Attempt α) (give : α → Answer) : World × Result :=
  w.launch w.newRun (Dialogue.map (fun result => result.map give) a)

/-- What an errand gives back: one with a name is told its value, any other one shows how long it
could take. -/
def errandAnswer (name : Option Text) (timeout : Option Nat) (value : Option Json) : Answer :=
  if name.isSome then .value value else .returned value timeout

/-- The errand under the deadline. -/
def errandDialogue (stage : Stage) (resource name : Option Text) : Dialogue Report :=
  Deadline.guarded stage resource fun timeout =>
    (Dialogue.query (.errand timeout)).map fun race =>
      match race with
      | .refused failure => .refused failure
      | .settled result => .settled (result.map (errandAnswer name timeout))
      | .aborted reason => .aborted reason

/-! ### Invocations -/

/-- Open an invocation and say what came of it. -/
def openReport (w : World) (timeout : Number) (give : Invocation → Report) : World × Result :=
  match w.invoke timeout with
  | (after, .ok _) =>
      (after, .reported (match after.timeline.invocations.getLast? with
        | some invocation => give invocation
        | none => .ok .nothing))
  | (after, .error failure) => (after, .reported (.error failure))

/-- Show the deadline of an invocation. -/
def deadlineReport (i : Invocation) : Report :=
  match i.deadline with
  | some deadline => .ok (.opened deadline)
  | none => .error noDate

/-- The time that the newest invocation has left. -/
def remainingReport (w : World) : Report :=
  match w.timeline.invocations.getLast? with
  | some i => .ok (.remaining (i.remaining (w.timeline.now + w.standingOffset)) i.aborted)
  | none => .ok .nothing

/-! ### Telling errands to settle -/

/-- Tell the newest errand of a name to settle. -/
def tell (w : World) (name : Text) (result : Except Failure (Option Json)) :
    World × Result :=
  match w.named.find? fun entry => entry.1 = name with
  | some entry =>
      let woken := w.wake (fun run => run.number = entry.2) (settleReply? result)
      (woken.settle, .reported (.ok (.told true)))
  | none => (w, .reported (.ok (.told false)))

/-! ### Steps -/

/-- Take a step. -/
def step (w : World) : Step → World × Result
  | .act action => ((w.act action).settle, .reported (.ok .acted))
  | .renew timeout => w.openReport timeout fun _ => .ok .nothing
  | .create timeout => w.openReport timeout deadlineReport
  | .remaining => (w, .reported w.remainingReport)
  | .require stage resource => w.attempt (Deadline.require stage resource) fun _ => .nothing
  | .errand stage resource name script =>
      w.launch { w.newRun with errand := some script, name := name }
        (errandDialogue stage resource name)
  | .tell name result => w.tell name result
  | .organization id => w.attempt (w.gateway.organization id) .organization
  | .policy resource => w.attempt (w.gateway.policy resource) .policy
  | .write resource policy version =>
      w.attempt (w.gateway.write resource policy version) fun _ => .nothing
  | .execute plan => w.attempt (Remediation.execute w.gateway plan) .outcome
  | .event event => w.attempt (Intake.receive w.gateway event) fun _ => .nothing
  | .load path =>
      let loaded := w.loadConfiguration path
      (loaded.1, .reported (loaded.2.map .configuration))

/-- The world with nothing left of what its last step reported. -/
def clearReports (w : World) : World :=
  { w with journal := [], requests := [], reports := [] }

end World

end Rehearsal

end PolicyWarden
