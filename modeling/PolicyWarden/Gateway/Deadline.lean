import PolicyWarden.Dialogue.Basic

/-!
# Calls under a deadline

`Deadline.guarded` makes a call only while the invocation may go on, and tells the call how long it
may take.  A call that is overtaken by an abort counts as one that was never made in time.

Between the call and its caller stands the race against an abort (`Contest`), and whoever waits for
the race hears of its end a turn later.  A call that fails before it can be waited for never enters
the race.
-/

namespace PolicyWarden

namespace Deadline

variable {α : Type}

/-- The failure of an invocation that may not go on. -/
def exceeded (stage : Stage) (resource : Option Text) (reason : Failure) : Failure :=
  .problem (.deadlineExceeded stage resource) reason

/-- What the end of a race means for the caller. -/
def settle (stage : Stage) (resource : Option Text) : Race α → Attempt α
  | .refused failure => Attempt.fail failure
  | .settled result => Dialogue.awaited (.done result)
  | .aborted reason => Dialogue.awaited (Attempt.fail (exceeded stage resource reason))

/-- Go on with the time that is left, or fail if the invocation may not go on. -/
def whileActive (stage : Stage) (resource : Option Text) (next : Option Nat → Attempt α) :
    Attempt α :=
  .ask .standing fun standing =>
    match standing with
    | .active remaining => next remaining
    | .expired reason => Attempt.fail (exceeded stage resource reason)

/-- Make a call with the time that is left. -/
def guarded (stage : Stage) (resource : Option Text) (call : Option Nat → Dialogue (Race α)) :
    Attempt α :=
  whileActive stage resource fun remaining => (call remaining).bind (settle stage resource)

/-- Fail if the invocation may not go on. -/
def require (stage : Stage) (resource : Option Text) : Attempt Unit :=
  whileActive stage resource fun _ => Attempt.ok ()

end Deadline

end PolicyWarden
