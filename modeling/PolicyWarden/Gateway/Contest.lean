import PolicyWarden.Dialogue.Query

/-!
# The race between a call and an abort

Whoever makes a call under a deadline listens for the signal of the invocation before the call is
made, and then waits for whatever comes first, the end of the call or an abort.  A `Contest` is what
has come of both sides so far.  The call settles once; the listener hears of one abort, and of none
after it was taken away.  What came in before anyone waited is looked at in a fixed order, the call
first; what comes in later is looked at in its own order.
-/

namespace PolicyWarden

/-- Something that happens to a call under a deadline. -/
inductive ContestEvent (α : Type) where
  /-- The call settles. -/
  | settles (result : Except Failure α)
  /-- The signal of the invocation is raised. -/
  | aborts (reason : Failure)

/-- The end of a race that an event brings about if nothing happened before it. -/
def ContestEvent.race {α : Type} : ContestEvent α → Race α
  | settles result => .settled result
  | aborts reason => .aborted reason

/-- Both sides of a race between a call and an abort. -/
structure Contest (α : Type) where
  /-- What the call has come to. -/
  result : Option (Except Failure α) := none
  /-- The reason of the abort that was heard of. -/
  reason : Option Failure := none
  /-- The listener is still there. -/
  listens : Bool := true
  /-- The sides that have come in, in the order in which they are looked at, once somebody waits. -/
  arrivals : Option (List (Race α)) := none

namespace Contest

variable {α : Type}

/-- One side comes in; nobody notices before somebody waits. -/
def arrive (c : Contest α) (side : Race α) : Contest α :=
  { c with arrivals := c.arrivals.map fun sides => sides ++ [side] }

/-- The call settles, unless it has. -/
def settle (c : Contest α) (result : Except Failure α) : Contest α :=
  match c.result with
  | some _ => c
  | none => arrive { c with result := some result } (.settled result)

/-- The signal is raised; a listener that hears of it is taken away. -/
def hear (c : Contest α) (reason : Failure) : Contest α :=
  if c.listens then arrive { c with reason := some reason, listens := false } (.aborted reason)
  else c

/-- Something happens. -/
def occur (c : Contest α) : ContestEvent α → Contest α
  | .settles result => c.settle result
  | .aborts reason => c.hear reason

/-- Several things happen one after another. -/
def occurAll (c : Contest α) (events : List (ContestEvent α)) : Contest α :=
  events.foldl occur c

/-- Somebody begins to wait for the race.  What the call has come to is looked at first. -/
def watched (c : Contest α) : Contest α :=
  { c with
    arrivals := some ((c.result.map Race.settled).toList ++ (c.reason.map Race.aborted).toList) }

/-- The end of the race, once there is one. -/
def winner? (c : Contest α) : Option (Race α) :=
  c.arrivals.bind List.head?

/-- The listener is taken away, as it is when the race has ended. -/
def close (c : Contest α) : Contest α :=
  { c with listens := false }

/-- The race that somebody waits for while nothing has happened. -/
def pending : Contest α :=
  watched {}

end Contest

end PolicyWarden
