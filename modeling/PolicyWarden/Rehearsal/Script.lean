import PolicyWarden.Configuration.Library
import PolicyWarden.Gateway.Contest

/-!
# Scripts

A script says what happens during a call and how the call ends.  By the time the call has been made,
its signal may have been raised and the call may have settled; that is what the race begins with
(`Conduct.contest`).  It takes a turn to decide the race; only a call that fails before it can be
waited for is over at once.
-/

namespace PolicyWarden

namespace Rehearsal

/-- The operations of a gateway. -/
inductive Operation where
  | organization
  | policy
  | write
  deriving DecidableEq, Repr

/-- Something that happens in the world by itself. -/
inductive Action where
  /-- Time passes and timers fire. -/
  | advance (millis : Int)
  /-- Time passes, but no timer fires yet. -/
  | stall (millis : Int)
  /-- The newest invocation is aborted. -/
  | abort (reason : Failure)
  /-- Another writer gives a resource a policy. -/
  | putPolicy (resource : Text) (policy : Policy)
  /-- The store learns of an organization. -/
  | addOrganization (organization : Organization)
  /-- An operation of the store starts to fail; without a failure it works again. -/
  | breakDown (operation : Operation) (failure : Failure)
  /-- A file changes or disappears. -/
  | putFile (location : Text) (file : Option StoredFile)
  /-- The environment is replaced. -/
  | setEnvironment (environment : Environment)
  /-- The configurations that were kept are forgotten. -/
  | clearConfigurations
  deriving DecidableEq, Repr

/-- How a call behaves once it has been made. -/
inductive Conduct (α : Type) where
  /-- It fails before it can be waited for. -/
  | throws (failure : Failure)
  /-- It settles at once. -/
  | atOnce (result : Except Failure α)
  /-- It settles after everything that settles at once. -/
  | later (result : Except Failure α)
  /-- It stays open. -/
  | never

/-- How far a query has come: it has its reply, the reply comes when everyone else has taken a turn,
it comes when nobody else is awake any more, or there is none yet. -/
inductive Progress (ρ : Type) where
  | now (reply : ρ)
  | soon (reply : ρ)
  | later (reply : ρ)
  | waits

/-- What a call has come to when it has been made. -/
def Conduct.early? {α : Type} : Conduct α → Option (Except Failure α)
  | atOnce result => some result
  | throws _ | later _ | never => none

/-- The race between a call and the signal of its invocation, which may have been raised during the
call, when the caller begins to wait. -/
def Conduct.contest {α : Type} (raised : Option Failure) (conduct : Conduct α) : Contest α :=
  (Contest.occurAll {} (raised.toList.map .aborts ++ conduct.early?.toList.map .settles)).watched

/-- How far the race has come then.  A call that fails before it can be waited for has no race, and
one that settles later may still win. -/
def Conduct.race {α : Type} (raised : Option Failure) (conduct : Conduct α) : Progress (Race α) :=
  let contest := conduct.contest raised
  match conduct, contest.winner? with
  | throws failure, _ => .now (.refused failure)
  | _, some ending => .soon ending
  | later result, none => ((contest.settle result).winner?.map Progress.later).getD .waits
  | _, none => .waits

/-- What happens during a call, and how it behaves then. -/
structure Script (α : Type) where
  during : List Action
  conduct : Conduct α

/-- The scripts after the first one has been used; the last one is used again and again. -/
def laterScripts {α : Type} : List (Script α) → List (Script α)
  | _ :: other :: rest => other :: rest
  | scripts => scripts

end Rehearsal

end PolicyWarden
