import PolicyWarden.Failure.Basic

/-!
# Descriptions of failures

A description is what the journal records about a failure.  Messages are cut to 1000 code units,
and a failure outside the library's own problems counts as retryable, so that the event gets
another chance.  A description needs a text for the failure and for its cause; where there is none,
describing the failure fails in turn.
-/

namespace PolicyWarden

namespace Failure

/-! ### Messages -/

/-- The longest message that is kept whole, in code units. -/
def summaryLimit : Nat :=
  1000

/-- A message, cut to the limit. -/
def shortened (message : Text) : Text :=
  if summaryLimit < message.length then message.take summaryLimit ++ "..." else message

/-- The message of a failure, cut to the limit. -/
def summary (f : Failure) : Except Failure Text :=
  match f.message? with
  | some message => .ok (shortened message)
  | none => .error unprintable

/-- The summary of a cause, if there is one. -/
def causeSummary (f : Failure) : Except Failure (Option Text) :=
  if f.cause = absent then .ok none else f.cause.summary.map some

/-! ### Descriptions -/

/-- Delivering the event again can help. -/
def isRetryable (f : Failure) : Bool :=
  match f.problem? with
  | some p => p.retryable
  | none => true

/-- What is recorded about a failure. -/
structure Description where
  name : Text
  message : Text
  retryable : Bool
  stage : Option Text
  resource : Option Text
  cause : Option Text
  deriving DecidableEq, Repr

/-- A text, unless it is empty. -/
def nonEmpty? (t : Text) : Option Text :=
  if t.isEmpty then none else some t

/-- The description with given summaries of a failure and of its cause. -/
def describeWith (f : Failure) (message : Text) (cause : Option Text) : Description where
  name := f.kindName
  message := message
  retryable := f.isRetryable
  stage := (f.problem?.map fun p => p.stage.name).bind nonEmpty?
  resource := (f.problem?.bind Problem.resource?).bind nonEmpty?
  cause := cause

/-- The description of a failure. -/
def describe (f : Failure) : Except Failure Description :=
  match f.summary, f.causeSummary with
  | .ok message, .ok cause => .ok (f.describeWith message cause)
  | .error failure, _ | .ok _, .error failure => .error failure

end Failure

end PolicyWarden
