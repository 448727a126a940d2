import PolicyWarden.Dialogue.Query

/-!
# Dialogues

A dialogue is a computation that asks queries one after another and goes on with their replies.  It
says nothing about who replies, so one and the same dialogue can be run against a store, against a
scripted service, or against any replies at all.
-/

namespace PolicyWarden

/-- A computation that asks queries. -/
inductive Dialogue (α : Type) where
  | done (value : α)
  | ask (query : Query) (next : query.Reply → Dialogue α)

namespace Dialogue

variable {α β γ : Type}

/-- Go on with the value of a dialogue. -/
def bind (d : Dialogue α) (next : α → Dialogue β) : Dialogue β :=
  match d with
  | done value => next value
  | ask query reply => ask query fun r => (reply r).bind next

/-- A function of the value of a dialogue. -/
def map (f : α → β) (d : Dialogue α) : Dialogue β :=
  d.bind fun value => done (f value)

/-- Ask one query. -/
def query (q : Query) : Dialogue q.Reply :=
  ask q done

/-- Ask one query before a dialogue that does not need its reply. -/
def andThen (q : Query) (d : Dialogue α) : Dialogue α :=
  ask q fun _ => d

/-- Hand the value of a dialogue over to whoever waits for it, who takes it a turn later. -/
def awaited (d : Dialogue α) : Dialogue α :=
  d.bind fun value => andThen .pause (done value)

/-- Going on with the value of a finished dialogue is going on with that value. -/
@[simp]
theorem bind_done (value : α) (next : α → Dialogue β) : (done value).bind next = next value :=
  rfl

/-- A dialogue that asks first asks the same query whatever follows it. -/
@[simp]
theorem bind_ask (q : Query) (reply : q.Reply → Dialogue α) (next : α → Dialogue β) :
    (ask q reply).bind next = ask q fun r => (reply r).bind next :=
  rfl

/-- Finishing with the value of a dialogue adds nothing to it. -/
@[simp]
theorem bind_done_right (d : Dialogue α) : d.bind done = d := by
  induction d with
  | done value => rfl
  | ask query next ih => simp only [bind, ih]

/-- The value of a finished dialogue is taken after one pause. -/
@[simp]
theorem awaited_done (value : α) : (done value).awaited = andThen .pause (done value) :=
  rfl

/-- What follows a dialogue may be grouped either way. -/
theorem bind_assoc (d : Dialogue α) (f : α → Dialogue β) (g : β → Dialogue γ) :
    (d.bind f).bind g = d.bind fun value => (f value).bind g := by
  induction d with
  | done value => rfl
  | ask query next ih => simp only [bind, ih]

end Dialogue

/-! ### Attempts -/

/-- A dialogue that may fail. -/
abbrev Attempt (α : Type) := Dialogue (Except Failure α)

namespace Attempt

variable {α β : Type}

/-- Succeed. -/
def ok (value : α) : Attempt α :=
  .done (.ok value)

/-- Fail. -/
def fail (failure : Failure) : Attempt α :=
  .done (.error failure)

/-- Go on if an attempt succeeds. -/
def next (a : Attempt α) (f : α → Attempt β) : Attempt β :=
  Dialogue.bind a fun result =>
    match result with
    | .ok value => f value
    | .error failure => fail failure

/-- Fail with another failure. -/
def mapFailure (f : Failure → Failure) (a : Attempt α) : Attempt α :=
  Dialogue.map (fun result => result.mapError f) a

end Attempt

end PolicyWarden
