import Mathlib.Tactic.Common
import PolicyWarden.Intake
import PolicyWarden.Proofs.Dialogue.Course

/-!
# Winding up

A dialogue winds up when nothing that it still asks for has an answer of its own: it writes into the
journal, sets or gives back keys and lets others take turns.  Whatever the world is like, it comes to
the value `Dialogue.windUp?`.

Some replies are last words: that a call was overtaken by an abort, and whatever becomes of an
errand.  A dialogue concedes if it winds up on every last word (`Dialogue.Concedes`).  A dialogue that
is put together from parts concedes as soon as the parts do and what follows them winds up on the
values that they concede with (`Concedes.bind`).  The values of attempts are then failures of
invocations that may not go on, and such a failure is passed on as it is by everything around an
operation of the gateway, so a whole remediation and the handling of an event concede
(`concedes_execute`, `concedes_receive`).
-/

namespace PolicyWarden

namespace Query

/-- The reply to a query that asks for nothing. -/
def plainReply? : (query : Query) → Option query.Reply
  | record _ => some ()
  | retain _ _ => some ()
  | release _ => some ()
  | pause => some ()
  | _ => none

/-- The reply is a last word: a call was overtaken, or an errand has come to its end. -/
def IsLastWord : (query : Query) → query.Reply → Prop
  | call _ _ => fun race => ∃ reason, race = .aborted reason
  | errand _ => fun _ => True
  | _ => fun _ => False

end Query

namespace Dialogue

variable {α β : Type} {d : Dialogue α} {query : Query}

/-! ### Values without answers -/

/-- The value that a dialogue comes to if all that it asks for has no answer of its own. -/
def windUp? : Dialogue α → Option α
  | done value => some value
  | ask query next => query.plainReply?.bind fun reply => (next reply).windUp?

@[simp]
lemma windUp?_done (value : α) : (done value).windUp? = some value :=
  rfl

/-- A dialogue that winds up asks first for something that has no answer. -/
lemma exists_plainReply? {next : query.Reply → Dialogue α} {value : α}
    (winds : (ask query next).windUp? = some value) :
    ∃ reply, query.plainReply? = some reply ∧ (next reply).windUp? = some value := by
  rw [windUp?] at winds
  exact Option.bind_eq_some_iff.mp winds

/-- Where a reply is no answer, there is no other. -/
lemma eq_of_plain {reply : query.Reply} (plain : query.plainReply? = some reply)
    (other : query.Reply) : other = reply := by
  cases query with
  | record _ | retain _ _ | release _ | pause => rfl
  | _ => cases plain

/-- What follows a dialogue winds up from its value. -/
@[simp]
lemma windUp?_bind (d : Dialogue α) (next : α → Dialogue β) :
    (d.bind next).windUp? = d.windUp?.bind fun value => (next value).windUp? := by
  induction d with
  | done value => rfl
  | ask query reply ih => simp only [bind_ask, windUp?, ih, Option.bind_assoc]

/-- Waiting for a value does not change it. -/
@[simp]
lemma windUp?_awaited (d : Dialogue α) : d.awaited.windUp? = d.windUp? := by
  rw [awaited, windUp?_bind]
  cases d.windUp? <;> rfl

/-- A dialogue that winds up asks for nothing that has an answer. -/
lemma not_asks_of_windUp? {value : α} (winds : d.windUp? = some value) {h : History}
    (answered : query.plainReply? = none) : ¬ d.Asks h query := by
  induction d generalizing h with
  | done first => exact not_asks_done
  | ask first next ih =>
    obtain ⟨reply, plain, onward⟩ := exists_plainReply? winds
    rw [asks_ask_iff]
    rintro (⟨-, rfl⟩ | ⟨other, rest, -, later⟩)
    · rw [plain] at answered
      cases answered
    · rw [eq_of_plain plain other] at later
      exact ih reply onward later

/-! ### Last words -/

/-- On every last word the dialogue winds up, with a value that satisfies `ends`. -/
def Concedes (ends : α → Prop) : Dialogue α → Prop
  | done _ => True
  | ask query next =>
      ∀ reply, (query.IsLastWord reply → ∃ value, (next reply).windUp? = some value ∧ ends value) ∧
        (next reply).Concedes ends

variable {ends : α → Prop}

/-- No last word is an answer to a query that has replies of another kind. -/
lemma concedes_ask {next : query.Reply → Dialogue α} (silent : ∀ reply, ¬ query.IsLastWord reply)
    (onward : ∀ reply, (next reply).Concedes ends) : (ask query next).Concedes ends :=
  fun reply => ⟨fun last => absurd last (silent reply), onward reply⟩

/-- A reply that is no answer is no last word. -/
lemma not_isLastWord_of_plain {reply : query.Reply} (plain : query.plainReply? = some reply)
    (other : query.Reply) : ¬ query.IsLastWord other := by
  cases query with
  | record _ | retain _ _ | release _ | pause => exact id
  | _ => cases plain

/-- A dialogue that winds up hears no last word. -/
lemma concedes_of_windUp? {value : α} (winds : d.windUp? = some value) : d.Concedes ends := by
  induction d with
  | done first => trivial
  | ask query next ih =>
    obtain ⟨reply, plain, onward⟩ := exists_plainReply? winds
    refine concedes_ask (not_isLastWord_of_plain plain) fun other => ?_
    rw [eq_of_plain plain other]
    exact ih reply onward

/-- A sequence concedes if its second part winds up on the values with which the first one
concedes. -/
lemma Concedes.bind {next : α → Dialogue β} {ends' : β → Prop} (first : d.Concedes ends)
    (winds : ∀ value, ends value → ∃ last, (next value).windUp? = some last ∧ ends' last)
    (onward : ∀ value, (next value).Concedes ends') : (d.bind next).Concedes ends' := by
  induction d with
  | done value => exact onward value
  | ask query reply ih =>
    intro r
    obtain ⟨last, rest⟩ := first r
    refine ⟨fun word => ?_, ih r rest⟩
    obtain ⟨value, winding, holds⟩ := last word
    rw [windUp?_bind, winding]
    exact winds value holds

/-- The value with which a dialogue concedes may be waited for. -/
lemma Concedes.awaited (concedes : d.Concedes ends) : d.awaited.Concedes ends :=
  concedes.bind (fun value holds => ⟨value, rfl, holds⟩) fun _ => concedes_of_windUp? rfl

/-- A function of the value of a dialogue that concedes does so, too. -/
lemma Concedes.map (concedes : d.Concedes ends) (f : α → β) :
    (d.map f).Concedes fun _ => True :=
  concedes.bind (fun value _ => ⟨f value, rfl, trivial⟩) fun _ => concedes_of_windUp? rfl

/-! ### Guarded questions -/

/-- The dialogue looks at the invocation, asks one question while it is active, and winds up on
every reply. -/
def Guards (d : Dialogue α) (query : Option Nat → Query) (expired : Failure → α)
    (replied : (left : Option Nat) → (query left).Reply → α) : Prop :=
  ∃ next : Standing → Dialogue α, d = .ask .standing next ∧
    (∀ reason, (next (.expired reason)).windUp? = some (expired reason)) ∧
    ∀ left, ∃ onward, next (.active left) = .ask (query left) onward ∧
      ∀ reply, (onward reply).windUp? = some (replied left reply)

variable {question : Option Nat → Query} {expired : Failure → α}
  {replied : (left : Option Nat) → (question left).Reply → α}

/-- What winds up after a guarded question leaves it guarded. -/
lemma Guards.bind (guards : d.Guards question expired replied) {next : α → Dialogue β} {g : α → β}
    (winds : ∀ value, (next value).windUp? = some (g value)) :
    (d.bind next).Guards question (fun reason => g (expired reason))
      (fun left reply => g (replied left reply)) := by
  obtain ⟨first, rfl, inactive, active⟩ := guards
  refine ⟨fun standing => (first standing).bind next, rfl, fun reason => ?_, fun left => ?_⟩
  · rw [windUp?_bind, inactive]
    exact winds _
  · obtain ⟨onward, asks, ended⟩ := active left
    refine ⟨fun reply => (onward reply).bind next, congrArg (·.bind next) asks, fun reply => ?_⟩
    rw [windUp?_bind, ended]
    exact winds _

/-- The values of a guarded question may be written in another way. -/
lemma Guards.congr {expired' : Failure → α} {replied' : (left : Option Nat) →
    (question left).Reply → α} (guards : d.Guards question expired replied)
    (inactive : ∀ reason, expired reason = expired' reason)
    (active : ∀ left reply, replied left reply = replied' left reply) :
    d.Guards question expired' replied' := by
  obtain rfl : expired = expired' := funext inactive
  obtain rfl : replied = replied' := funext fun left => funext (active left)
  exact guards

/-- The value of a guarded question may be waited for. -/
lemma Guards.awaited (guards : d.Guards question expired replied) :
    d.awaited.Guards question expired replied :=
  Guards.bind (g := id) guards fun _ => rfl

/-- A guarded question concedes with the values that last words lead to. -/
lemma Guards.concedes (guards : d.Guards question expired replied)
    (lasts : ∀ left reply, (question left).IsLastWord reply → ends (replied left reply)) :
    d.Concedes ends := by
  obtain ⟨next, rfl, inactive, active⟩ := guards
  refine concedes_ask (fun _ => id) fun standing => ?_
  cases standing with
  | expired reason => exact concedes_of_windUp? (inactive reason)
  | active left =>
    obtain ⟨onward, asks, ended⟩ := active left
    have last (reply : (question left).Reply) :
        ((question left).IsLastWord reply →
          ∃ value, (onward reply).windUp? = some value ∧ ends value) ∧
        (onward reply).Concedes ends :=
      ⟨fun word => ⟨_, ended reply, lasts left reply word⟩, concedes_of_windUp? (ended reply)⟩
    rw [asks]
    exact last

end Dialogue

open Dialogue

/-! ### Calls under a deadline -/

/-- How a call under a deadline comes out: with a result of its own, or overtaken by an abort. -/
inductive Ending (α : Type) where
  | own (result : Except Failure α)
  | overtaken (reason : Failure)

/-- What the caller is told of the end of a call under a deadline. -/
def Ending.told {α : Type} (stage : Stage) (resource : Option Text) :
    Ending α → Except Failure α
  | own result => result
  | overtaken reason => .error (Deadline.exceeded stage resource reason)

/-- How a race comes out for the call: one that could not be waited for has failed by itself. -/
def Race.ending {α : Type} : Race α → Ending α
  | refused failure => .own (.error failure)
  | settled result => .own result
  | aborted reason => .overtaken reason

namespace Deadline

variable {α : Type} {stage : Stage} {resource : Option Text}

/-- After the race a call under a deadline winds up. -/
lemma windUp?_settle (race : Race α) :
    (settle stage resource race).windUp? = some (race.ending.told stage resource) := by
  cases race with
  | refused failure => rfl
  | settled result => exact windUp?_awaited _
  | aborted reason => exact windUp?_awaited _

/-- A query whose reply is a race, made under the deadline, is a guarded question. -/
lemma guards_guarded {question : Option Nat → Query}
    {race : (left : Option Nat) → (question left).Reply → Race α} :
    (guarded stage resource fun left => (Dialogue.query (question left)).map (race left)).Guards
      question (fun reason => .error (exceeded stage resource reason))
      (fun left reply => (race left reply).ending.told stage resource) := by
  refine ⟨_, rfl, fun reason => rfl, fun left => ⟨_, rfl, fun reply => ?_⟩⟩
  exact windUp?_settle _

end Deadline

/-! ### Failures of invocations that may not go on -/

/-- The result is the failure of an invocation that may not go on. -/
def IsExceeded {α : Type} (result : Except Failure α) : Prop :=
  ∃ stage resource reason, result = .error (Deadline.exceeded stage resource reason)

namespace Attempt

variable {α β : Type} {a : Attempt α}

/-- An attempt that goes on after successes passes the failure on with which its first part
concedes. -/
lemma concedes_next {f : α → Attempt β} (first : a.Concedes IsExceeded)
    (onward : ∀ value, (f value).Concedes IsExceeded) : (a.next f).Concedes IsExceeded := by
  refine first.bind ?_ fun result => ?_
  · rintro _ ⟨stage, resource, reason, rfl⟩
    exact ⟨_, rfl, stage, resource, reason, rfl⟩
  · cases result with
    | ok value => exact onward value
    | error failure => trivial

/-- An attempt that goes on after a guarded question and winds up is guarded, too. -/
lemma guards_next {question : Option Nat → Query} {expired : Failure → Except Failure α}
    {replied : (left : Option Nat) → (question left).Reply → Except Failure α}
    {f : α → Attempt β} {g : α → Except Failure β} (guards : a.Guards question expired replied)
    (winds : ∀ value, (f value).windUp? = some (g value)) :
    (a.next f).Guards question (fun reason => (expired reason).bind g)
      (fun left reply => (replied left reply).bind g) := by
  refine Guards.bind (g := fun result => result.bind g) guards fun result => ?_
  cases result with
  | ok value => exact winds value
  | error failure => rfl

/-- A guarded question stays one whatever its failures are turned into. -/
lemma guards_mapFailure {question : Option Nat → Query} {expired : Failure → Except Failure α}
    {replied : (left : Option Nat) → (question left).Reply → Except Failure α}
    (guards : a.Guards question expired replied) (f : Failure → Failure) :
    (a.mapFailure f).Guards question (fun reason => (expired reason).mapError f)
      (fun left reply => (replied left reply).mapError f) :=
  Guards.bind (g := fun result => result.mapError f) guards fun _ => rfl

/-- The failure with which an attempt concedes stays if it is turned into itself. -/
lemma concedes_mapFailure {f : Failure → Failure} (concedes : a.Concedes IsExceeded)
    (keeps : ∀ stage resource reason,
      f (Deadline.exceeded stage resource reason) = Deadline.exceeded stage resource reason) :
    (a.mapFailure f).Concedes IsExceeded := by
  refine concedes.bind ?_ fun _ => concedes_of_windUp? rfl
  rintro _ ⟨stage, resource, reason, rfl⟩
  exact ⟨_, rfl, stage, resource, reason, congrArg Except.error (keeps stage resource reason)⟩

end Attempt

/-! ### Gateways -/

/-- Every operation of the gateway concedes. -/
structure Gateway.Concedes (gateway : Gateway) : Prop where
  organization : ∀ id, (gateway.organization id).Concedes IsExceeded
  policy : ∀ resource, (gateway.policy resource).Concedes IsExceeded
  write : ∀ resource policy version,
    (gateway.write resource policy version).Concedes IsExceeded

/-- The direct gateway makes no call and no errand. -/
lemma Gateway.concedes_direct : Gateway.direct.Concedes where
  organization _ := concedes_ask (fun _ => id) fun _ => trivial
  policy _ := concedes_ask (fun _ => id) fun _ => trivial
  write _ _ _ := concedes_ask (fun _ => id) fun _ => trivial

/-! ### Remediations -/

namespace Remediation

variable {gateway : Gateway} {r : Round} {again : Option (Unit → Attempt Outcome)}

/-- An operation that concedes does so when its failures are attributed, too. -/
lemma concedes_attributed {α : Type} {p : Problem} {operation : Attempt α}
    (concedes : operation.Concedes IsExceeded) : (attributed p operation).Concedes IsExceeded :=
  (Attempt.concedes_mapFailure concedes.awaited fun _ _ _ => rfl).awaited

/-- Recording removals hears no last word. -/
lemma concedes_recordRemovals {α : Type} {resource : Text} {removals : List Removal}
    {d : Dialogue α} {ends : α → Prop} (concedes : d.Concedes ends) :
    (recordRemovals resource removals d).Concedes ends := by
  induction removals with
  | nil => exact concedes
  | cons removal rest ih => exact concedes_ask (fun _ => id) fun _ => ih

/-- What follows a round concedes, if anything does. -/
def AgainConcedes (again : Option (Unit → Attempt Outcome)) : Prop :=
  ∀ next, again = some next → (next ()).Concedes IsExceeded

/-- What follows a failed write concedes. -/
lemma concedes_recover (onward : AgainConcedes again) (failure : Failure) :
    (recover r again failure).Concedes IsExceeded := by
  unfold recover
  split
  · exact concedes_ask (fun _ => id) fun _ => onward _ rfl
  · trivial

/-- There is no further round for an invocation that may not go on. -/
lemma recover_exceeded (stage : Stage) (resource : Option Text) (reason : Failure) :
    recover r again (Deadline.exceeded stage resource reason) =
      Attempt.fail (Deadline.exceeded stage resource reason) := by
  cases again <;> rfl

/-- A round concedes if the gateway does, and what follows the round. -/
lemma concedes_round (concedes : gateway.Concedes) (onward : AgainConcedes again) :
    (round gateway r again).Concedes IsExceeded := by
  refine Attempt.concedes_next (concedes_attributed (concedes.policy r.plan.resource)) fun read => ?_
  unfold revise
  dsimp only
  split
  · exact concedes_ask (fun _ => id) fun _ => trivial
  · refine concedes_ask (fun _ => id) fun standing => ?_
    cases standing with
    | expired reason => trivial
    | active left =>
      -- A write that was overtaken is not tried again, so no round follows its last word.
      refine Concedes.bind (concedes_attributed (concedes.write _ _ _)) ?_ fun result => ?_
      · rintro _ ⟨stage, resource, reason, rfl⟩
        refine ⟨.error (Deadline.exceeded stage resource reason), ?_, stage, resource, reason, rfl⟩
        exact congrArg windUp? (recover_exceeded stage resource reason)
      · cases result with
        | ok _ => exact concedes_recordRemovals trivial
        | error failure => exact concedes_recover onward failure

/-- All rounds concede if the gateway does. -/
lemma concedes_rounds (concedes : gateway.Concedes) {plan : Plan} {organization : Organization}
    (left number : Nat) :
    (rounds gateway plan organization left number).Concedes IsExceeded := by
  induction left generalizing number with
  | zero =>
    refine concedes_round concedes fun next eq => ?_
    cases eq
  | succ left ih =>
    refine concedes_round concedes fun next eq => ?_
    cases eq
    exact ih (number + 1)

/-- A remediation concedes if its gateway does. -/
theorem concedes_execute (concedes : gateway.Concedes) (plan : Plan) :
    (execute gateway plan).Concedes IsExceeded := by
  unfold execute
  split
  · exact Attempt.concedes_next (concedes_attributed (concedes.organization plan.organizationId))
      fun organization => concedes_rounds concedes _ _
  · exact concedes_ask (fun _ => id) fun _ => trivial

end Remediation

/-! ### Handling events -/

namespace Intake

variable {gateway : Gateway} {event : Event}

/-- Remediating what a finding asks for concedes if the gateway does. -/
lemma concedes_remediate (concedes : gateway.Concedes) (finding : Finding) :
    (remediate gateway finding).Concedes IsExceeded := by
  refine Attempt.concedes_next (concedes_ask (fun _ => id) fun _ => trivial) fun settings => ?_
  refine Attempt.concedes_next (concedes_ask (fun _ => id) fun _ => trivial) fun configuration => ?_
  refine Attempt.concedes_next (concedes_ask (fun _ => id) fun _ => trivial) fun _ => ?_
  refine Attempt.concedes_next (Remediation.concedes_execute concedes _).awaited fun outcome => ?_
  exact concedes_ask (fun _ => id) fun _ => trivial

/-- Reading an event and doing what its finding asks for concedes if the gateway does. -/
lemma concedes_process (concedes : gateway.Concedes) (event : Event) :
    (process gateway event).Concedes IsExceeded := by
  unfold process
  split
  · refine concedes_ask (fun _ => id) fun _ => concedes_ask (fun _ => id) fun _ => ?_
    split
    · exact concedes_remediate concedes _
    · exact concedes_ask (fun _ => id) fun _ => trivial
  · trivial

/-- Wrapping up winds up. -/
lemma exists_windUp?_wrapUp (event : Event) (result : Except Failure Unit) :
    ∃ answered, (wrapUp event result).windUp? = some answered := by
  cases result with
  | ok _ => exact ⟨_, rfl⟩
  | error failure =>
    rw [wrapUp]
    split <;> exact ⟨_, rfl⟩

/-- The handling of whatever was delivered concedes if the gateway does. -/
theorem concedes_receive (concedes : gateway.Concedes) (delivered : Except Void Event) :
    (receive gateway delivered).Concedes fun _ => True := by
  cases delivered with
  | error void => trivial
  | ok event =>
    refine concedes_ask (fun _ => id) fun _ => ?_
    refine (concedes_process concedes event).awaited.bind (fun result _ => ?_) fun result => ?_
    · obtain ⟨answered, winds⟩ := exists_windUp?_wrapUp event result
      exact ⟨answered, winds, trivial⟩
    · exact concedes_of_windUp? (exists_windUp?_wrapUp event result).choose_spec

end Intake

end PolicyWarden
