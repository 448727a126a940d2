import Mathlib.Tactic.Common
import PolicyWarden.Gateway.Service
import PolicyWarden.Intake
import PolicyWarden.Proofs.Dialogue.History

/-!
# Rules for dialogues

A rule says after which history a query may be asked.  `Dialogue.Obeys` is said of a dialogue that
keeps to a rule whatever it is told and whatever was asked before it, so that a dialogue obeys a
rule as soon as the parts do of which it is made.

A lenient rule has nothing against entries of the journal that are no errors, looks at the
invocation and pauses.  A remediation obeys every lenient rule that its gateway obeys
(`obeys_execute`), and the gateway over the service obeys those that let it make a call right after
the invocation was found to be active (`obeys_service`).  What the handling of an event ensures comes
from the processing of the event (`ensures_handle`), as little is asked before and after that.
-/

namespace PolicyWarden

/-- Which queries may be asked after which history. -/
abbrev Rule := History → Query → Prop

/-- A rule that never forbids an entry of the journal that is no error, a look at the invocation or
a pause. -/
structure Rule.IsLenient (rule : Rule) : Prop where
  record : ∀ h entry, entry.level ≠ .error → rule h (.record entry)
  standing : ∀ h, rule h .standing
  pause : ∀ h, rule h .pause

/-! ### Obedience -/

namespace Dialogue

variable {α β : Type} {rule : Rule} {h : History}

/-- What a dialogue ensures may be weakened. -/
lemma Ensures.imp {asks asks' : History → Query → Prop} {ends ends' : History → α → Prop}
    {d : Dialogue α} (ensured : d.Ensures asks ends h)
    (asked : ∀ h query, asks h query → asks' h query)
    (ended : ∀ h value, ends h value → ends' h value) : d.Ensures asks' ends' h := by
  induction d generalizing h with
  | done value => exact ended h value ensured
  | ask query next ih =>
    exact ⟨asked h query ensured.1, fun reply => ih reply (ensured.2 reply)⟩

/-- Whatever was asked before, the dialogue keeps to the rule. -/
def Obeys (rule : Rule) (d : Dialogue α) : Prop :=
  ∀ h, d.Ensures rule (fun _ _ => True) h

/-- A dialogue that is done keeps to every rule. -/
@[simp]
lemma obeys_done (value : α) : (done value).Obeys rule :=
  fun _ => trivial

/-- A query that the rule never forbids may come before a dialogue that obeys. -/
lemma obeys_ask {query : Query} {next : query.Reply → Dialogue α} (allowed : ∀ h, rule h query)
    (onward : ∀ reply, (next reply).Obeys rule) : (ask query next).Obeys rule :=
  fun h => ⟨allowed h, fun reply => onward reply _⟩

/-- A single query obeys a rule that never forbids it. -/
lemma obeys_query {query : Query} (allowed : ∀ h, rule h query) :
    (Dialogue.query query).Obeys rule :=
  obeys_ask allowed obeys_done

/-- A sequence obeys if both of its parts do. -/
lemma Obeys.bind {d : Dialogue α} {next : α → Dialogue β} (first : d.Obeys rule)
    (second : ∀ value, (next value).Obeys rule) : (d.bind next).Obeys rule := by
  intro h
  rw [ensures_bind]
  exact (first h).imp (fun _ _ asked => asked) fun h value _ => second value h

/-- Waiting for a value takes a pause, which is not forbidden. -/
lemma Obeys.awaited {d : Dialogue α} (obeys : d.Obeys rule) (lenient : rule.IsLenient) :
    d.awaited.Obeys rule :=
  obeys.bind fun value => obeys_ask lenient.pause fun _ => obeys_done value

/-- An attempt that goes on after a success obeys if both of its parts do. -/
lemma Obeys.next {a : Attempt α} {f : α → Attempt β} (first : a.Obeys rule)
    (second : ∀ value, (f value).Obeys rule) : (a.next f).Obeys rule := by
  refine Obeys.bind first fun result => ?_
  cases result with
  | ok value => exact second value
  | error failure => exact obeys_done _

/-- An attempt obeys whatever its failures are turned into. -/
lemma Obeys.mapFailure {a : Attempt α} (obeys : a.Obeys rule) (f : Failure → Failure) :
    (a.mapFailure f).Obeys rule :=
  Obeys.bind obeys fun result => obeys_done (result.mapError f)

/-- Where obedience keeps something up about the history, a dialogue ensures whatever follows from
both. -/
lemma Obeys.ensures {d : Dialogue α} (obeys : d.Obeys rule) {asks : History → Query → Prop}
    {inv : History → Prop}
    (keeps : ∀ h query (reply : query.Reply), inv h → rule h query → inv (h ++ [⟨query, reply⟩]))
    (asked : ∀ h query, inv h → rule h query → asks h query) (start : inv h) :
    d.Ensures asks (fun h _ => inv h) h := by
  have along : ∀ (e : Dialogue α) (h : History), e.Ensures rule (fun _ _ => True) h → inv h →
      e.Ensures asks (fun h _ => inv h) h := by
    intro e
    induction e with
    | done value => exact fun h _ holds => holds
    | ask query next ih =>
      intro h ensured holds
      refine ⟨asked h query holds ensured.1, fun reply => ?_⟩
      exact ih reply _ (ensured.2 reply) (keeps h query reply holds ensured.1)
  exact along d h (obeys h) start

end Dialogue

open Dialogue

/-! ### Gateways -/

/-- Every operation of the gateway obeys the rule. -/
structure Gateway.Obeys (rule : Rule) (gateway : Gateway) : Prop where
  organization : ∀ id, (gateway.organization id).Obeys rule
  policy : ∀ resource, (gateway.policy resource).Obeys rule
  write : ∀ resource policy version, (gateway.write resource policy version).Obeys rule

namespace Gateway

variable {rule : Rule}

/-- The direct gateway obeys a rule that forbids none of its queries. -/
lemma obeys_direct (organization : ∀ h id, rule h (.organization id))
    (policy : ∀ h resource, rule h (.policy resource))
    (write : ∀ h resource policy version, rule h (.write resource policy version)) :
    Gateway.direct.Obeys rule where
  organization id := obeys_query fun h => organization h id
  policy resource := obeys_query fun h => policy h resource
  write resource p version := obeys_query fun h => write h resource p version

namespace Service

/-- A call may be made right after the invocation was found to be active, with the time that is
left. -/
def MayCall (rule : Rule) : Prop :=
  ∀ h call left, rule (h ++ [⟨.standing, .active left⟩]) (.call call left)

variable (lenient : rule.IsLenient) (calls : MayCall rule)
include lenient

/-- The end of a race obeys every lenient rule. -/
lemma obeys_settle {α : Type} {stage : Stage} {resource : Option Text} (race : Race α) :
    (Deadline.settle stage resource race).Obeys rule := by
  cases race with
  | refused failure => exact obeys_done _
  | settled result => exact (obeys_done result).awaited lenient
  | aborted reason => exact (obeys_done _).awaited lenient

include calls

/-- A call under the deadline is made right after the invocation was found to be active. -/
lemma obeys_guardedCall {stage : Stage} {resource : Text} {call : Service.Call} :
    (guardedCall stage resource call).Obeys rule := by
  refine Obeys.awaited (fun h => ⟨lenient.standing h, fun standing => ?_⟩) lenient
  cases standing with
  | expired reason => trivial
  | active left => exact ⟨calls h call left, fun race => obeys_settle lenient race _⟩

/-- The gateway over the service obeys a lenient rule that lets it make its calls. -/
lemma obeys_service : Gateway.service.Obeys rule where
  organization id := by
    refine (Obeys.next (obeys_guardedCall lenient calls) fun reply => ?_).mapFailure _
    cases reply with
    | error void => exact obeys_done _
    | ok reply =>
      rw [readOrganization, shownOrganization]
      split <;> exact obeys_done _
  policy resource := by
    refine (Obeys.next (obeys_guardedCall lenient calls) fun reply => ?_).mapFailure _
    cases reply with
    | error void => exact obeys_done _
    | ok reply =>
      rw [readPolicy, shownPolicy]
      split
      · exact obeys_done _
      · refine obeys_ask (fun h => lenient.record h _ nofun) fun _ => ?_
        rw [versionedPolicy]
        split <;> exact obeys_done _
  write resource policy version :=
    (Obeys.next (obeys_guardedCall lenient calls) fun _ =>
      obeys_ask (fun h => lenient.record h _ (by nofun)) fun _ => obeys_done _).mapFailure _

end Service

end Gateway

/-! ### Remediations -/

namespace Remediation

variable {rule : Rule} {gateway : Gateway}

section Rounds

variable (lenient : rule.IsLenient)
include lenient

/-- An operation that obeys does so when its failures are attributed, too. -/
lemma obeys_attributed {α : Type} {p : Problem} {operation : Attempt α}
    (obeys : operation.Obeys rule) : (attributed p operation).Obeys rule :=
  Obeys.awaited (Obeys.mapFailure (obeys.awaited lenient) _) lenient

/-- Recording removals obeys every lenient rule. -/
lemma obeys_recordRemovals {α : Type} {resource : Text} {removals : List Removal}
    {d : Dialogue α} (obeys : d.Obeys rule) : (recordRemovals resource removals d).Obeys rule := by
  induction removals with
  | nil => exact obeys
  | cons removal rest ih => exact obeys_ask (fun h => lenient.record h _ nofun) fun _ => ih

/-- What follows a round obeys the rule, if anything does. -/
def AgainObeys (rule : Rule) (again : Option (Unit → Attempt Outcome)) : Prop :=
  ∀ next, again = some next → (next ()).Obeys rule

variable (obeys : gateway.Obeys rule) {r : Round} {again : Option (Unit → Attempt Outcome)}
  (onward : AgainObeys rule again)

include onward in
/-- What follows a failed write obeys. -/
lemma obeys_recover (failure : Failure) : (recover r again failure).Obeys rule := by
  unfold recover
  split
  · exact obeys_ask (fun h => lenient.record h _ nofun) fun _ => onward _ rfl
  · exact obeys_done _

include obeys onward in
/-- A round obeys if the gateway does, and what follows the round. -/
lemma obeys_round : (round gateway r again).Obeys rule := by
  refine Obeys.next (obeys_attributed lenient (obeys.policy r.plan.resource)) fun read => ?_
  unfold revise
  dsimp only
  split
  · exact obeys_ask (fun h => lenient.record h _ nofun) fun _ => obeys_done _
  · refine obeys_ask lenient.standing fun standing => ?_
    cases standing with
    | expired reason => exact obeys_done _
    | active left =>
      refine Obeys.bind (obeys_attributed lenient (obeys.write _ _ _)) fun result => ?_
      cases result with
      | ok _ => exact obeys_recordRemovals lenient (obeys_done _)
      | error failure => exact obeys_recover lenient onward failure

include obeys in
/-- All rounds obey if the gateway does. -/
lemma obeys_rounds {plan : Plan} {organization : Organization} (left number : Nat) :
    (rounds gateway plan organization left number).Obeys rule := by
  induction left generalizing number with
  | zero => exact obeys_round lenient obeys fun _ none => nomatch none
  | succ left ih =>
    refine obeys_round lenient obeys fun next eq => ?_
    cases eq
    exact ih (number + 1)

include obeys in
/-- A remediation obeys every lenient rule that its gateway obeys. -/
lemma obeys_execute (plan : Plan) : (execute gateway plan).Obeys rule := by
  unfold execute
  split
  · exact Obeys.next (obeys_attributed lenient (obeys.organization plan.organizationId))
      fun organization => obeys_rounds lenient obeys _ _
  · exact obeys_ask (fun h => lenient.record h _ nofun) fun _ => obeys_done _

end Rounds

end Remediation

/-! ### Handling events -/

namespace Intake

variable {rule : Rule} {gateway : Gateway} {event : Event} {h : History}

/-- Remediating what a finding asks for obeys every lenient rule that the gateway obeys and that
lets the settings be read, a configuration be loaded and an invocation be opened. -/
lemma obeys_remediate (lenient : rule.IsLenient) (obeys : gateway.Obeys rule)
    (settings : ∀ h, rule h .settings) (configuration : ∀ h, rule h .configuration)
    (invoke : ∀ h timeout, rule h (.invoke timeout)) (finding : Finding) :
    (remediate gateway finding).Obeys rule := by
  refine Obeys.next (obeys_query settings) fun settings => ?_
  refine Obeys.next (obeys_query configuration) fun configuration => ?_
  refine Obeys.next (obeys_query fun h => invoke h settings.timeout) fun _ => ?_
  refine Obeys.next ((Remediation.obeys_execute lenient obeys _).awaited lenient) fun outcome => ?_
  exact obeys_ask (fun h => lenient.record h _ nofun) fun _ => obeys_done _

/-- Remediating what a finding asks for ensures what holds of its steps, each of them after a success
of the ones before. -/
lemma ensures_remediate {finding : Finding} (settles : rule h .settings)
    (configures : ∀ settings, rule (h ++ [⟨.settings, .ok settings⟩]) .configuration)
    (opens : ∀ settings configuration,
      rule (h ++ [⟨.settings, .ok settings⟩] ++ [⟨.configuration, .ok configuration⟩])
        (.invoke settings.timeout))
    (executes : ∀ settings configuration,
      (Attempt.next (Remediation.execute gateway
        ⟨configuration, finding.organizationId, some settings.writeAttempts⟩).awaited
          conclude).Ensures rule (fun _ _ => True)
        (h ++ [⟨.settings, .ok settings⟩] ++ [⟨.configuration, .ok configuration⟩] ++
          [⟨.invoke settings.timeout, .ok ()⟩])) :
    (remediate gateway finding).Ensures rule (fun _ _ => True) h := by
  refine ⟨settles, fun settled => ?_⟩
  rcases settled with _ | settings
  · trivial
  refine ⟨configures settings, fun configured => ?_⟩
  rcases configured with _ | configuration
  · trivial
  refine ⟨opens settings configuration, fun opened => ?_⟩
  rcases opened with _ | _
  · trivial
  · exact executes settings configuration

/-- Wrapping up ensures what holds of one entry and of the release of the keys. -/
lemma ensures_wrapUp (records : ∀ entry, rule h (.record entry))
    (releases : ∀ h, rule h (.release keys)) (result : Except Failure Unit) :
    (wrapUp event result).Ensures rule (fun _ _ => True) h := by
  cases result with
  | ok _ => exact ⟨releases _, fun _ => trivial⟩
  | error failure =>
    rw [wrapUp]
    cases failureEntry event failure with
    | ok entry => exact ⟨records entry, fun _ => ⟨releases _, fun _ => trivial⟩⟩
    | error undescribed => exact ⟨releases _, fun _ => trivial⟩

/-- Handling an event ensures what its processing ensures, if that is enough for the entry that is
written in the end. -/
lemma ensures_handle {inv : History → Prop} (retains : rule [] (.retain .eventId event.recordedId))
    (processed : (process gateway event).Ensures rule (fun h _ => inv h)
      [⟨.retain .eventId event.recordedId, ()⟩])
    (pauses : ∀ h, rule h .pause)
    (records : ∀ h entry, inv h → rule (h ++ [⟨.pause, ()⟩]) (.record entry))
    (releases : ∀ h, rule h (.release keys)) :
    (handle gateway event).Ensures rule (fun _ _ => True) [] := by
  refine ⟨retains, fun _ => ?_⟩
  rw [ensures_bind, awaited, ensures_bind]
  refine processed.imp (fun _ _ asked => asked) fun h result holds => ?_
  exact ⟨pauses h, fun _ => ensures_wrapUp (fun entry => records h entry holds) releases result⟩

end Intake

end PolicyWarden
