import Mathlib.Tactic.Common
import PolicyWarden.Intake

/-!
# Gateways in the place of queries

Over the direct gateway a dialogue leaves every operation to the world as one query.
`Dialogue.through` lets a gateway carry these operations out.  A remediation over any gateway is the
one over the direct gateway with that gateway in the place of its queries, and so is the handling of
an event; whatever holds of the queries of the latter holds of the operations that the former makes.
-/

namespace PolicyWarden

namespace Dialogue

variable {α β : Type}

/-- The dialogue in which a gateway carries out the operations that are asked for. -/
def through (gateway : Gateway) : Dialogue α → Dialogue α
  | done value => done value
  | ask (.organization id) next =>
      (gateway.organization id).bind fun reply => (next reply).through gateway
  | ask (.policy resource) next =>
      (gateway.policy resource).bind fun reply => (next reply).through gateway
  | ask (.write resource policy version) next =>
      (gateway.write resource policy version).bind fun reply => (next reply).through gateway
  | ask query next => ask query fun reply => (next reply).through gateway

variable {gateway : Gateway}

@[simp]
lemma through_done {value : α} : (done value).through gateway = done value :=
  rfl

@[simp]
lemma through_record {entry : Entry} {d : Dialogue α} :
    (andThen (.record entry) d).through gateway = andThen (.record entry) (d.through gateway) :=
  rfl

/-- Operations are carried out in each part of a dialogue. -/
lemma through_bind {d : Dialogue α} {next : α → Dialogue β} :
    (d.bind next).through gateway =
      (d.through gateway).bind fun value => (next value).through gateway := by
  induction d with
  | done value => rfl
  | ask query reply ih =>
    cases query <;> simp only [bind_ask, through, ih, bind_assoc]

end Dialogue

namespace Remediation

variable {α β : Type} {gateway : Gateway}

lemma through_next {a : Attempt α} {f : α → Attempt β} :
    (a.next f).through gateway = Attempt.next (a.through gateway) fun value =>
      (f value).through gateway := by
  simp only [Attempt.next, Dialogue.through_bind]
  congr 1
  funext result
  cases result <;> rfl

lemma through_attributed {p : Problem} {operation : Attempt α} :
    (attributed p operation).through gateway = attributed p (operation.through gateway) := by
  simp only [attributed, Attempt.mapFailure, Dialogue.map, Dialogue.awaited, Dialogue.through_bind]
  rfl

lemma through_recordRemovals {resource : Text} {removals : List Removal} {d : Dialogue α} :
    (recordRemovals resource removals d).through gateway =
      recordRemovals resource removals (d.through gateway) := by
  induction removals with
  | nil => rfl
  | cons removal rest ih => simp only [recordRemovals, Dialogue.through_record, ih]

/-- An operation of the direct gateway is carried out by the gateway. -/
lemma through_direct_write {resource version : Text} {policy : Policy} :
    (Gateway.direct.write resource policy version).through gateway =
      gateway.write resource policy version := by
  simp [Gateway.direct, Dialogue.query, Dialogue.through]

lemma through_direct_policy {resource : Text} :
    (Gateway.direct.policy resource).through gateway = gateway.policy resource := by
  simp [Gateway.direct, Dialogue.query, Dialogue.through]

lemma through_direct_organization {id : Text} :
    (Gateway.direct.organization id).through gateway = gateway.organization id := by
  simp [Gateway.direct, Dialogue.query, Dialogue.through]

/-- A round over a gateway is the direct one through it, if that holds of the rounds after it. -/
lemma round_eq_through {r : Round} {again : Option (Unit → Attempt Outcome)} :
    (round .direct r again).through gateway =
      round gateway r (again.map fun again _ => (again ()).through gateway) := by
  simp only [round, through_next, through_attributed, through_direct_policy]
  congr 1
  funext read
  simp only [revise]
  split
  · rfl
  · simp only [Deadline.whileActive, Dialogue.through]
    congr 1
    funext standing
    cases standing with
    | expired reason => rfl
    | active left =>
      simp only [writeBack, Dialogue.through_bind, through_attributed, through_direct_write]
      congr 1
      funext result
      cases result with
      | ok _ => exact through_recordRemovals
      | error failure =>
        cases again with
        | none =>
          cases repeats : isConcurrent failure && r.mayRepeat <;>
            simp [recover, repeats, Attempt.fail]
        | some again =>
          cases repeats : isConcurrent failure && r.mayRepeat <;>
            simp [recover, repeats, Attempt.fail]

/-- A remediation over any gateway is the direct one with that gateway in the place of its
queries. -/
lemma execute_eq_through (gateway : Gateway) (plan : Plan) :
    execute gateway plan = (execute .direct plan).through gateway := by
  have rounds_eq (organization : Organization) (left number : Nat) :
      rounds gateway plan organization left number =
        (rounds .direct plan organization left number).through gateway := by
    induction left generalizing number with
    | zero => rw [rounds, rounds, round_eq_through]; rfl
    | succ left ih => rw [rounds, rounds, round_eq_through, Option.map_some, ih]
  simp only [execute]
  split
  · simp only [through_next, through_attributed, through_direct_organization, rounds_eq]
  · rfl

end Remediation

/-! ### Handling events -/

namespace Intake

variable {gateway : Gateway} {event : Event} {finding : Finding}

/-- Wrapping up calls no gateway. -/
lemma through_wrapUp {result : Except Failure Unit} :
    (wrapUp event result).through gateway = wrapUp event result := by
  cases result with
  | ok _ => rfl
  | error failure =>
    rw [wrapUp]
    cases failureEntry event failure <;> rfl

/-- Remediating what a finding asks for calls the gateway where the remediation does. -/
lemma through_remediate :
    (remediate .direct finding).through gateway = remediate gateway finding := by
  simp only [remediate, Remediation.through_next, Dialogue.awaited, Dialogue.through_bind,
    ← Remediation.execute_eq_through]
  rfl

/-- Following a finding calls the gateway where its remediation does. -/
lemma through_follow : (follow .direct finding).through gateway = follow gateway finding := by
  rw [follow, follow]
  cases finding.state with
  | active => simp only [Dialogue.andThen, Dialogue.through, through_remediate]
  | inactive => rfl

/-- Handling an event over any gateway is handling it over the direct one with that gateway in the
place of its queries. -/
lemma handle_eq_through (gateway : Gateway) (event : Event) :
    handle gateway event = (handle .direct event).through gateway := by
  have processed : (process .direct event).through gateway = process gateway event := by
    rw [process, process]
    cases Intake.finding event with
    | error failure => rfl
    | ok finding => exact through_follow
  simp only [handle, Dialogue.andThen, Dialogue.through, Dialogue.awaited, Dialogue.through_bind,
    processed, through_wrapUp]

end Intake

end PolicyWarden
