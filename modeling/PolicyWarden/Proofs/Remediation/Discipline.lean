import Mathlib.Tactic.Common
import PolicyWarden.Proofs.Gateway.Substitution
import PolicyWarden.Proofs.Remediation.Rounds

/-!
# The order of calls

A remediation calls the gateway in a fixed order: the organization first, and then reading and
writing in turns.  Nothing is written but the purge of the policy that was read last, under the
version that came with it, and nothing is read again but after a conflict.

The order is kept under every behaviour of the gateway and of the invocation, at every moment of a
run: the main statement speaks of each call that is made, whatever was replied before it and whether
or not a reply ever comes.
-/

namespace PolicyWarden

/-! ### Calls -/

/-- The query is a call of the gateway. -/
def Query.isGatewayCall : Query → Bool
  | .organization _ | .policy _ | .write _ _ _ => true
  | _ => false

/-- The calls of the gateway among some exchanges. -/
def History.calls (h : History) : History :=
  h.filter fun exchange => exchange.query.isGatewayCall

@[simp]
lemma History.calls_append (h k : History) : (h ++ k).calls = h.calls ++ k.calls :=
  List.filter_append h k

/-- The first call of a history stays the first one. -/
lemma History.head?_calls_append {h k : History} {first : Exchange}
    (begins : h.calls.head? = some first) : (h ++ k).calls.head? = some first := by
  rw [History.calls_append, List.head?_append, begins, Option.some_or]

/-- An operation of the gateway is one call; the turns that pass after it are none. -/
lemma History.calls_operated {h : History} {query : Query} {reply : query.Reply}
    (call : query.isGatewayCall = true) :
    (h.operated query reply).calls = h.calls ++ [⟨query, reply⟩] := by
  rw [History.operated, History.calls_append]
  congr 1
  rw [History.calls, List.filter_cons, if_pos call]
  rfl

/-- A look at the invocation is no call. -/
@[simp]
lemma History.calls_cleared {h : History} {left : Option Nat} :
    (h.cleared left).calls = h.calls := by
  rw [History.cleared, History.calls_append]
  exact List.append_nil _

/-- The first call of a history is still the first one when a policy was read and the invocation was
found to be active. -/
lemma History.head?_calls_cleared_hasRead {h : History} {first : Exchange}
    (begins : h.calls.head? = some first) (resource : Text) (read : VersionedPolicy)
    (left : Option Nat) : ((h.hasRead resource read).cleared left).calls.head? = some first :=
  History.head?_calls_append (History.head?_calls_append begins)

/-- The call that comes after a number of others: the organization is asked for first, then the
resource is read and written in turns. -/
def Plan.IsTurn (plan : Plan) (number : Nat) (query : Query) : Prop :=
  if number = 0 then query = .organization plan.organizationId
  else if number % 2 = 1 then query = .policy plan.resource
  else ∃ policy version, query = .write plan.resource policy version

/-- Every call comes in its turn. -/
def Plan.InTurns (plan : Plan) (calls : List Query) : Prop :=
  ∀ number query, calls[number]? = some query → plan.IsTurn number query

/-- Calls stay in turns if the one is added whose turn it is. -/
lemma Plan.InTurns.concat {plan : Plan} {calls : List Query} {query : Query}
    (turns : plan.InTurns calls) (turn : plan.IsTurn calls.length query) :
    plan.InTurns (calls ++ [query]) := by
  intro number other found
  rcases Nat.lt_trichotomy number calls.length with before | rfl | behind
  · exact turns number other (by rwa [List.getElem?_append_left before] at found)
  · obtain rfl : query = other := by simpa using found
    exact turn
  · rw [List.getElem?_eq_none (by simp; omega)] at found
    cases found

/-- The configuration lists resources, and the one that is to be remediated is not among them. -/
def Plan.IsExcluded (p : Plan) : Prop :=
  ∃ listed, p.configuration.resources = some listed ∧ listed ≠ [] ∧ p.resource ∉ listed

/-- A resource that is not covered is one that others are listed in place of. -/
lemma Plan.covers_eq_false_iff {p : Plan} :
    p.configuration.covers p.resource = false ↔ p.IsExcluded := by
  unfold Plan.IsExcluded Configuration.covers
  cases p.configuration.resources with
  | none => simp
  | some listed => cases listed <;> simp

/-! ### Entitlement -/

/-- What entitles a remediation to a call after some history.  The organization is asked for before
anything else.  The policy is read first when the organization is known, and again when a write
failed because the policy had changed.  The policy is written when it was the last that was read,
the purge took something out of it, and the invocation was active just now. -/
def Plan.Entitles (plan : Plan) (h : History) : Query → Prop
  | .organization id => id = plan.organizationId ∧ h.calls = []
  | .policy resource =>
      resource = plan.resource ∧
        ((∃ organization,
            h.calls = [⟨.organization plan.organizationId, .ok organization⟩]) ∨
          ∃ policy version failure,
            h.calls.getLast? = some ⟨.write resource policy version, .error failure⟩ ∧
              Remediation.isConcurrent failure = true)
  | .write resource policy version =>
      resource = plan.resource ∧ ∃ organization read left,
        h.calls.head? = some ⟨.organization plan.organizationId, .ok organization⟩ ∧
          h.calls.getLast? = some ⟨.policy resource, .ok read⟩ ∧
          h.getLast? = some ⟨.standing, .active left⟩ ∧
          version = read.version ∧
          policy = (read.policy.purge (plan.allowance organization)).policy ∧
          (read.policy.purge (plan.allowance organization)).removals ≠ []
  | _ => True

/-- A call in its order: it is made for a plan that is not excluded, it comes in its turn, and the
history entitles to it. -/
structure Plan.Orders (plan : Plan) (h : History) (query : Query) : Prop where
  included : ¬ plan.IsExcluded
  turns : plan.InTurns (h.calls.map Exchange.query ++ [query])
  entitled : plan.Entitles h query

/-- What holds between the rounds: the organization was shown, all rounds so far have read and
written, and the policy may be read, because there was none or the last one met a conflict. -/
structure Plan.Between (plan : Plan) (organization : Organization) (h : History) : Prop where
  included : ¬ plan.IsExcluded
  shown : h.calls.head? = some ⟨.organization plan.organizationId, .ok organization⟩
  turns : plan.InTurns (h.calls.map Exchange.query)
  rounds : h.calls.length % 2 = 1
  entitled : plan.Entitles h (.policy plan.resource)

namespace Remediation

variable {plan : Plan} {organization : Organization} {h : History} {read : VersionedPolicy}

/-- The policy is read in its order. -/
lemma orders_reading (between : plan.Between organization h) :
    plan.Orders h (.policy plan.resource) := by
  refine ⟨between.included, between.turns.concat ?_, between.entitled⟩
  have rounds := between.rounds
  rw [Plan.IsTurn, List.length_map, if_neg (by omega), if_pos rounds]

/-- The calls after a policy was read and the invocation was found to be active. -/
lemma calls_cleared_hasRead {left : Option Nat} :
    ((h.hasRead plan.resource read).cleared left).calls =
      h.calls ++ [⟨.policy plan.resource, .ok read⟩] := by
  rw [History.calls_cleared]
  exact History.calls_operated rfl

/-- A policy that does not comply is written in its order. -/
lemma orders_writing (between : plan.Between organization h) {number : Nat} (left : Option Nat)
    (complies : ¬ read.policy.Complies (plan.allowance organization)) :
    plan.Orders ((h.hasRead plan.resource read).cleared left)
      (Round.writing ⟨plan, organization, number⟩ read) := by
  have rounds := between.rounds
  refine ⟨between.included, ?_, rfl, organization, read, left, ?_, ?_, ?_, rfl, rfl,
    mt Policy.removals_eq_nil_iff.mp complies⟩
  · rw [calls_cleared_hasRead, List.map_append]
    refine (orders_reading between).turns.concat ?_
    rw [Plan.IsTurn, if_neg (by simp), if_neg (by simp; omega)]
    exact ⟨_, _, rfl⟩
  · exact History.head?_calls_cleared_hasRead between.shown _ _ _
  · rw [calls_cleared_hasRead, List.getLast?_concat]
  · rw [History.cleared, List.getLast?_concat]

/-- After a conflict the next round may begin. -/
lemma between_conflict (between : plan.Between organization h) {number : Nat} (left : Option Nat)
    (complies : ¬ read.policy.Complies (plan.allowance organization)) {failure : Failure}
    (conflict : isConcurrent failure = true) (entry : Entry) :
    plan.Between organization
      (((h.hasRead plan.resource read).cleared left).operated
        (Round.writing ⟨plan, organization, number⟩ read) (.error failure) ++
          [⟨.record entry, ()⟩]) := by
  have writing : plan.Orders _ (Round.writing ⟨plan, organization, number⟩ read) :=
    orders_writing between left complies
  have calls : (((h.hasRead plan.resource read).cleared left).operated
      (Round.writing ⟨plan, organization, number⟩ read) (.error failure) ++
        ([⟨.record entry, ()⟩] : History)).calls =
      h.calls ++ [⟨.policy plan.resource, .ok read⟩] ++
        [⟨Round.writing ⟨plan, organization, number⟩ read, .error failure⟩] := by
    rw [History.calls_append, History.calls_operated rfl, calls_cleared_hasRead]
    exact List.append_nil _
  refine ⟨between.included, ?_, ?_, ?_, rfl,
    .inr ⟨(Round.purge ⟨plan, organization, number⟩ read).policy, read.version, failure, ?_,
      conflict⟩⟩
  · exact History.head?_calls_append <| History.head?_calls_append <|
      History.head?_calls_cleared_hasRead between.shown _ _ _
  · rw [calls, List.map_append, ← calls_cleared_hasRead]
    exact writing.turns
  · have rounds := between.rounds
    rw [calls]
    simp
    omega
  · rw [calls, List.getLast?_concat]

/-- The invariant between rounds is kept, and every call is made in its order. -/
lemma roundsKeep_between (plan : Plan) (organization : Organization) :
    RoundsKeep plan organization
      (fun h query => query.isGatewayCall = true → plan.Orders h query) (fun _ _ => True)
      (fun _ => plan.Between organization) where
  pause _ call := by cases call
  reading between _ := orders_reading between
  unread _ _ := trivial
  compliant _ _ := ⟨fun call => (by cases call), fun _ => trivial⟩
  standing _ _ call := by cases call
  expired _ _ _ := trivial
  writing left between complies _ := orders_writing between left complies
  written _ _ _ := ensures_recordRemovals (fun _ _ _ _ call => by cases call) trivial
  lost _ _ _ _ _ := trivial
  conflict left _ between complies conflict _ :=
    ⟨fun call => (by cases call), between_conflict between left complies conflict _⟩

/-- Every call of a remediation is made in its order. -/
lemma ensures_orders (plan : Plan) :
    (execute .direct plan).Ensures (fun h query => query.isGatewayCall = true → plan.Orders h query)
      (fun _ _ => True) [] := by
  have included (covers : plan.configuration.covers plan.resource = true) :
      ¬ plan.IsExcluded := by
    rw [← Plan.covers_eq_false_iff, covers]
    exact Bool.noConfusion
  have first : plan.InTurns [.organization plan.organizationId] :=
    have none : plan.InTurns [] := by
      intro _ _ found
      cases found
    none.concat rfl
  refine ensures_execute (fun _ => ⟨fun call => (by cases call), fun _ => trivial⟩)
    (fun covers _ => ⟨included covers, first, rfl, rfl⟩) (fun _ _ => trivial)
    (fun covers organization => ?_) (roundsKeep_between plan)
  exact ⟨included covers, rfl, first, rfl, rfl, .inl ⟨organization, rfl⟩⟩

/-- **Order of calls.**  A remediation over any gateway is the one over the direct gateway with that
gateway in the place of its queries.  It calls nothing if its resource is excluded, and begins with
a call if not; and each call is made in its order, whatever was replied to the calls before it. -/
theorem execute_calls_in_order (plan : Plan) :
    (∀ gateway, execute gateway plan = (execute .direct plan).through gateway) ∧
      (¬ plan.IsExcluded →
        (execute .direct plan).asked? = some (.organization plan.organizationId)) ∧
      ∀ h query next, (execute .direct plan).Reaches h (.ask query next) →
        query.isGatewayCall = true → plan.Orders h query := by
  refine ⟨fun gateway => execute_eq_through gateway plan, fun included => ?_,
    fun h query next reach => reach.asks_of_ensures (ensures_orders plan)⟩
  have covers : plan.configuration.covers plan.resource = true := by
    rw [← Bool.not_eq_false, Plan.covers_eq_false_iff]
    exact included
  rw [execute, if_pos covers]
  rfl

/-! ### A run that meets a conflict -/

/-- A plan for the organization `1` that leaves everything else to the defaults. -/
def plainPlan : Plan :=
  ⟨⟨[], none⟩, "1", none⟩

/-- The organization `1`. -/
def plainOrganization : Organization :=
  ⟨"1", "c"⟩

/-- A policy with a user of the organization and a user of another one. -/
def mixedPolicy : Policy :=
  ⟨[⟨"owner", ["user:a@b", "user:a@c"], []⟩], []⟩

/-- The calls of a run that meets a conflict are made in their order up to the second reading, which
comes right after the write that was refused. -/
theorem execute_calls_in_order_conflict :
    ∃ h next policy failure,
      (execute .direct plainPlan).Reaches h (.ask (.policy plainPlan.resource) next) ∧
      h.calls.length = 3 ∧
      h.calls.getLast? = some ⟨.write plainPlan.resource policy "7", .error failure⟩ ∧
      isConcurrent failure = true ∧
      Query.isGatewayCall (.policy plainPlan.resource) = true ∧
      plainPlan.Orders h (.policy plainPlan.resource) := by
  let start : History := .operated [] (.organization "1") (.ok plainOrganization)
  let cleared : History := (start.hasRead plainPlan.resource ⟨mixedPolicy, "7"⟩).cleared none
  let failure : Failure := .ofProblem (.concurrentModification plainPlan.resource)
  let lost : History :=
    cleared.operated (Round.writing ⟨plainPlan, plainOrganization, 1⟩ ⟨mixedPolicy, "7"⟩)
        (.error failure) ++
      [⟨.record (.conflict plainPlan.resource 1 plainPlan.limit), ()⟩]
  have reach : ∃ next,
      (execute .direct plainPlan).Reaches lost (.ask (.policy plainPlan.resource) next) :=
    ⟨_, .ask _ <| .ask _ <| .ask _ <| .ask _ <| .ask _ <| .ask _ <| .ask _ <| .ask _ <| .ask _ <|
      .ask _ <| .ask _ <| .here _⟩
  obtain ⟨next, reach⟩ := reach
  exact ⟨lost, next, _, failure, reach, rfl, rfl, rfl, rfl,
    (execute_calls_in_order plainPlan).2.2 lost _ next reach rfl⟩

end Remediation

end PolicyWarden
