import Mathlib.Tactic.Common
import PolicyWarden.Proofs.Gateway.Service
import PolicyWarden.Proofs.Remediation.Commitment
import PolicyWarden.Proofs.Service.Requests

/-!
# What a remediation sends

A remediation over the service is the one over the direct gateway with every operation carried out
as a call.  Calls of the gateway and calls of the service go together: the first and the last of the
former, if they have succeeded, are the first and the last of the latter.  So a request is made of
the reply that came last, however often the policy was read before, and keeps it but for the members
who have to leave.
-/

namespace PolicyWarden

namespace Gateway

variable {k h : History} {exchange : Exchange}

/-- What is no operation of a gateway is left to the world. -/
lemma carryOut_eq_query {gateway : Gateway} {query : Query} (other : query.isGatewayCall = false) :
    gateway.carryOut query = .query query := by
  cases query <;> first | rfl | cases other

/-- Between the operations the service is not called. -/
lemma Expands.serviceCalls_eq_nil {gateway : Gateway} (expands : gateway.Expands k h)
    (prompt : ∀ exchange ∈ k, exchange.query.isPrompt = true) (none : k.calls = []) :
    h.serviceCalls = [] := by
  induction expands with
  | nil => rfl
  | @cons query reply past k h carried rest ih =>
    obtain ⟨first, others⟩ := List.forall_mem_cons.mp prompt
    have other : query.isGatewayCall = false := by
      simpa using List.filter_eq_nil_iff.mp none ⟨query, reply⟩ List.mem_cons_self
    rw [carryOut_eq_query other, Dialogue.ends_query_iff] at carried
    have silent : History.serviceCalls [⟨query, reply⟩] = [] := by
      cases query <;> first | rfl | cases first
    rw [History.serviceCalls_append, carried, silent, List.nil_append]
    refine ih others (List.filter_eq_nil_iff.mpr fun x mem => ?_)
    exact List.filter_eq_nil_iff.mp none x (List.mem_cons_of_mem _ mem)

/-- The service is first called for the first operation. -/
lemma Expands.exists_of_head? {gateway : Gateway} (expands : gateway.Expands k h)
    (prompt : ∀ exchange ∈ k, exchange.query.isPrompt = true)
    (first : k.calls.head? = some exchange) :
    ∃ past rest, h.serviceCalls = past.serviceCalls ++ rest ∧
      (gateway.carryOut exchange.query).Ends past exchange.reply := by
  obtain ⟨calls, eq⟩ := List.head?_eq_some_iff.mp first
  -- Before the first operation there is none, so the service has not been called either.
  obtain ⟨before, after, rfl, none, -, -⟩ := List.filter_eq_cons_iff.mp eq
  obtain ⟨start, rest, rfl, silent, onward⟩ := expands.exists_of_append
  obtain ⟨past, rest, rfl, carried, -⟩ := onward.exists_of_cons
  refine ⟨past, rest.serviceCalls, ?_, carried⟩
  rw [History.serviceCalls_append, History.serviceCalls_append, silent.serviceCalls_eq_nil,
    List.nil_append]
  · exact fun x mem => prompt x (List.mem_append_left _ mem)
  · exact List.filter_eq_nil_iff.mpr none

/-- The service was last called for the last operation. -/
lemma Expands.exists_of_getLast? {gateway : Gateway} (expands : gateway.Expands k h)
    (prompt : ∀ exchange ∈ k, exchange.query.isPrompt = true)
    (last : k.calls.getLast? = some exchange) :
    ∃ start past, h.serviceCalls = start ++ past.serviceCalls ∧
      (gateway.carryOut exchange.query).Ends past exchange.reply := by
  obtain ⟨calls, eq⟩ := List.getLast?_eq_some_iff.mp last
  obtain ⟨before, after, rfl, -, one⟩ := List.filter_eq_append_iff.mp eq
  obtain ⟨between, after, rfl, none, -, done⟩ := List.filter_eq_cons_iff.mp one
  rw [← List.append_assoc] at expands prompt
  obtain ⟨start, rest, rfl, -, onward⟩ := expands.exists_of_append
  obtain ⟨past, rest, rfl, carried, silent⟩ := onward.exists_of_cons
  refine ⟨start.serviceCalls, past, ?_, carried⟩
  rw [History.serviceCalls_append, History.serviceCalls_append, silent.serviceCalls_eq_nil _ done,
    List.append_nil]
  exact fun x mem => prompt x (List.mem_append_right _ (List.mem_cons_of_mem _ mem))

end Gateway

namespace Remediation

open Service

variable {plan : Plan} {h : History} {request : WriteRequest} {timeout : Option Nat}

/-- A request is sent for a write of the remediation over the direct gateway. -/
lemma exists_write_of_sent
    (sent : (execute .service plan).Asks h (.call (.write request) timeout)) :
    ∃ k past resource policy version, h.serviceCalls = past.serviceCalls ∧
      Gateway.service.Expands k past ∧
      (execute .direct plan).Asks k (.write resource policy version) ∧
      request = .ofPolicy resource policy version := by
  rw [execute_eq_through] at sent
  obtain ⟨k, past, rest, query, rfl, expands, asks, carried⟩ := Dialogue.asks_through_iff.mp sent
  have prompt : query.isPrompt = true := ((isPrompt_execute plan).of_asks asks).1
  cases query with
  | organization id =>
    cases (Gateway.Service.asks_organization_call_iff.mp carried).1
  | policy resource =>
    cases (Gateway.Service.asks_policy_call_iff.mp carried).1
  | write resource policy version =>
    obtain ⟨same, rfl⟩ := Gateway.Service.asks_write_call_iff.mp carried
    cases same
    exact ⟨k, past, resource, policy, version, by simp [History.serviceCalls, Query.isServiceCall],
      expands, asks, rfl⟩
  | call other left => cases prompt
  | _ => cases (Dialogue.asks_query_iff.mp carried).2

/-- **Requests keep the last reply.**  Whatever the service has replied, and however often, a
remediation sends a request only after it was shown its organization and then its policy.  The
request names the resource of the remediation and keeps the reply that showed the policy last, but
for the members who are not permitted. -/
theorem execute_requests_keep_last_reply
    (sent : (execute .service plan).Asks h (.call (.write request) timeout)) :
    ∃ organization domain first reply last,
      h.serviceCalls.head? =
        some ⟨.call (.organization plan.resource) first, .settled (.ok (.ok organization))⟩ ∧
      organization.displayName = some domain ∧
      h.serviceCalls.getLast? =
        some ⟨.call (.policy plan.resource policyFormat) last, .settled (.ok (.ok reply))⟩ ∧
      request.resource = plan.resource ∧
      request.Keeps ⟨domain, plan.configuration.allowDomains⟩ reply := by
  obtain ⟨k, past, resource, policy, version, same, expands, asks, rfl⟩ := exists_write_of_sent sent
  have prompt := ((isPrompt_execute plan).of_asks asks).2
  -- A write has to be entitled by the first and the last operation before it, which succeeded.
  obtain ⟨next, reach⟩ := asks
  obtain ⟨-, -, rfl, organization, read, -, shown, fetched, -, -, rfl, -⟩ :=
    reach.asks_of_ensures (ensures_orders plan) rfl
  obtain ⟨start, rest, head, got⟩ := expands.exists_of_head? prompt shown
  obtain ⟨first, shows, rfl, domain, -, -⟩ := Gateway.Service.ends_organization_ok_iff.mp got
  obtain ⟨start, rest, tail, got⟩ := expands.exists_of_getLast? prompt fetched
  obtain ⟨last, reply, rfl, policy, -, -⟩ := Gateway.Service.ends_policy_ok_iff.mp got
  refine ⟨shows, organization.domain, first, reply, last, ?_, domain, ?_, rfl,
    keeps_ofPolicy policy⟩
  · rw [same, head]
    rfl
  · rw [same, tail]
    exact List.getLast?_concat

/-! ### A run that is told of a conflict by the service -/

/-- A reply that shows a user of the organization and a user of another one, but no role. -/
def mixedReply : PolicyReply :=
  ⟨some [some ⟨none, some ["user:a@b", "user:a@c"], none⟩], some (.text "AAAA"),
    some (.number (.whole 3))⟩

/-- A reply that leaves out the version, and the members of one of two bindings. -/
def barerReply : PolicyReply :=
  ⟨some [some ⟨some "owner", none, none⟩, some ⟨none, some ["user:a@b"], none⟩],
    some (.text "BBBB"), none⟩

/-- A remediation that meets a conflict, up to its second request. -/
def contestedHistory : History :=
  History.served (.organization plainPlan.resource) none (.ok ⟨some "c"⟩) ++
    [⟨.pause, ()⟩, ⟨.pause, ()⟩] ++
    History.served (.policy plainPlan.resource policyFormat) none (.ok mixedReply) ++
    [⟨.record (.fetchedPolicy plainPlan.resource "AAAA" 1), ()⟩, ⟨.pause, ()⟩, ⟨.pause, ()⟩,
      ⟨.standing, .active none⟩, ⟨.standing, .active none⟩,
      ⟨.call (.write ⟨plainPlan.resource, [⟨[], ["user:a@c"], none⟩], [0, 0, 0],
          some (.number (.whole 3))⟩) none,
        .settled (.error (.fault "Error" "conflict" (some Failure.conflictCode) .absent))⟩,
      ⟨.pause, ()⟩, ⟨.pause, ()⟩, ⟨.pause, ()⟩, ⟨.pause, ()⟩,
      ⟨.record (.conflict plainPlan.resource 1 plainPlan.limit), ()⟩] ++
    History.served (.policy plainPlan.resource policyFormat) none (.ok barerReply) ++
    [⟨.record (.fetchedPolicy plainPlan.resource "BBBB" 2), ()⟩, ⟨.pause, ()⟩, ⟨.pause, ()⟩,
      ⟨.standing, .active none⟩, ⟨.standing, .active none⟩]

/-- After a conflict the request is made of the second reply. -/
theorem execute_requests_keep_last_reply_conflict :
    let request : WriteRequest :=
      ⟨plainPlan.resource, [⟨"owner", [], none⟩, ⟨[], [], none⟩], [4, 16, 65], none⟩
    (execute .service plainPlan).Asks contestedHistory (.call (.write request) none) ∧
      request.Keeps ⟨"c", []⟩ barerReply := by
  intro request
  have sent : (execute .service plainPlan).Asks contestedHistory (.call (.write request) none) := by
    refine ⟨?next, ?reach⟩
    case reach =>
      -- The run is followed exchange by exchange; the last query is still open.
      repeat apply Dialogue.Reaches.ask
      exact .here _
  obtain ⟨organization, domain, first, reply, last, shown, named, got, -, keeps⟩ :=
    execute_requests_keep_last_reply sent
  cases shown
  cases named
  cases got
  exact ⟨sent, keeps⟩

end Remediation

end PolicyWarden
