import Mathlib.Tactic.Common
import PolicyWarden.Gateway.Service
import PolicyWarden.Proofs.Gateway.Expansion
import PolicyWarden.Proofs.Rehearsal.Account

/-!
# Operations over the service

Every operation of the gateway over the service is one call.  It asks for no other call, and it
asks for that one right after the invocation was found to be active, with the time that is left.
An operation that succeeds has had its call answered in time: `ends_organization_ok_iff` and
`ends_policy_ok_iff` say which replies make it succeed, and with what.
-/

namespace PolicyWarden

/-! ### Calls of the service -/

/-- The query is a call of the service. -/
def Query.isServiceCall : Query → Bool
  | .call _ _ => true
  | _ => false

namespace History

/-- The calls of the service among some exchanges. -/
def serviceCalls (h : History) : History :=
  h.filter fun exchange => exchange.query.isServiceCall

@[simp]
lemma serviceCalls_append (h k : History) :
    (h ++ k).serviceCalls = h.serviceCalls ++ k.serviceCalls :=
  List.filter_append h k

/-- A call of the service that is answered in time: the invocation is active, and two turns pass
until the reply is taken. -/
def served (call : Service.Call) (left : Option Nat) (reply : call.Reply) : History :=
  [⟨.standing, .active left⟩, ⟨.call call left, .settled (.ok reply)⟩, ⟨.pause, ()⟩, ⟨.pause, ()⟩]

end History

/-- What a prompt dialogue asks is prompt, and so is all that it has asked before. -/
lemma Dialogue.IsPrompt.of_asks {α : Type} {d : Dialogue α} {h : History} {q : Query}
    (prompt : d.IsPrompt) (asks : d.Asks h q) :
    q.isPrompt = true ∧ ∀ exchange ∈ h, exchange.query.isPrompt = true := by
  obtain ⟨next, reach⟩ := asks
  obtain ⟨onward, before⟩ := prompt.of_reaches reach
  exact ⟨onward.1, before⟩

namespace Gateway

namespace Service

open PolicyWarden.Service

variable {α : Type} {stage : Stage} {resource : Text} {call other : Call} {h : History}
  {q : Query} {timeout : Option Nat}

/-! ### Calls under a deadline -/

/-- What is done while the invocation is active succeeds exactly if it is found to be active. -/
lemma ends_whileActive_ok_iff {next : Option Nat → Attempt α} {value : α} :
    (Deadline.whileActive stage (some resource) next).Ends h (.ok value) ↔
      ∃ left rest, h = ⟨.standing, .active left⟩ :: rest ∧ (next left).Ends rest (.ok value) := by
  rw [Deadline.whileActive, Dialogue.ends_ask_iff]
  constructor
  · rintro ⟨left | reason, rest, rfl, ends⟩
    · exact ⟨left, rest, rfl, ends⟩
    · cases (Dialogue.ends_done_iff.mp ends).2
  · rintro ⟨left, rest, rfl, ends⟩
    exact ⟨Standing.active left, rest, rfl, ends⟩

/-- What is asked while the invocation is active is asked after it is found to be active. -/
lemma asks_whileActive_iff {next : Option Nat → Attempt α} :
    (Deadline.whileActive stage (some resource) next).Asks h q ↔
      h = [] ∧ q = .standing ∨
        ∃ left rest, h = ⟨.standing, .active left⟩ :: rest ∧ (next left).Asks rest q := by
  rw [Deadline.whileActive, Dialogue.asks_ask_iff, eq_comm (b := q)]
  refine or_congr_right ⟨?_, ?_⟩
  · rintro ⟨left | reason, rest, rfl, asks⟩
    · exact ⟨left, rest, rfl, asks⟩
    · exact absurd asks Dialogue.not_asks_done
  · rintro ⟨left, rest, rfl, asks⟩
    exact ⟨Standing.active left, rest, rfl, asks⟩

/-- A race ends well exactly if the call settles well, and is over one turn later. -/
lemma ends_settle_ok_iff {race : Race α} {value : α} :
    (Deadline.settle stage (some resource) race).Ends h (.ok value) ↔
      race = .settled (.ok value) ∧ h = [⟨.pause, ()⟩] := by
  cases race with
  | refused failure => simp [Deadline.settle, Attempt.fail]
  | settled result =>
    rw [Deadline.settle, Dialogue.ends_awaited_iff]
    simp [and_comm]
  | aborted reason =>
    rw [Deadline.settle, Dialogue.ends_awaited_iff]
    simp [Attempt.fail]

/-- Whatever becomes of a race, nothing that follows it can be left waiting. -/
lemma isPrompt_settle (race : Race α) : (Deadline.settle stage (some resource) race).IsPrompt := by
  cases race with
  | refused failure => trivial
  | settled result => exact Dialogue.IsPrompt.awaited trivial
  | aborted reason => exact Dialogue.IsPrompt.awaited trivial

/-- A call succeeds exactly when it is answered in time. -/
lemma ends_guardedCall_ok_iff {reply : call.Reply} :
    (guardedCall stage resource call).Ends h (.ok reply) ↔
      ∃ left, h = History.served call left reply := by
  simp only [guardedCall, Deadline.guarded, Dialogue.ends_awaited_iff, ends_whileActive_ok_iff,
    Dialogue.ends_bind_iff, ends_settle_ok_iff]
  constructor
  · rintro ⟨_, rfl, left, _, rfl, past, _, _, rfl, called, rfl, rfl⟩
    rw [Dialogue.ends_query_iff.mp called]
    exact ⟨left, rfl⟩
  · rintro ⟨left, rfl⟩
    exact ⟨_, rfl, left, _, rfl, _, _, _, rfl, Dialogue.ends_query_iff.mpr rfl, rfl, rfl⟩

/-- A call is made right after the invocation was found to be active, and no other call is. -/
lemma asks_guardedCall_call_iff :
    (guardedCall stage resource call).Asks h (.call other timeout) ↔
      other = call ∧ h = [⟨.standing, .active timeout⟩] := by
  simp only [guardedCall, Deadline.guarded, Dialogue.asks_awaited_iff, asks_whileActive_iff,
    Dialogue.asks_bind_iff]
  constructor
  -- A call can only be the one that is guarded: a standing or a pause is none, and the race asks
  -- for nothing that may be left waiting.
  · rintro ((⟨-, eq⟩ | ⟨left, _, rfl, asks | ⟨_, _, race, rfl, -, asks⟩⟩) | ⟨eq, -⟩)
    · cases eq
    · obtain ⟨rfl, eq⟩ := Dialogue.asks_query_iff.mp asks
      cases eq
      exact ⟨rfl, rfl⟩
    · cases ((isPrompt_settle race).of_asks asks).1
    · cases eq
  · rintro ⟨rfl, rfl⟩
    exact .inl (.inr ⟨timeout, [], rfl, .inl (Dialogue.asks_query_iff.mpr ⟨rfl, rfl⟩)⟩)

/-! ### Operations -/

section Operations

variable {f : call.Reply → Attempt α} {classify : Failure → Failure}

/-- An operation succeeds exactly when its call is answered in time and what follows succeeds. -/
lemma ends_operation_ok_iff {value : α} :
    (((guardedCall stage resource call).next f).mapFailure classify).Ends h (.ok value) ↔
      ∃ left reply rest, h = History.served call left reply ++ rest ∧
        (f reply).Ends rest (.ok value) := by
  rw [Attempt.ends_mapFailure_ok_iff, Attempt.ends_next_ok_iff]
  constructor
  · rintro ⟨past, rest, reply, rfl, ends, onward⟩
    obtain ⟨left, rfl⟩ := ends_guardedCall_ok_iff.mp ends
    exact ⟨left, reply, rest, rfl, onward⟩
  · rintro ⟨left, reply, rest, rfl, onward⟩
    exact ⟨_, rest, reply, rfl, ends_guardedCall_ok_iff.mpr ⟨left, rfl⟩, onward⟩

/-- An operation makes its call right after the invocation was found to be active, and makes no
other call, if none is made of the reply. -/
lemma asks_operation_call_iff (prompt : ∀ reply, (f reply).IsPrompt) :
    (((guardedCall stage resource call).next f).mapFailure classify).Asks h
        (.call other timeout) ↔
      other = call ∧ h = [⟨.standing, .active timeout⟩] := by
  rw [Attempt.asks_mapFailure_iff, Attempt.asks_next_iff, ← asks_guardedCall_call_iff,
    or_iff_left]
  rintro ⟨past, rest, reply, -, -, asks⟩
  cases ((prompt reply).of_asks asks).1

end Operations

/-- An organization is read exactly from a reply that shows its display name. -/
lemma ends_readOrganization_ok_iff {id : Text} {reply : Except Void OrganizationReply}
    {shown : Organization} :
    (readOrganization id reply).Ends h (.ok shown) ↔
      h = [] ∧ ∃ r, reply = .ok r ∧ r.displayName = some shown.domain ∧ shown.domain ≠ [] ∧
        shown.id = id := by
  obtain void | ⟨displayName⟩ := reply
  · simp [readOrganization, Attempt.fail]
  obtain _ | _ | ⟨u, name⟩ := displayName
  · simp [readOrganization, shownOrganization, Attempt.fail]
  · constructor
    · intro ends
      cases (Dialogue.ends_done_iff.mp ends).2
    · rintro ⟨-, _, ⟨⟩, shows, given, -⟩
      exact absurd (Option.some.inj shows).symm given
  · constructor
    · intro ends
      obtain ⟨rfl, ⟨⟩⟩ := Dialogue.ends_done_iff.mp ends
      exact ⟨rfl, _, rfl, rfl, List.cons_ne_nil u name, rfl⟩
    · rintro ⟨rfl, _, ⟨⟩, shows, -, rfl⟩
      obtain ⟨own, domain⟩ := shown
      cases shows
      exact .here _

/-- An organization is got exactly from a reply that shows its display name. -/
lemma ends_organization_ok_iff {id : Text} {shown : Organization} :
    (organization id).Ends h (.ok shown) ↔
      ∃ left reply, h = History.served (.organization (Organization.resourceName id)) left
          (.ok reply) ∧
        reply.displayName = some shown.domain ∧ shown.domain ≠ [] ∧ shown.id = id := by
  rw [organization, ends_operation_ok_iff]
  simp only [ends_readOrganization_ok_iff]
  constructor
  · rintro ⟨left, _, _, rfl, rfl, reply, rfl, shows⟩
    exact ⟨left, reply, List.append_nil _, shows⟩
  · rintro ⟨left, reply, rfl, shows⟩
    exact ⟨left, _, [], (List.append_nil _).symm, rfl, reply, rfl, shows⟩

/-- A policy is given a version exactly if all of its bindings are shown. -/
lemma ends_versionedPolicy_ok_iff {reply : PolicyReply} {version : Text} {read : VersionedPolicy} :
    (versionedPolicy reply version).Ends h (.ok read) ↔
      h = [] ∧ reply.toPolicy? = some read.policy ∧ version = read.version := by
  obtain ⟨policy, own⟩ := read
  unfold versionedPolicy
  cases reply.toPolicy? with
  | none => simp [Attempt.fail]
  | some shown => simp [Attempt.ok]

/-- A policy is read exactly from a reply that shows all of its bindings under a version tag. -/
lemma ends_readPolicy_ok_iff {reply : Except Void PolicyReply} {read : VersionedPolicy} :
    (readPolicy resource reply).Ends h (.ok read) ↔
      ∃ r, reply = .ok r ∧ r.toPolicy? = some read.policy ∧ Etag.toText r.etag = read.version ∧
        read.version ≠ [] ∧
        h = [⟨.record (.fetchedPolicy resource read.version (r.bindings.getD []).length), ()⟩] := by
  obtain void | reply := reply
  · simp [readPolicy, Attempt.fail]
  rw [readPolicy, shownPolicy]
  cases tag : Etag.toText reply.etag with
  | nil =>
    constructor
    · intro ends
      cases (Dialogue.ends_done_iff.mp ends).2
    · rintro ⟨_, ⟨⟩, -, version, given, -⟩
      exact absurd (version.symm.trans tag) given
  | cons u rest =>
    constructor
    · intro ends
      obtain ⟨_, h, rfl, onward⟩ := Dialogue.ends_ask_iff.mp ends
      obtain ⟨rfl, shows, version⟩ := ends_versionedPolicy_ok_iff.mp onward
      rw [← version]
      exact ⟨reply, rfl, shows, tag, List.cons_ne_nil u rest, rfl⟩
    · rintro ⟨_, ⟨⟩, shows, version, -, rfl⟩
      have version : u :: rest = read.version := tag.symm.trans version
      rw [← version]
      exact Dialogue.ends_ask_iff.mpr
        ⟨(), [], rfl, ends_versionedPolicy_ok_iff.mpr ⟨rfl, shows, version⟩⟩

/-- A policy is got exactly from a reply that shows all of its bindings under a version tag; the
version is the text of the tag. -/
lemma ends_policy_ok_iff {read : VersionedPolicy} :
    (policy resource).Ends h (.ok read) ↔
      ∃ left reply, h = History.served (.policy resource policyFormat) left (.ok reply) ++
          [⟨.record (.fetchedPolicy resource read.version (reply.bindings.getD []).length), ()⟩] ∧
        reply.toPolicy? = some read.policy ∧ Etag.toText reply.etag = read.version ∧
        read.version ≠ [] := by
  rw [policy, ends_operation_ok_iff]
  simp only [ends_readPolicy_ok_iff]
  constructor
  · rintro ⟨left, _, _, rfl, reply, rfl, shows, version, given, rfl⟩
    exact ⟨left, reply, rfl, shows, version, given⟩
  · rintro ⟨left, reply, rfl, shows, version, given⟩
    exact ⟨left, _, _, rfl, reply, rfl, shows, version, given, rfl⟩

/-- A policy that a reply shows is read without further calls. -/
lemma isPrompt_readPolicy (reply : Except Void PolicyReply) :
    (readPolicy resource reply).IsPrompt := by
  cases reply with
  | error void => trivial
  | ok reply =>
    rw [readPolicy, shownPolicy]
    split
    · trivial
    · refine ⟨rfl, fun _ => ?_⟩
      rw [versionedPolicy]
      split <;> trivial

/-- An organization that a reply shows is read without further calls. -/
lemma isPrompt_readOrganization {id : Text} (reply : Except Void OrganizationReply) :
    (readOrganization id reply).IsPrompt := by
  cases reply with
  | error void => trivial
  | ok reply =>
    rw [readOrganization, shownOrganization]
    split <;> trivial

/-- An organization is asked for by its resource name. -/
lemma asks_organization_call_iff {id : Text} :
    (organization id).Asks h (.call other timeout) ↔
      other = .organization (Organization.resourceName id) ∧
        h = [⟨.standing, .active timeout⟩] :=
  asks_operation_call_iff isPrompt_readOrganization

/-- A policy is asked for in the format that may have conditions. -/
lemma asks_policy_call_iff :
    (policy resource).Asks h (.call other timeout) ↔
      other = .policy resource policyFormat ∧ h = [⟨.standing, .active timeout⟩] :=
  asks_operation_call_iff isPrompt_readPolicy

/-- A policy is written in one request, which is made of the policy and its version. -/
lemma asks_write_call_iff {p : Policy} {version : Text} :
    (write resource p version).Asks h (.call other timeout) ↔
      other = .write (.ofPolicy resource p version) ∧ h = [⟨.standing, .active timeout⟩] :=
  asks_operation_call_iff fun _ => ⟨rfl, fun _ => trivial⟩

end Service

end Gateway

end PolicyWarden
