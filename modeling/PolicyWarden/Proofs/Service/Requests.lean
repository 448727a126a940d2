import Mathlib.Tactic.Common
import PolicyWarden.Policy.Purge
import PolicyWarden.Service.Wire

/-!
# Requests made of replies

A policy is read from a reply of the service, purged, and written back in a request.  The request
keeps the reply binding by binding (`keeps_ofPolicy`): roles and permitted members are sent in the
order in which they were shown, nothing is added or left out, and the version of the format is that
of the reply.

Of a condition not everything is kept.  `Condition.carried` is what comes through: a condition with
an expression loses its location, and one without an expression is lost altogether.
-/

namespace PolicyWarden

namespace Service

variable {a : Allowance} {reply : PolicyReply} {policy : Policy} {resource version : Text}

/-! ### Bindings -/

/-- A reply has a policy exactly if it shows all of its bindings. -/
lemma PolicyReply.toPolicy?_eq_some_iff :
    reply.toPolicy? = some policy ↔
      ∃ shown : List BindingReply, reply.bindings.getD [] = shown.map some ∧
        policy = ⟨shown.map BindingReply.toBinding, reply.rest⟩ := by
  rw [toPolicy?, Option.map_eq_some_iff]
  constructor
  · rintro ⟨bindings, eq, rfl⟩
    obtain ⟨shown, same, rfl⟩ := BindingReply.toBindings?_eq_some_iff.mp eq
    exact ⟨shown, same, rfl⟩
  · rintro ⟨shown, same, rfl⟩
    exact ⟨_, BindingReply.toBindings?_eq_some_iff.mpr ⟨shown, same, rfl⟩, rfl⟩

/-- What is sent for a binding: the one that was shown, with its permitted members. -/
abbrev BindingReply.purged (a : Allowance) (b : BindingReply) : BindingRequest :=
  .ofBinding (b.toBinding.purge a)

/-- As many bindings are sent as were shown. -/
lemma length_ofPolicy_purge (shows : reply.toPolicy? = some policy) :
    (WriteRequest.ofPolicy resource (policy.purge a).policy version).bindings.length =
      (reply.bindings.getD []).length := by
  obtain ⟨shown, same, rfl⟩ := PolicyReply.toPolicy?_eq_some_iff.mp shows
  simp [WriteRequest.ofPolicy, Policy.bindings_purge, same]

/-- Each binding that is sent is the one that was shown in its place, purged. -/
lemma exists_shown_of_sent (shows : reply.toPolicy? = some policy) {i : Nat}
    {sent : BindingRequest}
    (found : (WriteRequest.ofPolicy resource (policy.purge a).policy version).bindings[i]? =
      some sent) :
    ∃ shown, (reply.bindings.getD [])[i]? = some (some shown) ∧ sent = shown.purged a := by
  obtain ⟨shown, same, rfl⟩ := PolicyReply.toPolicy?_eq_some_iff.mp shows
  simp only [WriteRequest.ofPolicy, Policy.bindings_purge, List.getElem?_map,
    Option.map_eq_some_iff] at found
  obtain ⟨_, ⟨_, ⟨b, there, rfl⟩, rfl⟩, rfl⟩ := found
  exact ⟨b, by rw [same, List.getElem?_map, there]; rfl, rfl⟩

/-- The version of the format that is sent is the one that was shown, unless there was none. -/
lemma version_ofPolicy_purge (shows : reply.toPolicy? = some policy) :
    (WriteRequest.ofPolicy resource (policy.purge a).policy version).version =
      reply.version.filter fun version => version != .null := by
  obtain ⟨shown, -, rfl⟩ := PolicyReply.toPolicy?_eq_some_iff.mp shows
  have kept : Json.lookup "version" reply.rest =
      reply.version.filter fun version => version != .null := by
    unfold PolicyReply.rest
    cases reply.version.filter fun version => version != .null with
    | none => rfl
    | some v => exact if_pos rfl
  -- What was shown is no null, so that the second look for a null changes nothing.
  rw [WriteRequest.ofPolicy, Policy.get?, Policy.rest_purge, kept, Option.filter_filter]
  simp only [Bool.and_self]

/-- A request keeps a reply: it has the bindings of the reply with their roles and with those of
their members who are permitted, and the version of the reply, if there is one. -/
structure WriteRequest.Keeps (a : Allowance) (reply : PolicyReply) (request : WriteRequest) :
    Prop where
  length : request.bindings.length = (reply.bindings.getD []).length
  bindings : ∀ (i : Nat) (sent : BindingRequest), request.bindings[i]? = some sent →
    ∃ shown, (reply.bindings.getD [])[i]? = some (some shown) ∧
      sent.role = shown.role.getD [] ∧
      sent.members = (shown.members.getD []).filter a.permits
  version : ∀ v, request.version = some v ↔ reply.version = some v ∧ v ≠ .null

/-- The request that is made of the purge of a reply keeps the reply. -/
lemma keeps_ofPolicy (shows : reply.toPolicy? = some policy) :
    (WriteRequest.ofPolicy resource (policy.purge a).policy version).Keeps a reply where
  length := length_ofPolicy_purge shows
  bindings i sent found := by
    obtain ⟨shown, there, rfl⟩ := exists_shown_of_sent shows found
    exact ⟨shown, there, rfl, rfl⟩
  version v := by
    rw [version_ofPolicy_purge shows]
    simp

/-! ### Conditions -/

/-- The condition that a request shows; a field that is not sent is empty. -/
def Condition.ofSent (sent : Option Json) : Condition :=
  let field (key : Text) : Text := ((sent.bind fun c => c.get? key).bind Json.text?).getD []
  ⟨field "expression", field "title", field "description", field "location"⟩

/-- What of a condition is sent. -/
def Condition.carried (c : Condition) : Condition :=
  if c.expression = [] then {} else { c with location := [] }

/-- A condition comes through whole exactly if it has no location, and an expression unless it is
empty. -/
lemma Condition.carried_eq_self_iff {c : Condition} :
    c.carried = c ↔ c = {} ∨ c.location = [] ∧ c.expression ≠ [] := by
  obtain ⟨expression, title, description, location⟩ := c
  by_cases empty : expression = []
  · simp [carried, empty, eq_comm]
  · simp [carried, empty, eq_comm]

/-- A binding is sent without a condition exactly if the one that it had has no expression. -/
lemma condition_purged_eq_none_iff (b : BindingReply) :
    (b.purged a).condition = none ↔ (b.condition.getD {}).expression = [] := by
  obtain ⟨role, members, _ | ⟨expression, title, description, location⟩⟩ := b
  · exact ⟨fun _ => rfl, fun _ => rfl⟩
  · cases expression with
    | nil => exact ⟨fun _ => rfl, fun _ => rfl⟩
    | cons u expression => exact ⟨nofun, nofun⟩

/-- The condition that is sent with a binding shows what is carried of the one that it had. -/
lemma ofSent_purged (b : BindingReply) :
    Condition.ofSent (b.purged a).condition = (b.condition.getD {}).carried := by
  obtain ⟨role, members, _ | ⟨expression, title, description, location⟩⟩ := b
  · rfl
  · cases expression with
    | nil => rfl
    | cons u expression =>
      -- Which of the other fields are sent depends on which of them are set.
      cases title <;> cases description <;> rfl

end Service

end PolicyWarden
