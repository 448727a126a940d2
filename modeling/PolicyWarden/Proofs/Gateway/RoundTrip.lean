import Mathlib.Tactic.Common
import PolicyWarden.Proofs.Gateway.Service
import PolicyWarden.Proofs.Service.Requests
import PolicyWarden.Proofs.Text.Base64

/-!
# A policy there and back

The gateway over the service gets a policy from a reply, and later it sends a request under the
version that it got.  What stands in the reply beside the members of the bindings does not all come
back in the request.

* A tag in bytes comes back as it was, also if the reply carried it as standard text.
* Any other text is a version as well, unless it is empty.  Read back as bytes it may hold nothing,
  and then the request carries an empty tag, on which no write is conditional.
* A condition comes back without its location, and only if it has an expression.
-/

namespace PolicyWarden

namespace Gateway

namespace Service

open PolicyWarden.Service

variable {resource target version : Text} {reply : PolicyReply} {read : VersionedPolicy}
  {request : WriteRequest} {left timeout : Option Nat} {rest h : History}

/-- After a reply that came in time, a policy is got exactly if the reply shows all of its bindings
under a version tag. -/
lemma ends_policy_of_served_iff :
    (policy resource).Ends
        (History.served (.policy resource policyFormat) left (.ok reply) ++ rest) (.ok read) ↔
      reply.toPolicy? = some read.policy ∧ Etag.toText reply.etag = read.version ∧
        read.version ≠ [] ∧
        rest = [⟨.record (.fetchedPolicy resource read.version (reply.bindings.getD []).length),
          ()⟩] := by
  rw [ends_policy_ok_iff]
  constructor
  · rintro ⟨_, _, eq, shows, tag, given⟩
    cases eq
    exact ⟨shows, tag, given, rfl⟩
  · rintro ⟨shows, tag, given, rfl⟩
    exact ⟨left, reply, rfl, shows, tag, given⟩

/-! ### Version tags -/

/-- The reply carries a tag, in bytes or as their standard text. -/
def Carries (reply : PolicyReply) (tag : Bytes) : Prop :=
  reply.etag = some (.bytes tag) ∨ reply.etag = some (.text (Base64.encode tag))

/-- The version of a reply that carries a tag is the standard text of the tag. -/
lemma toText_of_carries {tag : Bytes} (carries : Carries reply tag) :
    Etag.toText reply.etag = Base64.encode tag := by
  rcases carries with eq | eq <;> rw [eq] <;> rfl

/-- **Tags come back.**  However a reply carries a tag that is not empty, the policy is got under
one and the same version, and a request under this version carries the very tag. -/
theorem tag_comes_back (resource : Text) {tag : Bytes} {shown : Policy} (given : tag ≠ [])
    (carries : Carries reply tag) (shows : reply.toPolicy? = some shown) :
    (∀ left rest read,
      (policy resource).Ends
          (History.served (.policy resource policyFormat) left (.ok reply) ++ rest) (.ok read) ↔
        read = ⟨shown, Base64.encode tag⟩ ∧
          rest = [⟨.record (.fetchedPolicy resource (Base64.encode tag)
            (reply.bindings.getD []).length), ()⟩]) ∧
      ∀ target p, ∃ request : WriteRequest, request.etag = tag ∧
        ∀ h call timeout, (write target p (Base64.encode tag)).Asks h (.call call timeout) ↔
          call = .write request ∧ h = [⟨.standing, .active timeout⟩] := by
  refine ⟨fun left rest read => ?_, fun target p => ?_⟩
  · rw [ends_policy_of_served_iff, toText_of_carries carries, shows]
    obtain ⟨policy, version⟩ := read
    constructor
    · rintro ⟨⟨⟩, rfl, -, rfl⟩
      exact ⟨rfl, rfl⟩
    · rintro ⟨⟨⟩, rfl⟩
      exact ⟨rfl, rfl, mt Base64.encode_eq_nil_iff.mp given, rfl⟩
  · exact ⟨.ofPolicy target p (Base64.encode tag), Base64.decode_encode tag,
      fun h call timeout => asks_write_call_iff⟩

/-- A tag of two bytes with both of the last digits and with padding comes back from its text. -/
theorem tag_comes_back_from_text :
    let reply : PolicyReply := ⟨none, some (.text "+/8="), none⟩
    let read : VersionedPolicy := ⟨.empty, "+/8="⟩
    (policy "organizations/1").Ends
        (History.served (.policy "organizations/1" policyFormat) none (.ok reply) ++
          [⟨.record (.fetchedPolicy "organizations/1" "+/8=" 0), ()⟩]) (.ok read) ∧
      ∃ request : WriteRequest, request.etag = [0xFB, 0xFF] ∧
        (write "organizations/1" read.policy read.version).Asks [⟨.standing, .active none⟩]
          (.call (.write request) none) := by
  intro reply read
  have text : Base64.encode [0xFB, 0xFF] = ("+/8=" : Text) := by decide
  have carries : Carries reply [0xFB, 0xFF] := .inr (by rw [text])
  have shows : reply.toPolicy? = some read.policy := rfl
  obtain ⟨gets, writes⟩ := tag_comes_back "organizations/1" (by decide) carries shows
  rw [text] at gets writes
  obtain ⟨request, etag, sends⟩ := writes "organizations/1" read.policy
  exact ⟨(gets none _ read).mpr ⟨rfl, rfl⟩, request, etag, (sends _ _ none).mpr ⟨rfl, rfl⟩⟩

/-- **Conditional writes.**  A request under the version that was got from a reply carries a tag,
unless the reply carried a text that shows fewer than two digits. -/
theorem tag_sent_ne_nil_iff {p : Policy}
    (got : (policy resource).Ends
      (History.served (.policy resource policyFormat) left (.ok reply) ++ rest) (.ok read))
    (sent : (write target p read.version).Asks h (.call (.write request) timeout)) :
    request.etag ≠ [] ↔
      ∀ text, reply.etag = some (.text text) → 2 ≤ (Base64.values text).length := by
  obtain ⟨-, version, given, -⟩ := ends_policy_of_served_iff.mp got
  have etag : request.etag = Base64.decode (Etag.toText reply.etag) := by
    cases (asks_write_call_iff.mp sent).1
    rw [version]
    rfl
  rw [← version] at given
  rw [etag]
  cases tag : reply.etag with
  | none => exact absurd (by rw [tag]; rfl) given
  | some e =>
    rw [tag] at given
    cases e with
    | text text =>
      rw [Etag.toText, Base64.decode_ne_nil_iff]
      simp
    | bytes value =>
      rw [Etag.toText, Base64.decode_encode]
      have given : value ≠ [] := mt Base64.encode_eq_nil_iff.mpr given
      simp [given]

/-- A reply under a tag that is shown as text. -/
def taggedReply (tag : Text) : PolicyReply :=
  ⟨none, some (.text tag), none⟩

/-- A policy is got from a reply under any tag that is not empty. -/
lemma ends_policy_taggedReply (tag : Text) (given : tag ≠ []) :
    (policy "organizations/1").Ends
      (History.served (.policy "organizations/1" policyFormat) none (.ok (taggedReply tag)) ++
        [⟨.record (.fetchedPolicy "organizations/1" tag 0), ()⟩]) (.ok ⟨.empty, tag⟩) :=
  ends_policy_of_served_iff.mpr ⟨rfl, rfl, given, rfl⟩

/-- A request is sent for every policy and every version. -/
lemma asks_write_ofPolicy (p : Policy) (version : Text) :
    (write "organizations/1" p version).Asks [⟨.standing, .active none⟩]
      (.call (.write (.ofPolicy "organizations/1" p version)) none) :=
  asks_write_call_iff.mpr ⟨rfl, rfl⟩

/-- A request under two digits carries a tag, also if there is something between them. -/
theorem tag_sent_of_two_digits :
    (WriteRequest.ofPolicy "organizations/1" .empty "A*A").etag ≠ [] := by
  have got := ends_policy_taggedReply "A*A" (by decide)
  refine (tag_sent_ne_nil_iff got (asks_write_ofPolicy _ _)).mpr fun text eq => ?_
  cases eq
  decide

/-- Under the text of an asterisk a policy is got, and the request under that version carries an
empty tag. -/
theorem tag_of_asterisk_is_empty :
    ∃ request : WriteRequest,
      (policy "organizations/1").Ends
          (History.served (.policy "organizations/1" policyFormat) none (.ok (taggedReply "*")) ++
            [⟨.record (.fetchedPolicy "organizations/1" "*" 0), ()⟩]) (.ok ⟨.empty, "*"⟩) ∧
        (write "organizations/1" .empty "*").Asks [⟨.standing, .active none⟩]
          (.call (.write request) none) ∧
        request.etag = [] :=
  ⟨_, ends_policy_taggedReply "*" (by decide), asks_write_ofPolicy _ _, by decide⟩

/-! ### Conditions -/

/-- **Conditions that come back.**  In the request that is made of the purge of a policy, each
binding shows what is carried of the condition that the reply showed in its place.  It shows the
whole condition exactly if that has no location, and an expression unless it is empty. -/
theorem conditions_come_back {a : Allowance}
    (got : (policy resource).Ends
      (History.served (.policy resource policyFormat) left (.ok reply) ++ rest) (.ok read))
    (sent : (write target (read.policy.purge a).policy version).Asks h
      (.call (.write request) timeout)) :
    request.bindings.length = (reply.bindings.getD []).length ∧
      ∀ (i : Nat) (binding : BindingRequest), request.bindings[i]? = some binding →
        ∃ shown : BindingReply, (reply.bindings.getD [])[i]? = some (some shown) ∧
          let condition := shown.condition.getD {}
          Condition.ofSent binding.condition = condition.carried ∧
            (binding.condition = none ↔ condition.expression = []) ∧
            (Condition.ofSent binding.condition = condition ↔
              condition = {} ∨ condition.location = [] ∧ condition.expression ≠ []) := by
  have shows := (ends_policy_of_served_iff.mp got).1
  cases (asks_write_call_iff.mp sent).1
  refine ⟨length_ofPolicy_purge shows, fun i binding found => ?_⟩
  obtain ⟨shown, there, rfl⟩ := exists_shown_of_sent shows found
  refine ⟨shown, there, ofSent_purged shown, condition_purged_eq_none_iff shown, ?_⟩
  rw [ofSent_purged, Condition.carried_eq_self_iff]

/-- A reply with one binding under a condition. -/
def conditionalReply (condition : Condition) : PolicyReply :=
  ⟨some [some ⟨some "owner", some ["user:a@b"], some condition⟩], some (.text "AAAA"), none⟩

/-- The policy of a reply with one binding under a condition, and its version. -/
def conditionalPolicy (condition : Condition) : VersionedPolicy :=
  ⟨⟨[⟨"owner", ["user:a@b"], condition.toMembers⟩], []⟩, "AAAA"⟩

/-- A policy is got from a reply with one binding under a condition. -/
lemma ends_policy_conditionalReply (condition : Condition) :
    (policy "organizations/1").Ends
      (History.served (.policy "organizations/1" policyFormat) none
          (.ok (conditionalReply condition)) ++
        [⟨.record (.fetchedPolicy "organizations/1" "AAAA" 1), ()⟩])
      (.ok (conditionalPolicy condition)) := by
  have given : ("AAAA" : Text) ≠ [] := by decide
  exact ends_policy_of_served_iff.mpr ⟨rfl, rfl, given, rfl⟩

/-- The request that writes the purge of a policy with one binding under a condition. -/
def conditionalRequest (condition : Condition) : WriteRequest :=
  .ofPolicy "organizations/1" ((conditionalPolicy condition).policy.purge ⟨"c", []⟩).policy "AAAA"

/-- A condition with an expression and a title comes back as it was. -/
theorem conditions_come_back_with_title :
    let condition : Condition := ⟨"true", "t", [], []⟩
    ∃ binding, (conditionalRequest condition).bindings[0]? = some binding ∧
      Condition.ofSent binding.condition = condition := by
  intro condition
  obtain ⟨-, each⟩ := conditions_come_back (ends_policy_conditionalReply condition)
    (asks_write_ofPolicy ((conditionalPolicy condition).policy.purge ⟨"c", []⟩).policy "AAAA")
  obtain ⟨shown, there, -, -, whole⟩ := each 0 _ rfl
  cases there
  exact ⟨_, rfl, whole.mpr (.inr ⟨rfl, by decide⟩)⟩

/-- A policy with one binding under the condition is got, and the request that writes the purge of
it shows another condition. -/
def Changes (condition : Condition) : Prop :=
  ∃ request : WriteRequest,
    (policy "organizations/1").Ends
        (History.served (.policy "organizations/1" policyFormat) none
            (.ok (conditionalReply condition)) ++
          [⟨.record (.fetchedPolicy "organizations/1" "AAAA" 1), ()⟩])
        (.ok (conditionalPolicy condition)) ∧
      (write "organizations/1"
          ((conditionalPolicy condition).policy.purge ⟨"c", []⟩).policy "AAAA").Asks
        [⟨.standing, .active none⟩] (.call (.write request) none) ∧
      ∃ binding, request.bindings = [binding] ∧ Condition.ofSent binding.condition ≠ condition

/-- A condition of which not everything is carried changes. -/
lemma changes_of_carried_ne {condition : Condition} (lost : condition.carried ≠ condition) :
    Changes condition := by
  have sent : Condition.ofSent
      (BindingReply.purged ⟨"c", []⟩ ⟨some "owner", some ["user:a@b"], some condition⟩).condition ≠
        condition := by
    rw [ofSent_purged]
    exact lost
  exact ⟨conditionalRequest condition, ends_policy_conditionalReply condition,
    asks_write_ofPolicy _ _, _, rfl, sent⟩

/-- A condition with a location does not come back as it was, and neither does one without an
expression. -/
theorem conditions_change_on_the_way :
    Changes ⟨"true", "t", "d", "f"⟩ ∧ Changes ⟨[], "t", "d", []⟩ :=
  ⟨changes_of_carried_ne (by decide), changes_of_carried_ne (by decide)⟩

end Service

end Gateway

end PolicyWarden
