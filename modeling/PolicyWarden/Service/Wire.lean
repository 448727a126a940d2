import PolicyWarden.Failure.Basic
import PolicyWarden.Organization
import PolicyWarden.Policy.Basic
import PolicyWarden.Text.Base64

/-!
# The resource service

The service keeps organizations and their policies.  Its replies may leave almost everything out,
or be void altogether; a policy is read with a tag of its version, in bytes or as their base64 text,
and written back with the bytes of the tag that was read.

What a reply does not leave out is of the type that the service declares for it: names and members
are texts, and a binding is a record or null.  Only the version of a policy format may be any value,
as it is handed back without being looked at.
-/

namespace PolicyWarden

namespace Service

/-! ### Replies -/

/-- An organization as the service shows it. -/
structure OrganizationReply where
  displayName : Option Text
  deriving DecidableEq, Repr

/-- The condition of a binding; an empty text is one that was not set. -/
structure Condition where
  expression : Text := []
  title : Text := []
  description : Text := []
  location : Text := []
  deriving DecidableEq, Repr

/-- A binding as the service shows it. -/
structure BindingReply where
  role : Option Text
  members : Option (List Text)
  condition : Option Condition
  deriving DecidableEq, Repr

/-- The version tag of a policy. -/
inductive Etag where
  | bytes (value : Bytes)
  | text (value : Text)
  deriving DecidableEq, Repr

/-- A policy as the service shows it; a null may stand in the place of a binding. -/
structure PolicyReply where
  bindings : Option (List (Option BindingReply))
  etag : Option Etag
  version : Option Json
  deriving DecidableEq, Repr

/-! ### Requests -/

/-- A binding as it is sent to the service. -/
structure BindingRequest where
  role : Text
  members : List Text
  condition : Option Json
  deriving DecidableEq, Repr

/-- A policy as it is sent to the service, with the tag that it must still have there. -/
structure WriteRequest where
  resource : Text
  bindings : List BindingRequest
  etag : Bytes
  version : Option Json
  deriving DecidableEq, Repr

/-- A call of the service. -/
inductive Call where
  /-- Ask for an organization by its resource name. -/
  | organization (name : Text)
  /-- Ask for the policy of a resource in a version of the policy format. -/
  | policy (resource : Text) (format : Nat)
  /-- Replace the policy of a resource. -/
  | write (request : WriteRequest)
  deriving DecidableEq, Repr

/-- What the service replies to a call; nobody looks at the reply to a write. -/
abbrev Call.Reply : Call → Type
  | organization _ => Except Void OrganizationReply
  | policy _ _ => Except Void PolicyReply
  | write _ => Unit

/-- The policy format whose bindings may have conditions. -/
def policyFormat : Nat :=
  3

/-! ### Version tags -/

/-- The text form of a tag; a missing one is empty. -/
def Etag.toText : Option Etag → Text
  | none => []
  | some (text value) => value
  | some (bytes value) => Base64.encode value

/-! ### From replies to policies -/

/-- The member of a condition under a key, unless it is not set. -/
def Condition.member (key value : Text) : Members :=
  if value.isEmpty then [] else [(key, .text value)]

/-- What a condition adds to a binding; one without expression adds nothing, and where it applies
is not kept. -/
def Condition.toMembers (c : Condition) : Members :=
  if c.expression.isEmpty then []
  else
    [("condition", .object ((Text.ofString "expression", .text c.expression) ::
      (Condition.member "title" c.title ++ Condition.member "description" c.description)))]

/-- The binding of a reply. -/
def BindingReply.toBinding (b : BindingReply) : Binding where
  role := b.role.getD []
  members := b.members.getD []
  rest := match b.condition with
    | some condition => condition.toMembers
    | none => []

/-- The bindings of a reply, unless a null is among them. -/
def BindingReply.toBindings? : List (Option BindingReply) → Option (List Binding)
  | [] => some []
  | none :: _ => none
  | some b :: rest => (toBindings? rest).map fun bindings => b.toBinding :: bindings

/-- A reply has bindings exactly when it shows every one of them. -/
theorem BindingReply.toBindings?_eq_some_iff {replies : List (Option BindingReply)}
    {bindings : List Binding} :
    toBindings? replies = some bindings ↔
      ∃ shown : List BindingReply, replies = shown.map some ∧ bindings = shown.map toBinding := by
  induction replies generalizing bindings with
  | nil =>
    constructor
    · rintro ⟨⟩
      exact ⟨[], rfl, rfl⟩
    · rintro ⟨shown, same, rfl⟩
      cases shown <;> simp_all [toBindings?]
  | cons reply rest ih =>
    cases reply with
    | none =>
      constructor
      · rintro ⟨⟩
      · rintro ⟨shown, same, -⟩
        cases shown <;> simp_all
    | some b =>
      simp only [toBindings?, Option.map_eq_some_iff, ih]
      constructor
      · rintro ⟨_, ⟨shown, rfl, rfl⟩, rfl⟩
        exact ⟨b :: shown, rfl, rfl⟩
      · rintro ⟨shown, same, rfl⟩
        cases shown with
        | nil => simp at same
        | cons first others =>
          obtain ⟨rfl, rfl⟩ : b = first ∧ rest = others.map some := by simpa using same
          exact ⟨_, ⟨others, rfl, rfl⟩, rfl⟩

/-- What a reply says beside its bindings; a null in the place of the version says nothing. -/
def PolicyReply.rest (p : PolicyReply) : Members :=
  match p.version.filter fun version => version != .null with
  | some version => [("version", version)]
  | none => []

/-- The policy of a reply, unless a null is among its bindings. -/
def PolicyReply.toPolicy? (p : PolicyReply) : Option Policy :=
  (BindingReply.toBindings? (p.bindings.getD [])).map fun bindings => ⟨bindings, p.rest⟩

/-! ### From policies to requests -/

/-- The request of a binding; an empty condition is not sent. -/
def BindingRequest.ofBinding (b : Binding) : BindingRequest where
  role := b.role
  members := b.members
  condition := (b.get? "condition").filter Json.isTruthy

/-- The request to replace the policy of a resource where its tag is still the one of a version. -/
def WriteRequest.ofPolicy (resource : Text) (p : Policy) (version : Text) : WriteRequest where
  resource := resource
  bindings := p.bindings.map BindingRequest.ofBinding
  etag := Base64.decode version
  version := (p.get? "version").filter fun version => version != .null

end Service

end PolicyWarden
