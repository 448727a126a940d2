import Mathlib.Tactic.Common
import PolicyWarden.Gateway.Service
import PolicyWarden.Proofs.Dialogue.WindingUp

/-!
# How operations over the service end

An operation of the gateway over the service is one guarded question: it looks at the invocation,
makes its call, and makes something of how the call came out.  An ending that is overtaken is told as
it is; a failure of the call's own is classified; and a reply is read, which may fail, too.
-/

namespace PolicyWarden

namespace Gateway

namespace Service

open PolicyWarden.Service Dialogue

variable {α : Type} {stage : Stage} {resource : Text} {call : Call}

/-! ### Replies -/

/-- What a reply about an organization is worth: it must have a display name. -/
def organizationIn (id : Text) : Except Void OrganizationReply → Except Failure Organization
  | .error void => .error (.noField "displayName" void)
  | .ok ⟨some (u :: domain)⟩ => .ok ⟨id, u :: domain⟩
  | .ok _ => .error (noDisplayName (Organization.resourceName id))

/-- What a reply about a policy is worth: it must have a version tag, and all of its bindings must be
there. -/
def policyIn (resource : Text) : Except Void PolicyReply → Except Failure VersionedPolicy
  | .error void => .error (.noField "etag" void)
  | .ok reply =>
      match Etag.toText reply.etag, reply.toPolicy? with
      | [], _ => .error (noEtag resource)
      | _, none => .error (.noField "role" .null)
      | version, some policy => .ok ⟨policy, version⟩

/-- No organization is made of a reply without a display name. -/
lemma domain_ne_nil_of_organizationIn {id : Text} {reply : Except Void OrganizationReply}
    {organization : Organization} (reads : organizationIn id reply = .ok organization) :
    organization.domain ≠ [] := by
  unfold organizationIn at reads
  split at reads
  · cases reads
  · cases reads
    exact List.cons_ne_nil _ _
  · cases reads

/-- No policy is made of a reply without a version tag. -/
lemma version_ne_nil_of_policyIn {reply : Except Void PolicyReply} {read : VersionedPolicy}
    (reads : policyIn resource reply = .ok read) : read.version ≠ [] := by
  unfold policyIn at reads
  split at reads
  · cases reads
  · split at reads
    · cases reads
    · cases reads
    · rename_i tagged
      cases reads
      exact tagged

/-- That a reply about an organization is worth nothing is no problem yet. -/
lemma problem?_of_organizationIn {id : Text} {reply : Except Void OrganizationReply}
    {failure : Failure} (reads : organizationIn id reply = .error failure) :
    failure.problem? = none := by
  unfold organizationIn at reads
  split at reads <;> cases reads <;> rfl

/-- That a reply about a policy is worth nothing is no problem yet. -/
lemma problem?_of_policyIn {reply : Except Void PolicyReply} {failure : Failure}
    (reads : policyIn resource reply = .error failure) : failure.problem? = none := by
  unfold policyIn at reads
  split at reads
  · cases reads
    rfl
  · split at reads <;> cases reads <;> rfl

/-- What follows a reply about an organization winds up with what the reply is worth. -/
lemma windUp?_readOrganization (id : Text) (reply : Except Void OrganizationReply) :
    (readOrganization id reply).windUp? = some (organizationIn id reply) := by
  obtain void | ⟨_ | _ | ⟨u, domain⟩⟩ := reply <;> rfl

/-- What follows a reply about a policy winds up with what the reply is worth. -/
lemma windUp?_readPolicy (resource : Text) (reply : Except Void PolicyReply) :
    (readPolicy resource reply).windUp? = some (policyIn resource reply) := by
  obtain void | reply := reply
  · rfl
  · rw [readPolicy, shownPolicy, policyIn]
    cases Etag.toText reply.etag with
    | nil => rfl
    | cons u version =>
      show (versionedPolicy reply (u :: version)).windUp? = _
      rw [versionedPolicy]
      cases reply.toPolicy? <;> rfl

/-! ### Operations -/

/-- What an operation gives back of how its call came out.  A problem that the call raised itself is
given back as it is; any other failure becomes the cause of the problem that the operation makes of
it, and so does a reply that is worth nothing. -/
def given {β : Type} (stage : Stage) (resource : Text) (problem : Failure → Problem)
    (read : β → Except Failure α) : Ending β → Except Failure α
  | .overtaken reason => .error (Deadline.exceeded stage (some resource) reason)
  | .own (.error failure) => .error (failure.classify (problem failure))
  | .own (.ok reply) => (read reply).mapError fun failure => failure.classify (problem failure)

/-- How an operation fails when its call comes out in some way: the problem that it raises, and the
cause of that. -/
inductive FailsWith {β : Type} (stage : Stage) (resource : Text) (problem : Failure → Problem)
    (read : β → Except Failure α) : Ending β → Problem → Failure → Prop
  /-- An abort has overtaken the call. -/
  | overtaken (reason : Failure) : FailsWith stage resource problem read (.overtaken reason)
      (.deadlineExceeded stage (some resource)) reason
  /-- The call has raised a problem. -/
  | raised (p : Problem) (cause : Failure) :
      FailsWith stage resource problem read (.own (.error (.problem p cause))) p cause
  /-- The call has raised something else. -/
  | foreign {failure : Failure} (foreign : failure.problem? = none) :
      FailsWith stage resource problem read (.own (.error failure)) (problem failure) failure
  /-- The reply is worth nothing. -/
  | unread {reply : β} {failure : Failure} (reads : read reply = .error failure) :
      FailsWith stage resource problem read (.own (.ok reply)) (problem failure) failure

/-- A failure that is no problem becomes the cause of one. -/
lemma classify_of_foreign {failure : Failure} (foreign : failure.problem? = none) (p : Problem) :
    failure.classify p = .problem p failure := by
  cases failure with
  | problem _ _ => cases foreign
  | _ => rfl

/-- An operation fails in these ways and no other. -/
lemma given_eq_error_iff {β : Type} {problem : Failure → Problem} {read : β → Except Failure α}
    (foreign : ∀ reply failure, read reply = .error failure → failure.problem? = none)
    {ending : Ending β} {failure : Failure} :
    given stage resource problem read ending = .error failure ↔
      ∃ p cause, failure = .problem p cause ∧
        FailsWith stage resource problem read ending p cause := by
  constructor
  · intro fails
    obtain (raised | reply) | reason := ending
    · obtain rfl : raised.classify (problem raised) = failure := Except.error.inj fails
      cases known : raised.problem? with
      | none => exact ⟨_, _, classify_of_foreign known _, .foreign known⟩
      | some p =>
        obtain ⟨cause, rfl⟩ : ∃ cause, raised = .problem p cause := by
          cases raised <;> cases known
          exact ⟨_, rfl⟩
        exact ⟨p, cause, rfl, .raised p cause⟩
    · have worth : (read reply).mapError (fun e => e.classify (problem e)) = .error failure := fails
      cases reads : read reply with
      | ok value =>
        rw [reads] at worth
        cases worth
      | error cause =>
        rw [reads] at worth
        obtain rfl : cause.classify (problem cause) = failure := Except.error.inj worth
        exact ⟨_, _, classify_of_foreign (foreign reply cause reads) _, .unread reads⟩
    · obtain rfl : Deadline.exceeded stage (some resource) reason = failure :=
        Except.error.inj fails
      exact ⟨_, _, rfl, .overtaken reason⟩
  · rintro ⟨p, cause, rfl, fails⟩
    cases fails with
    | overtaken reason => rfl
    | raised p cause => rfl
    | foreign foreign => exact congrArg Except.error (classify_of_foreign foreign _)
    | unread reads =>
      rw [given, reads]
      exact congrArg Except.error (classify_of_foreign (foreign _ _ reads) _)

/-- What is read of a reply is what an operation returns. -/
lemma exists_read_of_given_eq_ok {β : Type} {problem : Failure → Problem}
    {read : β → Except Failure α} {ending : Ending β} {value : α}
    (returns : given stage resource problem read ending = .ok value) :
    ∃ reply, ending = .own (.ok reply) ∧ read reply = .ok value := by
  obtain (raised | reply) | reason := ending
  · cases returns
  · have worth : (read reply).mapError (fun e => e.classify (problem e)) = .ok value := returns
    cases reads : read reply with
    | ok found =>
      rw [reads] at worth
      exact ⟨reply, rfl, reads.trans (congrArg _ (Except.ok.inj worth))⟩
    | error cause =>
      rw [reads] at worth
      cases worth
  · cases returns

/-- What an operation gives back of how its call came out is classified: it fails in the ways of
`FailsWith` and no other, and what it returns is usable. -/
structure Classifies {β : Type} (stage : Stage) (resource : Text) (problem : Failure → Problem)
    (read : β → Except Failure α) (usable : α → Prop) (result : Ending β → Except Failure α) :
    Prop where
  failed : ∀ ending failure, result ending = .error failure ↔
    ∃ p cause, failure = .problem p cause ∧ FailsWith stage resource problem read ending p cause
  returned : ∀ ending value, result ending = .ok value → usable value

/-- What an operation gives back is classified if its way of reading raises no problem of its own. -/
lemma classifies_given {β : Type} {problem : Failure → Problem} {read : β → Except Failure α}
    {usable : α → Prop}
    (foreign : ∀ reply failure, read reply = .error failure → failure.problem? = none)
    (worth : ∀ reply value, read reply = .ok value → usable value) :
    Classifies stage resource problem read usable (given stage resource problem read) where
  failed _ _ := given_eq_error_iff foreign
  returned _ _ returns := by
    obtain ⟨reply, -, reads⟩ := exists_read_of_given_eq_ok returns
    exact worth reply _ reads

/-- A failed write is a conflict if what was raised carries the code of one. -/
lemma writeProblem_eq (resource : Text) :
    writeProblem resource = fun failure =>
      if failure.code? = some (.number (.whole 10)) then .concurrentModification resource
      else .policyWrite resource := by
  funext failure
  rw [writeProblem, Failure.isConflict, Failure.conflictCode]
  simp only [beq_iff_eq]

/-- An operation is a guarded question. -/
lemma guards_operation {follow : call.Reply → Attempt α} {read : call.Reply → Except Failure α}
    (winds : ∀ reply, (follow reply).windUp? = some (read reply)) (problem : Failure → Problem) :
    (((guardedCall stage resource call).next follow).mapFailure
        fun failure => failure.classify (problem failure)).Guards (.call call)
      (fun reason => .error (Deadline.exceeded stage (some resource) reason))
      (fun _ race => given stage resource problem read race.ending) := by
  have called : (guardedCall stage resource call).Guards (.call call)
      (fun reason => .error (Deadline.exceeded stage (some resource) reason))
      (fun _ race => race.ending.told stage (some resource)) :=
    Guards.awaited Deadline.guards_guarded
  refine (Attempt.guards_mapFailure (Attempt.guards_next called winds) _).congr
    (fun reason => rfl) fun left race => ?_
  cases race with
  | refused failure => rfl
  | settled result => cases result <;> rfl
  | aborted reason => rfl

/-- Getting an organization is a guarded question. -/
lemma guards_organization (id : Text) :
    (organization id).Guards (.call (.organization (Organization.resourceName id)))
      (fun reason => .error
        (Deadline.exceeded .fetchOrganization (some (Organization.resourceName id)) reason))
      (fun _ race => given .fetchOrganization (Organization.resourceName id)
        (fun _ => .policyFetch (Organization.resourceName id) .fetchOrganization)
        (organizationIn id) race.ending) :=
  guards_operation (windUp?_readOrganization id) _

/-- Getting a policy is a guarded question. -/
lemma guards_policy (resource : Text) :
    (policy resource).Guards (.call (.policy resource policyFormat))
      (fun reason => .error (Deadline.exceeded .fetchPolicy (some resource) reason))
      (fun _ race => given .fetchPolicy resource (fun _ => .policyFetch resource .fetchPolicy)
        (policyIn resource) race.ending) :=
  guards_operation (windUp?_readPolicy resource) _

/-- Replacing a policy is a guarded question. -/
lemma guards_write (resource : Text) (policy : Policy) (version : Text) :
    (write resource policy version).Guards (.call (.write (.ofPolicy resource policy version)))
      (fun reason => .error (Deadline.exceeded .writePolicy (some resource) reason))
      (fun _ race => given .writePolicy resource (writeProblem resource) (fun _ => .ok ())
        race.ending) :=
  guards_operation (fun _ => rfl) _

/-- An operation concedes, since an ending that is overtaken is told as it is. -/
lemma concedes_operation {operation : Attempt α} {expired : Failure → Except Failure α}
    {problem : Failure → Problem} {read : call.Reply → Except Failure α}
    (guards : operation.Guards (.call call) expired
      (fun _ race => given stage resource problem read race.ending)) :
    operation.Concedes IsExceeded := by
  refine guards.concedes fun left race last => ?_
  obtain ⟨reason, rfl⟩ := last
  exact ⟨stage, some resource, reason, rfl⟩

end Service

/-- The gateway over the service concedes. -/
lemma concedes_service : Gateway.service.Concedes where
  organization id := Service.concedes_operation (Service.guards_organization id)
  policy resource := Service.concedes_operation (Service.guards_policy resource)
  write resource policy version :=
    Service.concedes_operation (Service.guards_write resource policy version)

end Gateway

end PolicyWarden
