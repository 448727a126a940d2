import Mathlib.Tactic.Common
import PolicyWarden.Proofs.Rehearsal.Errands

/-!
# How operations over the service are classified

Whatever the service does in a call and whenever the signal of the invocation is raised, an operation
gives back what `Gateway.Service.given` makes of how its call came out.  `World.IsDecidedBy` says this
of one step in one world: when the call is made at all, how it comes out while it is made, and what
decides about it later.  The main statement says it of all operations, after any steps.
-/

namespace PolicyWarden

namespace Rehearsal

namespace World

variable {w : World} {run : Run}

/-! ### Requests -/

/-- No action takes note of a call. -/
lemma requests_act (action : Action) : (w.act action).requests = w.requests := by
  cases action with
  | advance millis =>
    obtain ⟨waiting, awake, later⟩ := w.exists_advance millis
    rw [act, later]
  | abort reason =>
    obtain ⟨timeline, waiting, awake, aborted⟩ := w.exists_abortNewest (abortReason reason)
    rw [act, aborted]
  | _ => rfl

/-- No actions take note of a call. -/
lemma requests_actAll (actions : List Action) : (w.actAll actions).requests = w.requests := by
  induction actions generalizing w with
  | nil => rfl
  | cons action actions ih => exact (ih (w := w.act action)).trans (requests_act action)

/-- A call is noted once. -/
lemma requests_answer_call (call : Service.Call) (timeout : Option Nat) :
    (w.answer run (.call call timeout)).world.requests = w.requests ++ [⟨call, timeout⟩] := by
  obtain ⟨service, served⟩ := (w.noteCall call timeout).serve_eq run call
  have answered : w.answer run (.call call timeout) =
      ({ w.noteCall call timeout with service := service }).perform run
        (w.service.script? call) := served
  rw [answered]
  cases w.service.script? call with
  | none => rfl
  | some script => exact requests_actAll _

/-- A call comes out as its script says. -/
lemma ending_answer_call (w : World) (run : Run) (call : Service.Call) (timeout : Option Nat) :
    (w.answer run (.call call timeout)).progress.reply?.map Race.ending =
      scriptEnding? (w.service.script? call)
        ((w.answer run (.call call timeout)).world.raised? run) := by
  obtain ⟨service, served⟩ := (w.noteCall call timeout).serve_eq run call
  have answered : w.answer run (.call call timeout) =
      ({ w.noteCall call timeout with service := service }).perform run
        (w.service.script? call) := served
  rw [answered]
  cases w.service.script? call with
  | none => rfl
  | some script => exact script.conduct.ending_race _

/-! ### Decisions -/

/-- The run of an attempt that is started next. -/
def nextRun (w : World) : Run :=
  { w.newRun with number := w.runs }

/-- A step makes one call under the deadline of the newest invocation, and comes to what is reported
of how the call came out.  If the invocation may not go on, then the call is not made. -/
structure IsDecidedBy (w : World) (s : Step) (call : Service.Call)
    (report : Ending call.Reply → Report) : Prop where
  expired : ∀ reason, w.standing w.nextRun = .expired reason →
    (w.step s).2 = .reported (report (.overtaken reason)) ∧ w.begun.Resembles (w.step s).1
  called : ∀ left, w.standing w.nextRun = .active left →
    (w.step s).1.requests = w.requests ++ [⟨call, left⟩]
  decided : ∀ left ending, w.standing w.nextRun = .active left →
    scriptEnding? (w.service.script? call)
      ((w.begun.answer w.nextRun (.call call left)).world.raised? w.nextRun) = some ending →
    (w.step s).2 = .reported (report ending)
  opened : ∀ left, w.standing w.nextRun = .active left →
    scriptEnding? (w.service.script? call)
      ((w.begun.answer w.nextRun (.call call left)).world.raised? w.nextRun) = none →
    (w.step s).2 = .pending w.pendings ∧
    ∀ later, ((w.step s).1.after later).reportsOf w.pendings =
      (fate w.nextRun (fun _ => none) (fun reason => some (report (.overtaken reason)))
        (w.step s).1 later).toList

/-- An attempt that is one guarded call is decided by how the call comes out. -/
lemma IsSettled.isDecidedBy (settled : w.IsSettled) {α : Type} {a : Attempt α} {give : α → Answer}
    {call : Service.Call} {expired : Failure → Except Failure α}
    {replied : Ending call.Reply → Except Failure α}
    (guards : a.Guards (.call call) expired (fun _ race => replied race.ending))
    (same : ∀ reason, expired reason = replied (.overtaken reason)) {s : Step}
    (attempts : w.step s = w.attempt a give) :
    w.IsDecidedBy s call fun ending => (replied ending).map give := by
  have mapped : Dialogue.Guards (Dialogue.map (fun result => result.map give) a) (.call call)
      (fun reason => (expired reason).map give) (fun _ race => (replied race.ending).map give) :=
    Dialogue.Guards.bind (g := fun result => result.map give) guards fun _ => rfl
  obtain ⟨inactive, active⟩ := settled.launch_guards w.newRun mapped rfl
  have launched : w.step s = w.launch w.newRun (Dialogue.map (fun result => result.map give) a) :=
    attempts
  rw [← launched] at inactive active
  constructor
  · intro reason standing
    rw [← same]
    exact inactive reason standing
  · intro left standing
    obtain ⟨continues, -, -⟩ := active left standing
    rw [continues]
    exact requests_answer_call call left
  · intro left ending standing comes
    obtain ⟨-, decided, -⟩ := active left standing
    have ends := (w.begun.ending_answer_call w.nextRun call left).trans comes
    obtain ⟨race, replies, rfl⟩ := Option.map_eq_some_iff.mp ends
    exact decided race replies
  · intro left standing stays
    obtain ⟨-, -, opened⟩ := active left standing
    have ends := (w.begun.ending_answer_call w.nextRun call left).trans stays
    exact opened (Option.map_eq_none_iff.mp ends)

/-! ### Operations -/

open Gateway.Service

/-- **The classification of failures.**  After any steps that began with a calm world, an operation
over the service is decided by how its one call comes out.

The operation fails with the problem of an exceeded deadline if the invocation may not go on, and the
call is not made then; or if the call was overtaken by an abort.  It fails with the problem that the
call raised, if it raised one.  It fails with a conflict if a write raised anything else that carries
the code of a conflict, and with the problem of its own stage and resource if the call raised any
other value, or if its reply is worth nothing; and what was raised is the cause of that.  There is no
other way to fail, and neither an organization without a domain nor a policy without a version is
ever returned. -/
theorem operations_classified (calm : w.IsCalm) (unreported : w.reports = [])
    (gateway : w.gateway = .service) (earlier : List Step) :
    let v := w.after earlier
    (∀ id,
      let name := Organization.resourceName id
      let problem := fun _ : Failure => Problem.policyFetch name .fetchOrganization
      let result := given .fetchOrganization name problem (organizationIn id)
      (organization id).Guards (.call (.organization name)) (fun reason => result (.overtaken reason))
        (fun _ race => result race.ending) ∧
      v.IsDecidedBy (.organization id) (.organization name)
        (fun ending => (result ending).map .organization) ∧
      Classifies .fetchOrganization name problem (organizationIn id)
        (fun organization => organization.domain ≠ []) result) ∧
    (∀ resource,
      let problem := fun _ : Failure => Problem.policyFetch resource .fetchPolicy
      let result := given .fetchPolicy resource problem (policyIn resource)
      (policy resource).Guards (.call (.policy resource Service.policyFormat))
        (fun reason => result (.overtaken reason)) (fun _ race => result race.ending) ∧
      v.IsDecidedBy (.policy resource) (.policy resource Service.policyFormat)
        (fun ending => (result ending).map .policy) ∧
      Classifies .fetchPolicy resource problem (policyIn resource)
        (fun read => read.version ≠ []) result) ∧
    ∀ resource policy version,
      let problem := fun failure : Failure =>
        if failure.code? = some (.number (.whole 10)) then Problem.concurrentModification resource
        else .policyWrite resource
      let result := given .writePolicy resource problem fun _ => .ok ()
      (write resource policy version).Guards (.call (.write (.ofPolicy resource policy version)))
        (fun reason => result (.overtaken reason)) (fun _ race => result race.ending) ∧
      v.IsDecidedBy (.write resource policy version) (.write (.ofPolicy resource policy version))
        (fun ending => (result ending).map fun _ => .nothing) ∧
      Classifies .writePolicy resource problem (fun _ => .ok ()) (fun _ => True) result := by
  intro v
  obtain ⟨settled, -, same⟩ :=
    (calm.isSettled unreported (.inr gateway)).settled_after earlier
  have service : v.gateway = .service := same.trans gateway
  refine ⟨fun id => ⟨guards_organization id, ?_, ?_⟩,
    fun resource => ⟨guards_policy resource, ?_, ?_⟩, fun resource policy version => ?_⟩
  · refine settled.isDecidedBy (guards_organization id) (fun _ => rfl) ?_
    rw [step, service]
    rfl
  · exact classifies_given (fun _ _ => problem?_of_organizationIn)
      fun _ _ => domain_ne_nil_of_organizationIn
  · refine settled.isDecidedBy (guards_policy resource) (fun _ => rfl) ?_
    rw [step, service]
    rfl
  · exact classifies_given (fun _ _ => problem?_of_policyIn) fun _ _ => version_ne_nil_of_policyIn
  · rw [← writeProblem_eq]
    refine ⟨guards_write resource policy version, ?_, ?_⟩
    · refine settled.isDecidedBy (guards_write resource policy version) (fun _ => rfl) ?_
      rw [step, service]
      rfl
    · exact classifies_given (fun _ _ reads => by cases reads) fun _ _ _ => trivial

/-- A write raises a conflict, and becomes one; a policy is asked for, and the call stays open until
the invocation is aborted. -/
theorem operations_classified_conflict :
    let conflict : Failure := .fault "Error" "10 ABORTED" (some (.number (.whole 10))) .absent
    let w : World :=
      { gateway := .service
        service :=
          { policies := [⟨[], .never⟩]
            writes := [⟨[], .atOnce (.error conflict)⟩] } }
    let v := w.after [.renew (.whole 1000)]
    let taken := v.step (.policy "organizations/1")
    (v.step (.write "organizations/1" ⟨[], []⟩ "AAAA")).2 =
        .reported (.error (.problem (.concurrentModification "organizations/1") conflict)) ∧
      taken.2 = .pending 0 ∧
      (taken.1.after [.act (.abort .absent)]).reportsOf 0 =
        [.error (Deadline.exceeded .fetchPolicy (some "organizations/1") (abortReason .absent))] := by
  intro conflict w v taken
  obtain ⟨-, policies, writes⟩ :=
    operations_classified (w := w) ⟨rfl, rfl⟩ rfl rfl [.renew (.whole 1000)]
  have active : v.standing v.nextRun = .active (some 1000) := by decide +kernel
  obtain ⟨-, fetched, -⟩ := policies "organizations/1"
  obtain ⟨-, written, -⟩ := writes "organizations/1" ⟨[], []⟩ "AAAA"
  obtain ⟨pending, reported⟩ := fetched.opened (some 1000) active rfl
  refine ⟨written.decided (some 1000) (.own (.error conflict)) active rfl, pending, ?_⟩
  exact (reported _).trans (by decide +kernel)

/-- An abort during a call is not heard if the call then throws or hands over what it has already: the
invocation may go on when the call is made, and the signal is raised during it, but the operation
comes to what the call threw or handed over. -/
theorem abort_unheard_by_finished_call :
    let gone := Failure.error "boom"
    let shown : Service.OrganizationReply := ⟨some "cloudorg.com"⟩
    let w (conduct : Conduct (Except Void Service.OrganizationReply)) : World :=
      { gateway := .service, service := { organizations := [⟨[.abort .absent], conduct⟩] } }
    let v (conduct : Conduct (Except Void Service.OrganizationReply)) : World :=
      (w conduct).after [.renew (.whole 60000)]
    (∀ conduct, (v conduct).standing (v conduct).nextRun = .active (some 60000) ∧
      ((v conduct).begun.answer (v conduct).nextRun
        (.call (.organization "organizations/1") (some 60000))).world.raised? (v conduct).nextRun =
          some (abortReason .absent)) ∧
    ((v (.throws gone)).step (.organization "1")).2 =
      .reported (.error (.problem (.policyFetch "organizations/1" .fetchOrganization) gone)) ∧
    ((v (.atOnce (.ok (.ok shown)))).step (.organization "1")).2 =
      .reported (.ok (.organization ⟨"1", "cloudorg.com"⟩)) := by
  intro gone shown w v
  have decided (conduct : Conduct (Except Void Service.OrganizationReply)) :
      (v conduct).IsDecidedBy (.organization "1") (.organization "organizations/1") _ :=
    IsSettled.isDecidedBy
      ((IsCalm.isSettled (w := w conduct) ⟨rfl, rfl⟩ rfl (.inr rfl)).settled_after _).1
      (guards_organization "1") (fun _ => rfl) rfl
  have active (conduct : Conduct (Except Void Service.OrganizationReply)) :
      (v conduct).standing (v conduct).nextRun = .active (some 60000) := rfl
  refine ⟨fun conduct => ⟨active conduct, rfl⟩, ?_, ?_⟩
  · exact (decided (.throws gone)).decided (some 60000) (.own (.error gone)) (active _) rfl
  · exact (decided (.atOnce (.ok (.ok shown)))).decided (some 60000) (.own (.ok (.ok shown)))
      (active _) rfl

end World

end Rehearsal

end PolicyWarden
