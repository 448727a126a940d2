import Mathlib.Data.List.Induction
import Mathlib.Tactic.Common
import PolicyWarden.Proofs.Dialogue.Course
import PolicyWarden.Proofs.Remediation.Commitment
import PolicyWarden.Proofs.Remediation.Undisturbed

/-!
# Success means compliance

A remediation that comes to an outcome has settled for a policy: the one that it has written, or the
one that it has read last and found nothing to remove from.  Either way no member of the policy has
to leave, whatever others have done to the store in the meantime.

For an update the write is looked up in the course of the scene.  Everything that a participant has
heard was heard on a turn of its own (`exists_turn_of_heard`), so there was one on which the store
took the policy over.  Where the policy is still the one of the store and nothing else happens, the
next remediation reads it once, leaves it alone and writes nothing.
-/

namespace PolicyWarden

/-! ### Commits in a history -/

/-- What commits a policy to a resource is a write that was accepted. -/
lemma Exchange.eq_of_commit? {exchange : Exchange} {resource : Text} {policy : Policy}
    (commits : exchange.commit? = some (resource, policy)) :
    ∃ version, exchange = ⟨.write resource policy version, .ok ()⟩ := by
  obtain ⟨query, reply⟩ := exchange
  cases query with
  | write written new version =>
    cases reply with
    | ok _ =>
      obtain ⟨rfl, rfl⟩ := Prod.mk.inj (Option.some.inj commits)
      exact ⟨version, rfl⟩
    | error _ => cases commits
  | _ => cases commits

/-- The only commit of a history stands somewhere in it. -/
lemma History.exists_write_of_commits {h : History} {resource : Text} {policy : Policy}
    (commits : h.commits = [(resource, policy)]) :
    ∃ past version rest, h = past ++ ⟨.write resource policy version, .ok ()⟩ :: rest := by
  have listed : (resource, policy) ∈ h.commits := by
    rw [commits]
    exact List.mem_singleton_self _
  obtain ⟨exchange, mem, committed⟩ := List.mem_filterMap.mp listed
  obtain ⟨version, rfl⟩ := Exchange.eq_of_commit? committed
  obtain ⟨past, rest, split⟩ := List.append_of_mem mem
  exact ⟨past, version, rest, split⟩

/-! ### What a remediation settles for -/

/-- The policy that a remediation has settled for complies with the allowance of the organization
that was shown.  An update has committed it and nothing else, and if there was nothing to do, it is
what was read last. -/
structure Plan.SettlesFor (plan : Plan) (h : History) (status : Status)
    (organization : Organization) (policy : Policy) : Prop where
  covered : plan.configuration.covers plan.resource = true
  shown : h.calls.head? = some ⟨.organization plan.organizationId, .ok organization⟩
  complies : policy.Complies (plan.allowance organization)
  updated : status = .updated → h.commits = [(plan.resource, policy)]
  unchanged : status = .unchanged →
    ∃ version, h.calls.getLast? = some ⟨.policy plan.resource, .ok ⟨policy, version⟩⟩

/-- An outcome that is not skipped has settled for a policy. -/
def Plan.Settles (plan : Plan) (h : History) (result : Except Failure Outcome) : Prop :=
  ∀ outcome, result = .ok outcome → outcome.status ≠ .skipped →
    ∃ organization policy, plan.SettlesFor h outcome.status organization policy

/-- What holds between the rounds: the organization was shown, and nothing was committed. -/
structure Plan.Unsettled (plan : Plan) (organization : Organization) (h : History) : Prop where
  covered : plan.configuration.covers plan.resource = true
  shown : h.calls.head? = some ⟨.organization plan.organizationId, .ok organization⟩
  none : h.commits = []

namespace Remediation

variable {plan : Plan} {organization : Organization} {n : Nat} {h : History}
  {read : VersionedPolicy}

/-- A remediation that has failed has settled for nothing. -/
lemma settles_of_failure (failure : Failure) : plan.Settles h (.error failure) := by
  intro outcome eq
  cases eq

/-- A policy that complies is settled for as it was read. -/
lemma settles_compliant (unsettled : plan.Unsettled organization h)
    (complies : read.policy.Complies (plan.allowance organization)) (entry : Entry) :
    plan.Settles (h.hasRead plan.resource read ++ [⟨.record entry, ()⟩])
      (.ok ⟨.unchanged, plan.resource, [], n⟩) := by
  intro outcome eq _
  obtain rfl := Except.ok.inj eq
  refine ⟨organization, read.policy, unsettled.covered,
    History.head?_calls_append (History.head?_calls_append unsettled.shown), complies,
    fun other => (by cases other), fun _ => ⟨read.version, ?_⟩⟩
  have idle : History.calls [⟨.record entry, ()⟩] = [] := rfl
  rw [History.calls_append, idle, List.append_nil, History.hasRead, History.calls_operated rfl,
    List.getLast?_concat]

/-- A purge that was written is what is settled for. -/
lemma settles_written (unsettled : plan.Unsettled organization h) (left : Option Nat) :
    let purge := Round.purge ⟨plan, organization, n⟩ read
    plan.Settles
      (((h.hasRead plan.resource read).cleared left).operated
          (Round.writing ⟨plan, organization, n⟩ read) (.ok ()) ++
        History.recorded plan.resource purge.removals)
      (.ok ⟨.updated, plan.resource, purge.removals, n⟩) := by
  intro purge outcome eq _
  obtain rfl := Except.ok.inj eq
  refine ⟨organization, purge.policy, unsettled.covered, ?_, Policy.complies_purge, fun _ => ?_,
    fun other => (by cases other)⟩
  · exact History.head?_calls_append <| History.head?_calls_append <|
      History.head?_calls_cleared_hasRead unsettled.shown _ _ _
  · rw [History.commits_append, History.commits_operated, History.commits_cleared,
      History.commits_hasRead, unsettled.none, History.commits_recorded]
    rfl

/-- Nothing is settled between the rounds, and an outcome is one that a policy was settled for. -/
lemma roundsKeep_unsettled (plan : Plan) (organization : Organization) :
    RoundsKeep plan organization (fun _ _ => True) plan.Settles
      (fun _ => plan.Unsettled organization) where
  pause _ := trivial
  reading _ := trivial
  unread _ _ := settles_of_failure _
  compliant unsettled complies := ⟨trivial, fun _ => settles_compliant unsettled complies _⟩
  standing _ _ := trivial
  expired _ _ _ := settles_of_failure _
  writing _ _ _ := trivial
  written left unsettled _ :=
    ensures_recordRemovals (fun _ _ _ _ => trivial) (settles_written unsettled left)
  lost _ _ _ _ _ := settles_of_failure _
  conflict left failure unsettled _ _ _ := by
    refine ⟨trivial, unsettled.covered, ?_, ?_⟩
    · exact History.head?_calls_append <| History.head?_calls_append <|
        History.head?_calls_cleared_hasRead unsettled.shown _ _ _
    · rw [History.commits_append, History.commits_operated, History.commits_cleared,
        History.commits_hasRead, unsettled.none]
      rfl

/-- A remediation that comes to an outcome has settled for a policy, unless it was skipped. -/
lemma ensures_settles (plan : Plan) :
    (execute .direct plan).Ensures (fun _ _ => True) plan.Settles [] := by
  refine ensures_execute (fun _ => ⟨trivial, fun _ outcome eq ran => ?_⟩) (fun _ => trivial)
    (fun _ _ => settles_of_failure _) (fun covers _ => ⟨covers, rfl, rfl⟩)
    (roundsKeep_unsettled plan)
  obtain rfl := Except.ok.inj eq
  exact absurd rfl ran

end Remediation

namespace Rehearsal

/-! ### The turn on which something was heard -/

namespace Scene

variable {s : Scene} {w : World} {index : Nat} {p : Participant}

/-- What a participant has heard after a move: nothing if it has just set out, what it had heard
before, or the reply to its next query in addition, on a turn of its own. -/
lemma heard_of_move {m : Move} (present : (s.move m).participants[index]? = some p) :
    p.heard = [] ∨
      (∃ q, s.participants[index]? = some q ∧ q.heard = p.heard) ∨
      m = .turn index ∧ ∃ q query next reply, s.participants[index]? = some q ∧
        q.rest = .ask query next ∧ (s.world.answer q.run query).progress.reply? = some reply ∧
        p.heard = q.heard ++ [⟨query, reply⟩] := by
  cases m with
  | setOut plan run =>
    have joined : (s.participants ++ [Participant.fresh plan run])[index]? = some p := present
    rcases Nat.lt_or_ge index s.participants.length with before | beyond
    · rw [List.getElem?_append_left before] at joined
      exact .inr (.inl ⟨p, joined, rfl⟩)
    · rw [List.getElem?_append_right beyond] at joined
      have fresh : p = Participant.fresh plan run :=
        List.mem_singleton.mp (List.mem_of_getElem? joined)
      rw [fresh]
      exact .inl rfl
  | act action => exact .inr (.inl ⟨p, present, rfl⟩)
  | turn other =>
    cases found : s.participants[other]? with
    | none =>
      rw [Scene.move, found] at present
      exact .inr (.inl ⟨p, present, rfl⟩)
    | some q =>
      rw [Scene.move, found] at present
      cases rest : q.rest with
      | done result =>
        simp only [proceed, rest] at present
        exact .inr (.inl ⟨p, present, rfl⟩)
      | ask query next =>
        simp only [proceed, rest] at present
        by_cases same : other = index
        · subst same
          have inside : other < s.participants.length := (List.getElem?_eq_some_iff.mp found).1
          rw [List.getElem?_set_self inside] at present
          obtain rfl := Option.some.inj present
          cases replied : (s.world.answer q.run query).progress.reply? with
          | none =>
            rw [Participant.hear, replied]
            exact .inr (.inl ⟨q, found, rfl⟩)
          | some reply =>
            rw [Participant.hear, replied]
            exact .inr (.inr ⟨rfl, q, query, next, reply, found, rest, replied, rfl⟩)
        · rw [List.getElem?_set_ne same] at present
          exact .inr (.inl ⟨p, present, rfl⟩)

/-- A participant gets the reply of an exchange on a turn of its own, when it has heard what came
before. -/
def HearsOn (w : World) (moves : List Move) (index : Nat) (past : History) (exchange : Exchange) :
    Prop :=
  ∃ earlier later q next,
    moves = earlier ++ .turn index :: later ∧
      ((opening w).play earlier).participants[index]? = some q ∧ q.heard = past ∧
      q.rest = .ask exchange.query next ∧
      (((opening w).play earlier).world.answer q.run exchange.query).progress.reply? =
        some exchange.reply

/-- What was heard was heard whatever moves are made afterwards. -/
lemma HearsOn.append {moves : List Move} {past : History} {exchange : Exchange}
    (hears : HearsOn w moves index past exchange) (more : List Move) :
    HearsOn w (moves ++ more) index past exchange := by
  obtain ⟨earlier, later, q, next, rfl, present, heard, rest, replied⟩ := hears
  refine ⟨earlier, later ++ more, q, next, ?_, present, heard, rest, replied⟩
  rw [List.append_assoc, List.cons_append]

/-- Whatever a participant has heard it has heard on a turn of its own. -/
lemma exists_turn_of_heard {moves : List Move} {past rest : History} {exchange : Exchange}
    (present : ((opening w).play moves).participants[index]? = some p)
    (heard : p.heard = past ++ exchange :: rest) : HearsOn w moves index past exchange := by
  induction moves using List.reverseRecOn generalizing p rest with
  | nil =>
    have nobody : ([] : List Participant)[index]? = some p := present
    cases nobody
  | append_singleton moves m ih =>
    rw [play_append] at present
    rcases heard_of_move (s := (opening w).play moves) present with
      fresh | ⟨q, before, same⟩ | ⟨rfl, q, query, next, reply, before, asks, replied, more⟩
    · rw [fresh] at heard
      exact absurd heard (by simp)
    · exact (ih before (same.trans heard)).append [m]
    · rw [more] at heard
      rcases List.eq_nil_or_concat rest with rfl | ⟨rest, last, rfl⟩
      · obtain ⟨known, new⟩ := List.append_inj' heard rfl
        obtain rfl := List.singleton_inj.mp new
        exact ⟨moves, [], q, next, rfl, before, known, asks, replied⟩
      · rw [List.concat_eq_append, ← List.cons_append, ← List.append_assoc] at heard
        obtain ⟨known, -⟩ := List.append_inj' heard rfl
        exact (ih before known).append [.turn index]

/-- A commit that a participant has heard of took place on a turn of its own, and then the store had
the policy that was committed. -/
lemma exists_commit_of_heard {moves : List Move} {past rest : History} {resource version : Text}
    {policy : Policy} (present : ((opening w).play moves).participants[index]? = some p)
    (heard : p.heard = past ++ ⟨.write resource policy version, .ok ()⟩ :: rest) :
    ∃ earlier later q,
      moves = earlier ++ .turn index :: later ∧
        ((opening w).play earlier).participants[index]? = some q ∧
        ((opening w).play earlier).Commits q ⟨resource, policy, version⟩ ∧
        (((opening w).play (earlier ++ [.turn index])).store.stored resource).policy = policy := by
  obtain ⟨earlier, later, q, next, split, there, -, asks, replied⟩ :=
    exists_turn_of_heard present heard
  have commits : ((opening w).play earlier).Commits q ⟨resource, policy, version⟩ := by
    refine ⟨?_, Option.some.inj replied⟩
    rw [asks]
    rfl
  refine ⟨earlier, later, q, split, there, commits, ?_⟩
  rw [play_append]
  have stored : (((opening w).play earlier).play [.turn index]).store = _ :=
    commits.store_turn there
  rw [stored, Store.stored_put]

end Scene

end Rehearsal

namespace Remediation

open Rehearsal Rehearsal.World

/-! ### Once more -/

section Active

variable {w : World} {run : Run} {left : Option Nat} {plan : Plan} {organization : Organization}

/-- While nothing else happens, a policy that complies is read once and left alone. -/
lemma alone_rounds_of_complies (quiet : w.IsQuiet) (active : w.standing run = .active left)
    (complies : (w.desk.store.stored plan.resource).policy.Complies (plan.allowance organization))
    (further number : Nat) :
    let account := alone (rounds .direct plan organization further number) run w
    account.value? = some (.ok ⟨.unchanged, plan.resource, [], number⟩) ∧
      account.world.desk = (w.counted .policy).desk := by
  obtain ⟨again, first⟩ := exists_rounds_eq_round .direct plan organization further number
  have answered : w.deskPolicy run plan.resource =
      (w.counted .policy, .ok (w.desk.store.fetch plan.resource)) :=
    quiet.deskPolicy_eq active
  have replied : (w.answer run (.policy plan.resource)).progress.reply? =
      some (.ok (w.desk.store.fetch plan.resource)) := by
    show some (w.deskPolicy run plan.resource).2 = _
    rw [answered]
  have world : (w.answer run (.policy plan.resource)).world = w.counted .policy :=
    congrArg Prod.fst answered
  have left_alone : revise .direct ⟨plan, organization, number⟩ again
      (w.desk.store.fetch plan.resource) = unchanged ⟨plan, organization, number⟩ :=
    if_pos (Policy.sameAccessAll_purge_iff.mpr complies)
  have goes_on : alone (rounds .direct plan organization further number) run w =
      (alone (unchanged ⟨plan, organization, number⟩) run (w.counted .policy)).after
        (History.operated [] (.policy plan.resource) (.ok (w.desk.store.fetch plan.resource)))
        (w.deeds run (.policy plan.resource)) := by
    rw [first, ← left_alone, ← world]
    exact alone_attributed id replied
  intro account
  show Account.value? (alone _ run w) = _ ∧ (Account.world (alone _ run w)).desk = _
  rw [goes_on, unchanged, Dialogue.andThen, alone_ask rfl]
  exact ⟨rfl, rfl⟩

/-- While nothing else happens, a remediation of a policy that complies asks for the organization,
reads the policy once and finds nothing to do. -/
lemma alone_execute_of_complies (quiet : w.IsQuiet) (active : w.standing run = .active left)
    (covers : plan.configuration.covers plan.resource = true)
    (known : w.desk.store.organization? plan.organizationId = some organization)
    (complies : (w.desk.store.stored plan.resource).policy.Complies (plan.allowance organization)) :
    let account := alone (execute .direct plan) run w
    account.value? = some (.ok ⟨.unchanged, plan.resource, [], 1⟩) ∧
      account.world.desk = { w.desk with calls := w.desk.calls ++ [.organization, .policy] } := by
  have answered : w.deskOrganization run plan.organizationId =
      (w.counted .organization, .ok organization) := quiet.deskOrganization_eq active known
  have replied : (w.answer run (.organization plan.organizationId)).progress.reply? =
      some (.ok organization) := by
    show some (w.deskOrganization run plan.organizationId).2 = _
    rw [answered]
  have world : (w.answer run (.organization plan.organizationId)).world =
      w.counted .organization := congrArg Prod.fst answered
  have still : (w.counted .organization).standing run = .active left := active
  obtain ⟨value, desk⟩ := alone_rounds_of_complies (quiet.counted .organization) still complies
    plan.furtherRounds 1
  have goes_on : alone (execute .direct plan) run w =
      (alone (rounds .direct plan organization plan.furtherRounds 1) run
        (w.counted .organization)).after
        (History.operated [] (.organization plan.organizationId) (.ok organization))
        (w.deeds run (.organization plan.organizationId)) := by
    rw [execute, if_pos covers, ← world]
    exact alone_attributed id replied
  intro account
  show Account.value? (alone _ run w) = _ ∧ (Account.world (alone _ run w)).desk = _
  rw [goes_on]
  refine ⟨value, desk.trans ?_⟩
  simp [counted]

/-- In a quiet world the step in which a policy that complies is remediated reports that there was
nothing to do, and nothing was written in it. -/
lemma step_execute_of_complies (quiet : w.IsQuiet) (active : w.standing w.newRun = .active left)
    (covers : plan.configuration.covers plan.resource = true)
    (known : w.desk.store.organization? plan.organizationId = some organization)
    (complies : (w.desk.store.stored plan.resource).policy.Complies (plan.allowance organization)) :
    let again := w.step (.execute plan)
    again.2 = .reported (.ok (.outcome ⟨.unchanged, plan.resource, [], 1⟩)) ∧
      again.1.desk = { w.desk with calls := w.desk.calls ++ [.organization, .policy] } := by
  let started : World := { w with runs := w.runs + 1 }
  let own : Run := { w.newRun with number := w.runs }
  have calm : started.IsQuiet := quiet.congr rfl rfl rfl rfl rfl rfl
  have standing : started.standing own = .active left := active
  obtain ⟨value, desk⟩ := alone_execute_of_complies calm standing covers known complies
  intro again
  have step : again = ((w.solo (execute .direct plan)).world,
      .reported (.ok (.outcome ⟨.unchanged, plan.resource, [], 1⟩))) := by
    show w.attempt (execute w.gateway plan) .outcome = _
    rw [quiet.direct]
    exact World.attempt_eq_solo quiet.calm value .outcome
  rw [step]
  exact ⟨rfl, desk⟩

end Active

/-- **Success means compliance.**  Any number of remediations take turns in any order, and in between
anything may happen to the world.  One of them that has come to an outcome and was not skipped has
settled for a policy in which no member has to leave.  An update was committed on a turn of its own,
and then the store had that policy; if there was nothing to do, the policy is what was read last.
Wherever that policy is still the one of the store, the organization has the same domain, the
invocation may go on and nothing happens by itself, the same remediation, with whatever limit on its
rounds, finds nothing to do in its first round and writes nothing. -/
theorem success_means_compliance (w : World) (moves : List Move) (index : Nat) (p : Participant)
    (outcome : Outcome) (present : ((Scene.opening w).play moves).participants[index]? = some p)
    (done : p.rest = .done (.ok outcome)) (ran : outcome.status ≠ .skipped) :
    ∃ organization policy,
      p.plan.SettlesFor p.heard outcome.status organization policy ∧
      (outcome.status = .updated → ∃ earlier later q version,
        moves = earlier ++ .turn index :: later ∧
          ((Scene.opening w).play earlier).participants[index]? = some q ∧
          ((Scene.opening w).play earlier).Commits q ⟨p.plan.resource, policy, version⟩ ∧
          (((Scene.opening w).play (earlier ++ [.turn index])).store.stored
            p.plan.resource).policy = policy) ∧
      ∀ (v : World) (limit : Option Number) (left : Option Nat) (known : Organization),
        v.IsQuiet → v.standing v.newRun = .active left →
        v.desk.store.organization? p.plan.organizationId = some known →
        known.domain = organization.domain →
        (v.desk.store.stored p.plan.resource).policy = policy →
        let again := v.step (.execute { p.plan with writeAttempts := limit })
        again.2 = .reported (.ok (.outcome ⟨.unchanged, p.plan.resource, [], 1⟩)) ∧
          again.1.desk = { v.desk with calls := v.desk.calls ++ [.organization, .policy] } := by
  have sound : p.IsSound _ :=
    ((Scene.isSound_opening w).play moves).2 p (List.mem_of_getElem? present)
  have ends : (execute .direct p.plan).Ends p.heard (.ok outcome) := by
    rw [Dialogue.Ends, ← done]
    exact sound.reaches
  obtain ⟨organization, policy, settles⟩ :=
    ends.ends_of_ensures (ensures_settles p.plan) outcome rfl ran
  refine ⟨organization, policy, settles, fun updated => ?_,
    fun v limit left known quiet active found domain current => ?_⟩
  · obtain ⟨past, version, rest, heard⟩ :=
      History.exists_write_of_commits (settles.updated updated)
    obtain ⟨earlier, later, q, split, there, commits, stored⟩ :=
      Scene.exists_commit_of_heard present heard
    exact ⟨earlier, later, q, version, split, there, commits, stored⟩
  · intro again
    let plan : Plan := { p.plan with writeAttempts := limit }
    -- The allowance depends on the domain alone, so the policy complies here, too.
    have allowance : plan.allowance known = p.plan.allowance organization := by
      rw [Plan.allowance, domain]
      rfl
    have complies : (v.desk.store.stored plan.resource).policy.Complies (plan.allowance known) := by
      rw [allowance]
      exact current ▸ settles.complies
    exact step_execute_of_complies quiet active settles.covered found complies

/-- The first of two remediations to commit after a conflict has nothing left to do. -/
theorem success_means_compliance_contested :
    let moves := Scene.contestedMoves ++ List.replicate 4 (.turn 0)
    let scene := (Scene.opening Scene.contestedWorld).play moves
    let again := scene.world.step (.execute { plainPlan with writeAttempts := none })
    ∃ p outcome, scene.participants[0]? = some p ∧ p.rest = .done (.ok outcome) ∧
      outcome.status = .updated ∧ outcome.attempts = 2 ∧
      again.2 = .reported (.ok (.outcome ⟨.unchanged, plainPlan.resource, [], 1⟩)) ∧
      again.1.desk = { scene.world.desk with
        calls := scene.world.desk.calls ++ [.organization, .policy] } := by
  intro moves scene again
  let purge := Scene.foreignPolicy.purge (plainPlan.allowance plainOrganization)
  let outcome : Outcome := ⟨.updated, plainPlan.resource, purge.removals, 2⟩
  obtain ⟨p, present, same, done, shown, commits⟩ : ∃ p, scene.participants[0]? = some p ∧
      p.plan = plainPlan ∧ p.rest = .done (.ok outcome) ∧
      p.heard.calls.head? =
        some ⟨.organization plainPlan.organizationId, .ok plainOrganization⟩ ∧
      p.heard.commits = [(plainPlan.resource, purge.policy)] :=
    ⟨_, rfl, rfl, rfl, rfl, rfl⟩
  obtain ⟨organization, policy, settles, -, onward⟩ :=
    success_means_compliance Scene.contestedWorld moves 0 p outcome present done (by decide)
  rw [same] at settles onward
  have eq : organization = plainOrganization := by
    simpa using settles.shown.symm.trans shown
  have written : policy = purge.policy := by
    simpa using (settles.updated rfl).symm.trans commits
  have quiet : scene.world.IsQuiet := ⟨rfl, ⟨rfl, rfl⟩, rfl, rfl, rfl⟩
  have active : scene.world.standing scene.world.newRun = .active (some 60000) := by
    decide +kernel
  have known : scene.world.desk.store.organization? plainPlan.organizationId =
      some plainOrganization := by
    decide +kernel
  have current : (scene.world.desk.store.stored plainPlan.resource).policy = policy := by
    rw [written]
    decide +kernel
  have repeated := onward scene.world none (some 60000) plainOrganization quiet active known
    (congrArg Organization.domain eq.symm) current
  exact ⟨p, outcome, present, done, rfl, rfl, repeated⟩

end Remediation

end PolicyWarden
