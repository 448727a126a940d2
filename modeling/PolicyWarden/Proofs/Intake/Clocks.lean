import Mathlib.Tactic.Common
import PolicyWarden.Proofs.Intake.Redelivery
import PolicyWarden.Proofs.Remediation.Budget

/-!
# The clocks of a handled event

The clock that sets the deadline of an invocation may be ahead of the clock that checks it.  An
event is handled under one invocation, which is opened once and before anything is checked
(`ensures_opensOnce_handle`); its deadline is told by the one clock, and everything that is checked
afterwards is checked on the other.  So an invocation has as much more time than its limit as the
first clock is ahead (`standing_follows_two_clocks`): with a clock that is behind by the whole limit
no call is made at all, and what comes of an event is not the same (`calls_change_with_offset`).
-/

namespace PolicyWarden

/-! ### One invocation for each event -/

/-- The query asks for an invocation. -/
def Query.isInvoke : Query → Bool
  | .invoke _ => true
  | _ => false

/-- No invocation was asked for. -/
def History.OpensNothing (h : History) : Prop :=
  ∀ exchange ∈ h, exchange.query.isInvoke = false

/-- A query of another kind does not ask for an invocation. -/
lemma History.OpensNothing.concat {h : History} (fresh : h.OpensNothing) {query : Query}
    (reply : query.Reply) (other : query.isInvoke = false) :
    History.OpensNothing (h ++ [⟨query, reply⟩]) := by
  intro exchange mem
  rcases List.mem_append.mp mem with earlier | last
  · exact fresh exchange earlier
  · rw [List.mem_singleton.mp last]
    exact other

/-- The query is about the time that an invocation has left. -/
def Query.isTimed : Query → Bool
  | .standing | .call _ _ => true
  | _ => false

/-- An invocation is opened at most once, and before anything is asked about it; a call is made
right after the invocation was found to be active, with the time that was left then. -/
def Rule.opensOnce : Rule := fun h query =>
  match query with
  | .invoke _ => h.OpensNothing
  | .standing => ∃ limit, ⟨.invoke limit, .ok ()⟩ ∈ h
  | .call _ timeout =>
      (∃ limit, ⟨.invoke limit, .ok ()⟩ ∈ h) ∧ h.getLast? = some ⟨.standing, .active timeout⟩
  | _ => True

namespace Intake

variable {h : History}

/-- Under an invocation that was opened a remediation is carried out and concluded. -/
lemma ensures_opensOnce_opened {plan : Plan} {limit : Number}
    (opened : ⟨.invoke limit, .ok ()⟩ ∈ h) :
    (Attempt.next (Remediation.execute .service plan).awaited conclude).Ensures Rule.opensOnce
      (fun _ _ => True) h := by
  have lenient := Rule.isLenient_onBudget
  have obeys : (Attempt.next (Remediation.execute .service plan).awaited conclude).Obeys
      Rule.onBudget := by
    refine Dialogue.Obeys.next ((Remediation.obeys_onBudget plan).awaited lenient) ?_
    intro outcome
    exact Dialogue.obeys_ask (fun h => lenient.record h _ nofun) fun _ => Dialogue.obeys_done _
  -- That an invocation was opened is never forgotten, and nothing here opens another one.
  let inv : History → Prop := fun h => ∃ limit, ⟨.invoke limit, .ok ()⟩ ∈ h
  have kept : ∀ h query (reply : query.Reply), inv h → Rule.onBudget h query →
      inv (h ++ [⟨query, reply⟩]) := by
    rintro h query reply ⟨limit, mem⟩ -
    exact ⟨limit, List.mem_append_left _ mem⟩
  have asked : ∀ h query, inv h → Rule.onBudget h query → Rule.opensOnce h query := by
    intro h query holds budget
    cases query with
    | invoke limit => exact budget.elim
    | standing => exact holds
    | call call timeout => exact ⟨holds, budget⟩
    | _ => trivial
  exact (obeys.ensures kept asked ⟨limit, opened⟩).imp (fun _ _ asked => asked)
    fun _ _ _ => trivial

/-- A finding is remediated under one invocation. -/
lemma ensures_opensOnce_remediate {finding : Finding} (fresh : h.OpensNothing) :
    (remediate .service finding).Ensures Rule.opensOnce (fun _ _ => True) h := by
  refine ensures_remediate trivial (fun _ => trivial) (fun _ _ => ?_) fun _ _ => ?_
  · exact (fresh.concat _ (by rfl)).concat _ (by rfl)
  · exact ensures_opensOnce_opened (List.mem_append_right _ (List.mem_singleton_self _))

/-- An event is processed under one invocation. -/
lemma ensures_opensOnce_process (event : Event) (fresh : h.OpensNothing) :
    (process .service event).Ensures Rule.opensOnce (fun _ _ => True) h := by
  unfold process
  split
  · rename_i finding _
    refine ⟨trivial, fun _ => ⟨trivial, fun _ => ?_⟩⟩
    cases finding.state with
    | active => exact ensures_opensOnce_remediate ((fresh.concat _ (by rfl)).concat _ (by rfl))
    | inactive => exact ⟨trivial, fun _ => trivial⟩
  · trivial

/-- An event is handled under one invocation. -/
lemma ensures_opensOnce_handle (event : Event) :
    (handle .service event).Ensures Rule.opensOnce (fun _ _ => True) [] := by
  have fresh : History.OpensNothing [⟨.retain .eventId event.recordedId, ()⟩] := by
    intro exchange mem
    rw [List.mem_singleton.mp mem]
    rfl
  exact ensures_handle trivial (ensures_opensOnce_process event fresh) (fun _ => trivial)
    (fun _ _ _ => trivial) fun _ => trivial

end Intake

namespace Rehearsal

open Remediation

namespace Walk

variable {w : World} {run : Run} {event : Event} {c : Walk (Except Failure Unit)} {query : Query}

/-! ### The deadline and the clock that checks it -/

/-- A walk that has opened an invocation while it handles an event still has it, with the deadline
that was set for it. -/
lemma exists_opening (reach : (setOut w run (Intake.handle .service event)).Reaches c)
    {limit : Number} (opened : ⟨.invoke limit, .ok ()⟩ ∈ c.heard) :
    ∃ o millis i, (setOut w run (Intake.handle .service event)).Reaches o ∧ o.Reaches c ∧
      o.asks? = some (.invoke limit) ∧ readTimeout limit = .ok millis ∧
      c.world.invocation? c.run = some i ∧
      i.deadline = o.world.timeline.deadline? millis o.world.deadlineOffset := by
  obtain ⟨o, d, first, step, later, heard, asked⟩ := exists_step_of_mem_heard reach opened
  obtain ⟨millis, accepted, found⟩ := step.exists_opened heard
  -- Another invocation could only be opened before any was, and this one has been opened already.
  have keeps : ∀ b, d.Reaches b → b.Reaches c → ∀ other, b.asks? ≠ some (.invoke other) := by
    intro b before _ other asks
    have fresh : b.heard.OpensNothing :=
      ensured_of_asks (Intake.ensures_opensOnce_handle event)
        ((first.tail step).trans before) asks
    obtain ⟨h, since, -⟩ := before.exists_heard
    have mem : (⟨.invoke limit, .ok ()⟩ : Exchange) ∈ b.heard := by
      rw [since, heard]
      exact List.mem_append_left _ (List.mem_append_right _ (List.mem_singleton_self _))
    cases fresh _ mem
  obtain ⟨i, there, older⟩ := later.exists_invocation keeps found
  exact ⟨o, millis, i, first, .head step later, asked, accepted, there, older.deadline⟩

/-- A walk that asks about time while it handles an event has opened an invocation, and a walk that
makes a call has just found it to be active. -/
lemma opened_of_isTimed (reach : (setOut w run (Intake.handle .service event)).Reaches c)
    (asked : c.asks? = some query) (timed : query.isTimed = true) :
    (∃ limit, ⟨.invoke limit, .ok ()⟩ ∈ c.heard) ∧
      ∀ call timeout, query = .call call timeout →
        c.world.standing c.run = .active timeout := by
  have ensured := ensured_of_asks (Intake.ensures_opensOnce_handle event) reach asked
  cases query with
  | standing => exact ⟨ensured, nofun⟩
  | call call timeout =>
    refine ⟨ensured.1, fun other left same => ?_⟩
    cases same
    exact standing_of_last reach ensured.2
  | _ => cases timed

/-- **Two clocks.**  While an event is handled over the service, the deadline of its one invocation
is told by the clock that sets deadlines when the invocation is opened, and the present by the other
clock, which is exact here.  So whenever the invocation is looked at or a call is made, the time
that is left is the limit and the lead of the first clock, less what has passed: the run may go on
while that is positive and the signal is down, and a call is told just that. -/
theorem standing_follows_two_clocks (exact : w.standingOffset = 0) (here : c.world.IsOnCalendar)
    (reach : (setOut w run (Intake.handle .service event)).Reaches c)
    (asked : c.asks? = some query) (timed : query.isTimed = true) :
    ∃ o limit millis, (setOut w run (Intake.handle .service event)).Reaches o ∧ o.Reaches c ∧
      o.asks? = some (.invoke limit) ∧ readTimeout limit = .ok millis ∧
      let clock : Int := o.world.timeline.now + w.deadlineOffset
      clock.natAbs ≤ Instant.calendarReach → (clock + millis).natAbs ≤ Instant.calendarReach →
        let left : Int := millis + w.deadlineOffset -
          (c.world.timeline.now - o.world.timeline.now)
        c.world.standing c.run =
            (match c.world.raised? c.run with
            | some reason => .expired reason
            | none => if 0 < left then .active (some left.toNat) else .expired .absent) ∧
          ∀ call timeout, query = .call call timeout →
            c.world.raised? c.run = none ∧ 0 < left ∧ timeout = some left.toNat := by
  obtain ⟨⟨limit, opened⟩, active⟩ := opened_of_isTimed reach asked timed
  obtain ⟨o, millis, i, first, later, asks, accepted, found, deadline⟩ :=
    exists_opening reach opened
  refine ⟨o, limit, millis, first, later, asks, accepted, ?_⟩
  intro clock onTime limited left
  have limit : i.deadline = some (clock + millis) := by
    rw [deadline, first.ages.deadlineOffset]
    refine (Timeline.deadline?_eq onTime).trans ?_
    exact Instant.onCalendar?_eq_some_iff.mpr ⟨rfl, limited⟩
  have present : c.world.standingOffset = 0 := reach.ages.standingOffset.trans exact
  have rest : (clock + millis - c.world.timeline.now : Int) = left := by omega
  have standing : c.world.standing c.run =
      match c.world.raised? c.run with
      | some reason => .expired reason
      | none => if 0 < left then .active (some left.toNat) else .expired .absent := by
    have before : @LT.lt Int _ c.world.timeline.now (clock + millis) ↔ 0 < left := by omega
    rw [World.standing_of_invocation found, present, Int.add_zero,
      Invocation.standing_of_deadline limit here, World.raised?, found, rest]
    simp only [before]
    rfl
  refine ⟨standing, ?_⟩
  intro call timeout same
  have going := active call timeout same
  rw [standing] at going
  cases raised : c.world.raised? c.run with
  | some reason =>
    rw [raised] at going
    cases going
  | none =>
    rw [raised] at going
    by_cases positive : 0 < left
    · rw [if_pos positive] at going
      cases going
      exact ⟨rfl, positive, rfl⟩
    · rw [if_neg positive] at going
      cases going

/-! ### A clock that is ahead, and one that is behind -/

/-- A world with a limit of ten seconds, in which the clock that sets deadlines is ahead. -/
def clockedWorld (ahead : Int) : World :=
  { slowWorld with
    deadlineOffset := ahead
    environment := [(Settings.timeoutVariable, "10000")]
    library := World.plainWorld.library
    gateway := .service }

/-- With a clock that is five seconds ahead the policy is asked for with fifteen seconds left, less
the twenty milliseconds that have passed. -/
theorem standing_follows_two_clocks_ahead :
    let w := clockedWorld 5000
    let start := setOut w w.newRun (Intake.handle .service World.activeEvent)
    let query : Query :=
      .call (.policy plainPlan.resource Service.policyFormat) (some 14980)
    w.standingOffset = 0 ∧ query.isTimed = true ∧
      ∃ c, start.Reaches c ∧ c.world.IsOnCalendar ∧ c.asks? = some query ∧
        ∃ o limit millis, start.Reaches o ∧ o.Reaches c ∧ o.asks? = some (.invoke limit) ∧
          readTimeout limit = .ok millis ∧
          let clock : Int := o.world.timeline.now + w.deadlineOffset
          clock.natAbs ≤ Instant.calendarReach →
            (clock + millis).natAbs ≤ Instant.calendarReach →
            let left : Int := millis + w.deadlineOffset -
              (c.world.timeline.now - o.world.timeline.now)
            0 < left ∧ 14980 = left.toNat := by
  intro w start query
  let account := World.alone (Intake.handle .service World.activeEvent) w.newRun w
  obtain ⟨ends, deeds, made, late⟩ : account.value?.isSome = true ∧
      account.deeds = [.others (.advance 20), .others (.stall 30)] ∧
      query ∈ account.history.map Exchange.query ∧ account.world.IsOnCalendar := by
    decide +kernel
  have forward : Deed.AreForward account.deeds := by
    rw [deeds]
    simp [Deed.AreForward, Action.IsForward]
  obtain ⟨c, reach, here, asked⟩ := exists_asks_of_alone ends forward made (by decide) late
  obtain ⟨o, limit, millis, first, later, asks, accepted, law⟩ :=
    standing_follows_two_clocks rfl here reach asked rfl
  refine ⟨rfl, rfl, c, reach, here, asked, o, limit, millis, first, later, asks, accepted, ?_⟩
  intro clock onTime limited left
  obtain ⟨-, told⟩ := law onTime limited
  obtain ⟨-, positive, exact⟩ := told _ _ rfl
  exact ⟨positive, Option.some.inj exact⟩

/-- An event is not handled in the same way under a clock that is behind by the whole limit: without
a lead three calls are made and the remediation finishes, and under that clock none is made and it
fails for lack of time. -/
theorem calls_change_with_offset :
    let exact := ((clockedWorld 0).step (.event (.ok World.activeEvent))).1
    let behind := ((clockedWorld (-10000)).step (.event (.ok World.activeEvent))).1
    exact.requests.map RecordedCall.timeout = [some 10000, some 9980, some 9950] ∧
      behind.requests = [] ∧
      exact.journal.getLast?.map Record.entry =
        some (.finished ⟨.updated, plainPlan.resource, [⟨[], "user:a@b"⟩], 1⟩) ∧
      behind.journal.getLast?.map Record.entry ≠ exact.journal.getLast?.map Record.entry := by
  decide +kernel

end Walk

end Rehearsal

end PolicyWarden
