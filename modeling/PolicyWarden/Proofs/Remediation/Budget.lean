import Mathlib.Tactic.Common
import PolicyWarden.Proofs.Rehearsal.Forward
import PolicyWarden.Proofs.Remediation.Requests

/-!
# The time budget of a remediation

A remediation over the service looks at its invocation before each call, and nothing can happen
between the look and the call.  So every call is made while the signal is down and the deadline is
ahead, and is told exactly the time that is left until then; since the clock does not go back, no
call is told more than an earlier one (`calls_within_budget`).

All this needs a deadline on the calendar.  A time limit may reach beyond the last instant of the
calendar although it is set before it, and then there is no deadline to be told: the calls go on,
with an unknown budget, until the signal is raised (`budget_unknown_beyond_calendar`).
-/

namespace PolicyWarden

/-! ### Calls on budget -/

/-- No invocation is opened, and a call is made right after the invocation was found to be active,
with the time that was left then. -/
def Rule.onBudget : Rule := fun h query =>
  match query with
  | .invoke _ => False
  | .call _ timeout => h.getLast? = some ⟨.standing, .active timeout⟩
  | _ => True

/-- A remediation by itself is on budget. -/
lemma Rule.isLenient_onBudget : onBudget.IsLenient :=
  ⟨fun _ _ _ => trivial, fun _ => trivial, fun _ => trivial⟩

/-- A remediation over the service stays under its invocation and makes its calls on budget. -/
lemma Remediation.obeys_onBudget (plan : Plan) :
    (execute .service plan).Obeys Rule.onBudget := by
  have lenient := Rule.isLenient_onBudget
  refine obeys_execute lenient (Gateway.Service.obeys_service lenient ?_) plan
  intro h call left
  exact List.getLast?_concat

namespace Rehearsal

open Remediation

namespace World

variable {w : World} {run : Run} {i : Invocation} {deadline : Int} {left : Option Nat}

/-- A run that was found to be active has an invocation whose signal is down. -/
lemma exists_invocation_of_active (active : w.standing run = .active left) :
    ∃ i, w.invocation? run = some i ∧ i.aborted = false := by
  cases found : w.invocation? run with
  | none =>
    unfold standing at active
    rw [found] at active
    cases active
  | some i =>
    rw [standing_of_invocation found] at active
    exact ⟨i, rfl, (Invocation.standing_eq_active_iff.mp active).1⟩

/-- A run that was found to be active under a deadline has the time that is left until then. -/
lemma budget_of_active (active : w.standing run = .active left)
    (found : w.invocation? run = some i) (limited : i.deadline = some deadline)
    (here : w.IsOnCalendar) (exact : w.standingOffset = 0) :
    @LT.lt Int _ w.timeline.now deadline ∧ left = some (deadline - w.timeline.now).toNat := by
  rw [standing_of_invocation found, exact, Int.add_zero] at active
  exact Invocation.active_of_deadline active limited here

/-- A run that was found to be active without a deadline does not know how much time is left. -/
lemma no_budget_of_active (active : w.standing run = .active left)
    (found : w.invocation? run = some i) (unlimited : i.deadline = none) : left = none := by
  rw [standing_of_invocation found] at active
  exact Invocation.active_of_no_deadline active unlimited

end World

namespace Walk

variable {w v : World} {run : Run} {millis : Nat} {plan : Plan} {call : Service.Call}
  {timeout : Option Nat} {c : Walk (Except Failure Outcome)}

/-! ### Remediations under a time limit -/

/-- A remediation that sets out, in a later world `v`, under the invocation that was opened in `w`
with a time limit. -/
def underLimit (w : World) (millis : Nat) (v : World) (run : Run) (plan : Plan) :
    Walk (Except Failure Outcome) :=
  setOut v ((w.invoke (.whole millis)).1.joinNewest run) (execute .service plan)

section UnderLimit

variable (bounded : millis ≤ longestTimeout) (older : (w.invoke (.whole millis)).1.Ages v)
  (reach : (underLimit w millis v run plan).Reaches c)
include older reach

/-- A remediation under way is in a world that has aged since its invocation was opened. -/
lemma ages_underLimit : w.Ages c.world :=
  ((w.ages_invoke (.whole millis)).1.trans older).trans reach.ages

variable (oneClock : w.deadlineOffset = 0 ∧ w.standingOffset = 0) (start : w.IsOnCalendar)
include bounded oneClock start

/-- The invocation of a remediation under way is the one that was opened for it, and its deadline is
one time limit after that, if the calendar reaches so far. -/
lemma exists_invocation_underLimit :
    ∃ i, c.world.invocation? c.run = some i ∧
      i.deadline = Instant.onCalendar? (w.timeline.now + millis) := by
  obtain ⟨i, found, first⟩ := older.exists_invocation
    (World.invocation?_joinNewest_invoke run (readTimeout_whole bounded))
  -- Its rule keeps the remediation from opening another invocation.
  have keeps : ∀ b, (underLimit w millis v run plan).Reaches b → b.Reaches c →
      ∀ limit, b.asks? ≠ some (.invoke limit) := by
    intro b before _ limit asked
    exact ensured_of_asks (obeys_onBudget plan []) before asked
  obtain ⟨j, there, later⟩ := reach.exists_invocation keeps found
  exact ⟨j, there,
    (later.deadline.trans first.deadline).trans (World.deadline_opened oneClock.1 start millis)⟩

omit bounded older oneClock start in
/-- A remediation that makes a call has just found its invocation to be active. -/
lemma active_of_call (asked : c.asks? = some (.call call timeout)) :
    c.world.standing c.run = .active timeout :=
  standing_of_last reach (ensured_of_asks (obeys_onBudget plan []) reach asked)

variable (asked : c.asks? = some (.call call timeout))
include asked

/-- Under a deadline on the calendar a call is told the time that is left until then. -/
lemma budget_of_call (here : c.world.IsOnCalendar)
    (limited : (w.timeline.now + millis : Int).natAbs ≤ Instant.calendarReach) :
    @LT.lt Int _ c.world.timeline.now (w.timeline.now + millis) ∧
      timeout = some (w.timeline.now + millis - c.world.timeline.now : Int).toNat := by
  have active := active_of_call reach asked
  obtain ⟨i, found, deadline⟩ :=
    exists_invocation_underLimit bounded older reach oneClock start
  have offset : c.world.standingOffset = 0 :=
    (ages_underLimit older reach).standingOffset.trans oneClock.2
  refine World.budget_of_active active found (deadline.trans ?_) here offset
  exact Instant.onCalendar?_eq_some_iff.mpr ⟨rfl, limited⟩

/-- Under a deadline beyond the calendar a call is told nothing. -/
lemma no_budget_of_call
    (beyond : ¬ (w.timeline.now + millis : Int).natAbs ≤ Instant.calendarReach) :
    timeout = none := by
  have active := active_of_call reach asked
  obtain ⟨i, found, deadline⟩ :=
    exists_invocation_underLimit bounded older reach oneClock start
  exact World.no_budget_of_active active found (deadline.trans (if_neg beyond))

end UnderLimit

/-- **No call after expiry, and the true budget for each call.**  An invocation is opened with a
time limit on the system clock, and a remediation over the service sets out under it.  Whatever is
replied, and whatever happens to the clock and to the signal while it waits, it makes a call only
while its signal is down.  If the deadline is on the calendar, it is still ahead then, the call is
told exactly the time that is left, which is at least one millisecond and at most the time limit,
and no earlier call was told less.  If the deadline is beyond the calendar, the call is told that
the time is unknown. -/
theorem calls_within_budget (bounded : millis ≤ longestTimeout)
    (oneClock : w.deadlineOffset = 0 ∧ w.standingOffset = 0) (start : w.IsOnCalendar)
    (older : (w.invoke (.whole millis)).1.Ages v)
    (reach : (underLimit w millis v run plan).Reaches c) (here : c.world.IsOnCalendar)
    (asked : c.asks? = some (.call call timeout)) :
    (∃ i, c.world.invocation? c.run = some i ∧ i.aborted = false) ∧
      let deadline : Int := w.timeline.now + millis
      (deadline.natAbs ≤ Instant.calendarReach →
        c.world.timeline.now < deadline ∧
        ∃ left : Nat, timeout = some left ∧ (left : Int) = deadline - c.world.timeline.now ∧
          1 ≤ left ∧ left ≤ millis ∧
          ∀ b other earlier, (underLimit w millis v run plan).Reaches b → b.Reaches c →
            b.asks? = some (.call other earlier) → ∃ more, earlier = some more ∧ left ≤ more) ∧
      (¬ deadline.natAbs ≤ Instant.calendarReach → timeout = none) := by
  have active := active_of_call reach asked
  refine ⟨World.exists_invocation_of_active active, ?_⟩
  intro deadline
  constructor
  · intro limited
    obtain ⟨ahead, told⟩ := budget_of_call bounded older reach oneClock start asked here limited
    have forward : @LE.le Int _ w.timeline.now c.world.timeline.now :=
      (ages_underLimit older reach).timeline.forward
    refine ⟨ahead, _, told, by omega, by omega, by omega, ?_⟩
    intro b other earlier before after askedBefore
    -- Both calls were told what was left until one deadline, and the clock has not gone back.
    have between : b.world.IsOnCalendar :=
      start.between here (ages_underLimit older before) after.ages
    have passed : @LE.le Int _ b.world.timeline.now c.world.timeline.now :=
      after.ages.timeline.forward
    obtain ⟨-, more⟩ := budget_of_call bounded older before oneClock start askedBefore between
      limited
    exact ⟨_, more, by omega⟩
  · intro beyond
    exact no_budget_of_call bounded older reach oneClock start asked beyond

/-! ### A remediation that takes its time, and one at the end of the calendar -/

/-- A world in which time passes during the first two calls of the service. -/
def slowWorld : World where
  service :=
    { organizations := [⟨[.advance 20], .atOnce (.ok (.ok ⟨some "c"⟩))⟩]
      policies := [⟨[.stall 30], .later (.ok (.ok mixedReply))⟩]
      writes := [⟨[], .atOnce (.ok ())⟩] }

/-- A remediation that sets out ten milliseconds after its invocation was opened, and asks for the
organization during twenty more, has thirty milliseconds less for its second call. -/
theorem calls_within_budget_slow :
    let w := slowWorld
    let later := (w.invoke (.whole 60000)).1.act (.stall 10)
    60000 ≤ longestTimeout ∧ (w.deadlineOffset = 0 ∧ w.standingOffset = 0) ∧ w.IsOnCalendar ∧
      (w.invoke (.whole 60000)).1.Ages later ∧
      ∃ c, (underLimit w 60000 later w.newRun plainPlan).Reaches c ∧ c.world.IsOnCalendar ∧
        c.asks? = some (.call (.policy plainPlan.resource Service.policyFormat) (some 59970)) ∧
        (∃ i, c.world.invocation? c.run = some i ∧ i.aborted = false) ∧
        (59970 : Int) = 1709544660000 - c.world.timeline.now ∧
        ∀ b other earlier, (underLimit w 60000 later w.newRun plainPlan).Reaches b →
          b.Reaches c → b.asks? = some (.call other earlier) →
          ∃ more, earlier = some more ∧ 59970 ≤ more := by
  intro w later
  have bounded : 60000 ≤ longestTimeout := by decide
  have start : w.IsOnCalendar := by decide
  have older : (w.invoke (.whole 60000)).1.Ages later := World.ages_act (Int.natCast_nonneg 10)
  let run := (w.invoke (.whole 60000)).1.joinNewest w.newRun
  let account := World.alone (execute .service plainPlan) run later
  obtain ⟨ends, deeds, made, late⟩ : account.value?.isSome = true ∧
      account.deeds = [.others (.advance 20), .others (.stall 30)] ∧
      .call (.policy plainPlan.resource Service.policyFormat) (some 59970) ∈
        account.history.map Exchange.query ∧
      account.world.IsOnCalendar := by
    decide +kernel
  have forward : Deed.AreForward account.deeds := by
    rw [deeds]
    simp [Deed.AreForward, Action.IsForward]
  obtain ⟨c, reach, here, asked⟩ := exists_asks_of_alone ends forward made (by decide) late
  obtain ⟨down, known, -⟩ :=
    calls_within_budget bounded ⟨rfl, rfl⟩ start older reach here asked
  obtain ⟨-, left, told, exact, -, -, earlier⟩ := known (by decide)
  cases told
  exact ⟨bounded, ⟨rfl, rfl⟩, start, older, c, reach, here, asked, down, exact, earlier⟩

/-- A second before the end of the calendar a time limit of a minute leads beyond it: the call for
the organization is made, and it is not told how much time is left. -/
theorem budget_unknown_beyond_calendar :
    let w : World := { timeline := { now := 8639999999999000, invocations := [] } }
    let opened := (w.invoke (.whole 60000)).1
    60000 ≤ longestTimeout ∧ (w.deadlineOffset = 0 ∧ w.standingOffset = 0) ∧ w.IsOnCalendar ∧
      ∃ c timeout, (underLimit w 60000 opened w.newRun plainPlan).Reaches c ∧
        c.world.IsOnCalendar ∧
        c.asks? = some (.call (.organization plainPlan.resource) timeout) ∧
        ¬ ∃ left : Nat, timeout = some left ∧
          (left : Int) = w.timeline.now + 60000 - c.world.timeline.now := by
  intro w opened
  let run := opened.joinNewest w.newRun
  have active : opened.standing run = .active none := by decide +kernel
  refine ⟨by decide, ⟨rfl, rfl⟩, by decide, _, none,
    .single (.present ?_ (congrArg Progress.now active)), by decide, rfl, by simp⟩
  rfl

end Walk

end Rehearsal

end PolicyWarden
