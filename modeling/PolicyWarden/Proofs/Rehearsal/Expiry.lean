import Mathlib.Tactic.Common
import PolicyWarden.Proofs.Rehearsal.Forward
import PolicyWarden.Proofs.Rehearsal.Races

/-!
# Expiry

An invocation expires in two ways: the clock reaches its deadline, or its signal is raised.  The two
need not happen at once, since the timer that raises the signal may fire late, an abort raises it
early, and a time limit that no timer keeps raises it at once.  Whatever happens, as long as the
clock does not go back, the signal is raised by an abort or by a timer whose time has come and by
nothing else (`cause_of_isRaised`), and an invocation that has expired in one of the two ways stays
so (`Invocation.Ages.expired`).

The newest invocation is followed through its run: no action opens another one (`newRun_act`), so
that it merely ages and keeps its deadline and the instant at which its timer is due.  The timer is
due at the deadline for every time limit that timers keep as a delay, and a millisecond after the
start for a longer one (`Timeline.delay_eq`).  A deadline beyond the calendar is never reached; such
an invocation expires by its signal alone, and how much time it has left is not known.  So the two
ways part in both directions (`timer_parts_from_deadline`).
-/

namespace PolicyWarden

/-! ### Invocations -/

namespace Invocation

variable {i j : Invocation} {earlier later : Int} {reason : Failure}

/-- An invocation that has expired stays so while it ages and the clock goes on. -/
lemma Ages.expired (ages : i.Ages j) (expired : i.standing earlier = .expired reason)
    (here : earlier.natAbs ≤ Instant.calendarReach) (there : later.natAbs ≤ Instant.calendarReach)
    (forward : earlier ≤ later) : ∃ reason, j.standing later = .expired reason := by
  cases raised : j.reason with
  | some last => exact ⟨last, by simp [standing, raised]⟩
  | none =>
    -- The signal is down, so it was down before, and it was the deadline that had passed.
    have down : i.reason = none := by
      cases before : i.reason with
      | none => rfl
      | some first => rw [ages.reason first before] at raised; cases raised
    cases limited : i.deadline with
    | none =>
      rw [standing_of_no_deadline limited, down] at expired
      cases expired
    | some deadline =>
      have passed : ¬ earlier < deadline := by
        intro ahead
        rw [standing_of_deadline limited here, down, if_pos ahead] at expired
        cases expired
      refine ⟨.absent, ?_⟩
      rw [standing_of_deadline (ages.deadline.trans limited) there, raised]
      exact if_neg (by omega)

end Invocation

/-! ### Timelines -/

namespace Timeline

/-- The delay of a timer is the time limit, unless timers do not keep so long a delay. -/
lemma delay_eq (t : Timeline) {timeout : Nat} (positive : 1 ≤ timeout) :
    t.delay timeout = if timeout ≤ t.longestDelay then timeout else 1 := by
  simp [delay, positive]

/-- The newest invocation stays the newest one while time passes. -/
lemma newest?_advance (t : Timeline) (millis : Int) : (t.advance millis).newest? = t.newest? := by
  simp [newest?, advance, stall]

/-- The newest invocation stays the newest one when an invocation is aborted. -/
lemma newest?_abort (t : Timeline) (number : Nat) (reason : Failure) :
    (t.abort number reason).newest? = t.newest? := by
  simp [newest?, abort]

end Timeline

namespace Rehearsal

namespace World

variable {w v : World} {run : Run} {i : Invocation}

/-! ### The newest invocation -/

/-- The signal of the newest invocation is up. -/
def isRaised (w : World) : Bool :=
  (w.raised? w.newRun).isSome

/-- The newest invocation is the last one of the timeline. -/
lemma invocation?_newRun (w : World) :
    w.invocation? w.newRun = w.timeline.invocations.getLast? := by
  unfold invocation? newRun Timeline.newest?
  cases empty : w.timeline.invocations.isEmpty with
  | true => simp [List.isEmpty_iff.mp empty]
  | false => simp [Timeline.invocation?, List.getLast?_eq_getElem?]

/-- The signal of the newest invocation is up if there is a reason for it. -/
lemma isRaised_eq_aborted (found : w.invocation? w.newRun = some i) : w.isRaised = i.aborted := by
  rw [isRaised, raised?, found]
  rfl

/-- No action opens an invocation, so that the newest one stays the newest. -/
lemma newRun_act (w : World) (action : Action) : (w.act action).newRun = w.newRun := by
  have same : (w.act action).timeline.newest? = w.timeline.newest? := by
    cases action with
    | advance millis =>
      rw [act, timeline_advance, Timeline.newest?_advance]
    | abort reason =>
      show (w.abortNewest _).timeline.newest? = _
      unfold abortNewest
      split
      · rename_i number _
        split <;> exact w.timeline.newest?_abort number _
      · rfl
    | _ => rfl
  rw [newRun, newRun, same]

/-- The newest invocation stays the newest one whatever happens. -/
lemma newRun_actAll (w : World) (actions : List Action) :
    (w.actAll actions).newRun = w.newRun := by
  induction actions generalizing w with
  | nil => rfl
  | cons action actions ih => exact (ih (w.act action)).trans (w.newRun_act action)

/-! ### What raises a signal -/

/-- The clock after some time has passed. -/
lemma now_advance (w : World) (millis : Int) :
    (w.act (.advance millis)).timeline.now = w.timeline.now + millis := by
  rw [act, timeline_advance]
  rfl

/-- When timers fire, a signal comes up exactly if its time has come. -/
lemma isRaised_advance_iff (found : w.invocation? w.newRun = some i) (millis : Int) :
    (w.act (.advance millis)).isRaised = true ↔
      i.aborted = true ∨ i.due ≤ (w.act (.advance millis)).timeline.now := by
  obtain ⟨number, own, there⟩ := Option.bind_eq_some_iff.mp found
  have due : (∃ number ∈ (w.timeline.stall millis).dueNumbers, w.newRun.invocation = some number) ↔
      Timeline.isDue (w.timeline.now + millis) i = true := by
    rw [own]
    simp only [Option.some.injEq, exists_eq_right', Timeline.mem_dueNumbers_iff]
    show (∃ j, w.timeline.invocation? number = some j ∧ _) ↔ _
    simp only [there, Option.some.injEq, exists_eq_left']
    rfl
  have before : w.raised? w.newRun = i.reason := by
    rw [raised?, found]
    rfl
  rw [isRaised, newRun_act, now_advance]
  show ((w.advance millis).raised? w.newRun).isSome = true ↔ _
  rw [raised?_advance, before]
  simp only [due, Timeline.isDue, Invocation.aborted]
  cases i.reason <;> simp

/-- A signal comes up by an abort, or because timers fire and its time has come. -/
lemma cause_of_isRaised {action : Action} (found : w.invocation? w.newRun = some i)
    (down : w.isRaised = false) (up : (w.act action).isRaised = true) :
    (∃ reason, action = .abort reason) ∨
      (∃ millis, action = .advance millis) ∧ i.due ≤ (w.act action).timeline.now := by
  cases action with
  | abort reason => exact .inl ⟨reason, rfl⟩
  | advance millis =>
    rw [isRaised_advance_iff found] at up
    rw [isRaised_eq_aborted found] at down
    rw [down] at up
    exact .inr ⟨⟨millis, rfl⟩, up.resolve_left (by simp)⟩
  | _ => exact absurd (up.symm.trans down) (by simp)

/-! ### What a run is told -/

/-- A run that is over once it has looked at its invocation is reported in the same step. -/
lemma launch_standing {next : Standing → Dialogue Report} {report : Report}
    (ends : next (w.standing run) = .done report) :
    (w.launch run (.ask .standing next)).2 = .reported report := by
  have stands : w.begun.standing { run with number := w.runs } = w.standing run := rfl
  have came : follow settle (.ask .standing next) { run with number := w.runs } w.begun =
      (w.begun, some report) := by
    rw [follow_standing stands, ends]
    rfl
  rw [launch_of_follow came]

/-- A run that must be able to go on fails exactly if it may not. -/
lemma step_require (w : World) (stage : Stage) (resource : Option Text) :
    (w.step (.require stage resource)).2 = .reported
      (match w.standing w.newRun with
      | .active _ => .ok .nothing
      | .expired reason => .error (Deadline.exceeded stage resource reason)) := by
  apply launch_standing
  cases w.standing w.newRun <;> rfl

/-- The step fails exactly for an invocation that has expired. -/
lemma step_require_eq_error_iff {stage : Stage} {resource : Option Text} {failure : Failure} :
    (w.step (.require stage resource)).2 = .reported (.error failure) ↔
      ∃ reason, w.standing w.newRun = .expired reason ∧
        failure = Deadline.exceeded stage resource reason := by
  rw [step_require]
  cases w.standing w.newRun with
  | active left => simp
  | expired reason => simp [eq_comm]

/-- Whoever asks for the time left is told that and whether the signal is up. -/
lemma step_remaining (found : w.invocation? w.newRun = some i) :
    (w.step .remaining).2 = .reported
      (.ok (.remaining (i.remaining (w.timeline.now + w.standingOffset)) w.isRaised)) := by
  rw [isRaised_eq_aborted found]
  rw [invocation?_newRun] at found
  show Result.reported w.remainingReport = _
  rw [remainingReport, found]

/-! ### Invocations under a time limit -/

/-- The newest invocation is one whose time is over at an instant, and whose timer is due at another
one: then its deadline is reached, if the calendar reaches so far, and its signal comes up. -/
def EndsAt (w : World) (limit timer : Int) : Prop :=
  ∃ i, w.invocation? w.newRun = some i ∧ i.deadline = Instant.onCalendar? limit ∧ i.due = timer

variable {limit timer : Int} {millis : Nat} {actions : List Action} {stage : Stage}
  {resource : Option Text} {failure : Failure}

/-- An invocation that is opened on the system clock ends one time limit later, and its timer is due
after the delay that is kept for the limit. -/
lemma endsAt_invoke (bounded : millis ≤ longestTimeout) (exact : w.deadlineOffset = 0)
    (start : w.IsOnCalendar) :
    (w.invoke (.whole millis)).1.EndsAt (w.timeline.now + millis)
        (w.timeline.now + w.timeline.delay millis) ∧
      (w.invoke (.whole millis)).1.isRaised = false := by
  have opened := w.invocation?_joinNewest_invoke { number := 0, invocation := none }
    (readTimeout_whole bounded)
  exact ⟨⟨_, opened, deadline_opened exact start millis, rfl⟩, isRaised_eq_aborted opened⟩

/-- The end of an invocation does not move, whatever happens. -/
lemma EndsAt.actAll (ends : w.EndsAt limit timer)
    (forward : ∀ action ∈ actions, action.IsForward) : (w.actAll actions).EndsAt limit timer := by
  obtain ⟨i, found, deadline, due⟩ := ends
  obtain ⟨j, there, older⟩ := (ages_actAll forward).exists_invocation found
  rw [← newRun_actAll w actions] at there
  exact ⟨j, there, older.deadline.trans deadline, older.due.trans due⟩

/-- The time left is told to the end of the invocation, unless the calendar does not reach it. -/
lemma EndsAt.exists_remaining (ends : w.EndsAt limit timer) (exact : w.standingOffset = 0)
    (here : w.IsOnCalendar)
    (ahead : limit.natAbs ≤ Instant.calendarReach ∨ w.timeline.now < limit) :
    ∃ left, (w.step .remaining).2 = .reported (.ok (.remaining left w.isRaised)) ∧
      (limit.natAbs ≤ Instant.calendarReach →
        ∃ n : Nat, left = some n ∧ (n : Int) = max 0 (limit - w.timeline.now)) ∧
      (¬ limit.natAbs ≤ Instant.calendarReach → left = none) ∧
      (left = some 0 ↔ limit ≤ w.timeline.now) := by
  obtain ⟨i, found, deadline, -⟩ := ends
  have told := step_remaining found
  rw [exact, Int.add_zero] at told
  have clock : Instant.onCalendar? w.timeline.now = some w.timeline.now :=
    Instant.onCalendar?_eq_some_iff.mpr ⟨rfl, here⟩
  refine ⟨_, told, ?_⟩
  by_cases limited : limit.natAbs ≤ Instant.calendarReach
  · have left : i.remaining w.timeline.now = some (limit - w.timeline.now : Int).toNat := by
      rw [Invocation.remaining, deadline, Instant.onCalendar?, if_pos limited, clock]
      rfl
    rw [left]
    refine ⟨fun _ => ⟨_, rfl, by omega⟩, fun beyond => absurd limited beyond, ?_⟩
    rw [Option.some.injEq]
    show (limit - w.timeline.now : Int).toNat = 0 ↔ @LE.le Int _ limit w.timeline.now
    omega
  · have left : i.remaining w.timeline.now = none := by
      rw [Invocation.remaining, deadline, Instant.onCalendar?, if_neg limited]
      rfl
    have before : @LT.lt Int _ w.timeline.now limit := ahead.resolve_left limited
    rw [left]
    refine ⟨fun known => absurd known limited, fun _ => rfl, ?_⟩
    exact ⟨fun zero => absurd zero (by simp), fun passed => absurd before (Int.not_lt.mpr passed)⟩

/-- A timer raises the signal only when it is due. -/
lemma EndsAt.cause (ends : w.EndsAt limit timer) {action : Action} (down : w.isRaised = false)
    (up : (w.act action).isRaised = true) :
    (∃ reason, action = .abort reason) ∨
      (∃ millis, action = .advance millis) ∧ timer ≤ (w.act action).timeline.now := by
  obtain ⟨i, found, -, due⟩ := ends
  rw [← due]
  exact cause_of_isRaised found down up

/-- When timers fire after this one was due, the signal is up. -/
lemma EndsAt.isRaised_advance (ends : w.EndsAt limit timer) {millis : Int}
    (passed : timer ≤ (w.act (.advance millis)).timeline.now) :
    (w.act (.advance millis)).isRaised = true := by
  obtain ⟨i, found, -, due⟩ := ends
  rw [← due] at passed
  exact (isRaised_advance_iff found millis).mpr (.inr passed)

/-- A run that failed because it could not go on fails whenever it is tried again. -/
lemma EndsAt.exists_error_actAll (ends : w.EndsAt limit timer) (exact : w.standingOffset = 0)
    (here : w.IsOnCalendar)
    (failed : (w.step (.require stage resource)).2 = .reported (.error failure))
    (forward : ∀ action ∈ actions, action.IsForward) (there : (w.actAll actions).IsOnCalendar)
    (stage : Stage) (resource : Option Text) :
    ∃ reason, ((w.actAll actions).step (.require stage resource)).2 =
      .reported (.error (Deadline.exceeded stage resource reason)) := by
  obtain ⟨i, found, -, -⟩ := ends
  have ages : w.Ages (w.actAll actions) := ages_actAll forward
  obtain ⟨j, later, older⟩ := ages.exists_invocation found
  rw [← newRun_actAll w actions] at later
  obtain ⟨reason, expired, -⟩ := step_require_eq_error_iff.mp failed
  rw [standing_of_invocation found, exact, Int.add_zero] at expired
  obtain ⟨last, still⟩ := older.expired expired here there ages.timeline.forward
  refine ⟨last, step_require_eq_error_iff.mpr ⟨last, ?_, rfl⟩⟩
  rw [standing_of_invocation later, ages.standingOffset, exact, Int.add_zero]
  exact still

/-- The timer of a time limit is due when the time is over, or earlier if the limit is longer than
any delay that timers keep: then a millisecond is enough. -/
lemma delay_le_iff (w : World) (positive : 1 ≤ millis) (now : Int) :
    w.timeline.now + w.timeline.delay millis ≤ now ↔
      w.timeline.now + millis ≤ now ∨
        w.timeline.longestDelay < millis ∧ w.timeline.now + 1 ≤ now := by
  rw [w.timeline.delay_eq positive]
  generalize (w.timeline.now : Int) = start
  show @LE.le Int _ _ now ↔ @LE.le Int _ _ now ∨ _ ∧ @LE.le Int _ _ now
  split <;> omega

/-- **Expiry is permanent, and its two ways agree.**  An invocation is opened with a time limit on
the system clock, and anything happens except that the clock goes back or leaves the calendar.  Then
the time that is left is the time until the deadline and never less than zero, unless the deadline
is beyond the calendar, where it is not known.  The signal is down at first, and it comes up by an
abort, or by a timer when no time is left; it is up whenever timers have fired and no time is left.
Only for a time limit that is longer than any delay that timers keep, the timer comes first: it
raises the signal as soon as a millisecond has passed.  A run that failed because it could not go on
fails at every later moment, whatever it is for. -/
theorem expiry_is_permanent {past : List Action} (positive : 1 ≤ millis)
    (bounded : millis ≤ longestTimeout) (oneClock : w.deadlineOffset = 0 ∧ w.standingOffset = 0)
    (start : w.IsOnCalendar) (forward : ∀ action ∈ past, action.IsForward)
    (here : ((w.invoke (.whole millis)).1.actAll past).IsOnCalendar) :
    let opened := (w.invoke (.whole millis)).1
    let v := opened.actAll past
    let deadline : Int := w.timeline.now + millis
    let isTooLong := w.timeline.longestDelay < millis
    opened.isRaised = false ∧
      (∃ left, (v.step .remaining).2 = .reported (.ok (.remaining left v.isRaised)) ∧
        (deadline.natAbs ≤ Instant.calendarReach →
          ∃ n : Nat, left = some n ∧ (n : Int) = max 0 (deadline - v.timeline.now)) ∧
        (¬ deadline.natAbs ≤ Instant.calendarReach → left = none) ∧
        (∀ earlier action, past = earlier ++ [action] →
          (opened.actAll earlier).isRaised = false → v.isRaised = true →
          (∃ reason, action = .abort reason) ∨
            (∃ ms, action = .advance ms) ∧
              (left = some 0 ∨ isTooLong ∧ w.timeline.now + 1 ≤ v.timeline.now)) ∧
        (∀ earlier ms, past = earlier ++ [.advance ms] →
          left = some 0 ∨ isTooLong ∧ w.timeline.now + 1 ≤ v.timeline.now →
          v.isRaised = true)) ∧
      ∀ stage resource failure,
        (v.step (.require stage resource)).2 = .reported (.error failure) →
        ∀ future : List Action, (∀ action ∈ future, action.IsForward) →
          (v.actAll future).IsOnCalendar → ∀ stage resource, ∃ reason,
            ((v.actAll future).step (.require stage resource)).2 =
              .reported (.error (Deadline.exceeded stage resource reason)) := by
  intro opened v deadline isTooLong
  obtain ⟨ends, down⟩ := endsAt_invoke bounded oneClock.1 start
  have ages : w.Ages v := (w.ages_invoke (.whole millis)).1.trans (ages_actAll forward)
  have exact : v.standingOffset = 0 := ages.standingOffset.trans oneClock.2
  have last : v.EndsAt deadline (w.timeline.now + w.timeline.delay millis) := ends.actAll forward
  -- A deadline that the calendar does not reach is later than every moment on it.
  have ahead : deadline.natAbs ≤ Instant.calendarReach ∨ v.timeline.now < deadline := by
    have early : (w.timeline.now : Int).natAbs ≤ Instant.calendarReach := start
    have late : (v.timeline.now : Int).natAbs ≤ Instant.calendarReach := here
    have limit : deadline = w.timeline.now + millis := rfl
    show _ ∨ @LT.lt Int _ v.timeline.now deadline
    omega
  have parts (earlier : List Action) (action : Action) (split : past = earlier ++ [action]) :
      v = (opened.actAll earlier).act action ∧
        (opened.actAll earlier).EndsAt deadline (w.timeline.now + w.timeline.delay millis) := by
    subst split
    refine ⟨List.foldl_concat .., ends.actAll fun action mem => ?_⟩
    exact forward action (List.mem_append_left _ mem)
  obtain ⟨left, told, known, unknown, zero⟩ := last.exists_remaining exact here ahead
  have due : w.timeline.now + w.timeline.delay millis ≤ v.timeline.now ↔
      left = some 0 ∨ isTooLong ∧ w.timeline.now + 1 ≤ v.timeline.now :=
    (w.delay_le_iff positive v.timeline.now).trans (or_congr_left zero.symm)
  refine ⟨down, ⟨left, told, known, unknown, ?_, ?_⟩, ?_⟩
  · intro earlier action split below up
    obtain ⟨eq, before⟩ := parts earlier action split
    rw [← due, eq]
    rw [eq] at up
    exact before.cause below up
  · intro earlier ms split spent
    obtain ⟨eq, before⟩ := parts earlier _ split
    rw [← due, eq] at spent
    rw [eq]
    exact before.isRaised_advance spent
  · intro stage resource failure failed future onward there
    exact last.exists_error_actAll exact here failed onward there

/-- A second and a half after it was opened for one second, while its timer is late, an invocation
has no time left and its signal is down; when timers fire the signal comes up, and a run that failed
before that still fails.  One that was opened for 3000000000 milliseconds has its signal up as soon
as timers fire a millisecond later. -/
theorem expiry_is_permanent_late_timer :
    let w : World := {}
    let opened := (w.invoke (.whole 1000)).1
    let v := opened.actAll [.stall 1500]
    let u := opened.actAll [.stall 1500, .advance 0]
    let long := (w.invoke (.whole 3000000000)).1
    1 ≤ 1000 ∧ 1000 ≤ longestTimeout ∧ (w.deadlineOffset = 0 ∧ w.standingOffset = 0) ∧
      w.IsOnCalendar ∧ v.IsOnCalendar ∧ u.IsOnCalendar ∧
      (v.step .remaining).2 = .reported (.ok (.remaining (some 0) false)) ∧
      (u.step .remaining).2 = .reported (.ok (.remaining (some 0) true)) ∧
      (∀ stage resource, ∃ reason, (u.step (.require stage resource)).2 =
        .reported (.error (Deadline.exceeded stage resource reason))) ∧
      3000000000 ≤ longestTimeout ∧ w.timeline.longestDelay < 3000000000 ∧
      (long.actAll [.advance 1]).IsOnCalendar ∧
      long.isRaised = false ∧ (long.actAll [.advance 1]).isRaised = true := by
  intro w opened v u long
  have bounded : 1000 ≤ longestTimeout := by decide
  have start : w.IsOnCalendar := by decide
  have early : v.IsOnCalendar := by decide
  have late : u.IsOnCalendar := by decide +kernel
  have next : (long.actAll [.advance 1]).IsOnCalendar := by decide +kernel
  have stalled : ∀ action ∈ [Action.stall 1500], action.IsForward := by simp [Action.IsForward]
  have fired : ∀ action ∈ [Action.stall 1500, .advance 0], action.IsForward := by
    simp [Action.IsForward]
  have passing : ∀ action ∈ [Action.advance 1], action.IsForward := by simp [Action.IsForward]
  obtain ⟨-, ⟨left, told, known, -, -, -⟩, forever⟩ :=
    expiry_is_permanent (by decide : 1 ≤ 1000) bounded ⟨rfl, rfl⟩ start stalled early
  obtain ⟨-, ⟨last, shown, certain, -, -, raised⟩, -⟩ :=
    expiry_is_permanent (by decide : 1 ≤ 1000) bounded ⟨rfl, rfl⟩ start fired late
  obtain ⟨down, ⟨_, -, -, -, -, atOnce⟩, -⟩ :=
    expiry_is_permanent (by decide : 1 ≤ 3000000000) (by decide) ⟨rfl, rfl⟩ start passing next
  have passed : (max 0 (w.timeline.now + 1000 - v.timeline.now) : Int) = 0 := by decide
  have passed' : (max 0 (w.timeline.now + 1000 - u.timeline.now) : Int) = 0 := by decide +kernel
  obtain ⟨n, rfl, eq⟩ := known (by decide)
  obtain ⟨m, rfl, eq'⟩ := certain (by decide)
  obtain rfl : n = 0 := Int.ofNat.inj (eq.trans passed)
  obtain rfl : m = 0 := Int.ofNat.inj (eq'.trans passed')
  have up : u.isRaised = true := raised [.stall 1500] 0 rfl (.inl rfl)
  have raisedAtOnce : (long.actAll [.advance 1]).isRaised = true :=
    atOnce [] 1 rfl (.inr ⟨by decide, by decide +kernel⟩)
  refine ⟨by decide, bounded, ⟨rfl, rfl⟩, start, early, late, told, ?_, ?_, by decide, by decide,
    next, down, raisedAtOnce⟩
  · rw [← up]
    exact shown
  · have failed : (v.step (.require .parse none)).2 =
        .reported (.error (Deadline.exceeded .parse none .absent)) :=
      step_require_eq_error_iff.mpr ⟨.absent, rfl, rfl⟩
    exact forever _ _ _ failed [.advance 0] (by simp [Action.IsForward]) late

/-- A time limit of 3000000000 milliseconds is accepted, but timers keep no such delay: when they
fire a millisecond later they raise the signal, with 2999999999 milliseconds left.  And a second
before the end of the calendar a time limit of a minute leads beyond it: the time that is left is
not known, although the clock shows a date. -/
theorem timer_parts_from_deadline :
    (let w : World := {}
      let opened := (w.invoke (.whole 3000000000)).1
      let v := opened.act (.advance 1)
      1 ≤ 3000000000 ∧ 3000000000 ≤ longestTimeout ∧
        (w.deadlineOffset = 0 ∧ w.standingOffset = 0) ∧ w.IsOnCalendar ∧ v.IsOnCalendar ∧
        opened.isRaised = false ∧ v.isRaised = true ∧
        (v.step .remaining).2 = .reported (.ok (.remaining (some 2999999999) true))) ∧
      let w : World := { timeline := { now := 8639999999999000, invocations := [] } }
      let opened := (w.invoke (.whole 60000)).1
      1 ≤ 60000 ∧ 60000 ≤ longestTimeout ∧ (w.deadlineOffset = 0 ∧ w.standingOffset = 0) ∧
        w.IsOnCalendar ∧ opened.IsOnCalendar ∧
        (opened.step .remaining).2 = .reported (.ok (.remaining none false)) ∧
        ¬ ∃ (n : Nat) (aborted : Bool),
          (opened.step .remaining).2 = .reported (.ok (.remaining (some n) aborted)) ∧
            (n : Int) = max 0 (w.timeline.now + 60000 - opened.timeline.now) := by
  constructor
  · intro w opened v
    let i : Invocation := ⟨some 1712544600000, 1709544600001, some timeoutReason⟩
    have found : v.invocation? v.newRun = some i := by decide +kernel
    have up : v.isRaised = true := isRaised_eq_aborted found
    have left : i.remaining (v.timeline.now + v.standingOffset) = some 2999999999 := by
      decide +kernel
    refine ⟨by decide, by decide, ⟨rfl, rfl⟩, by decide, by decide +kernel, rfl, up, ?_⟩
    rw [step_remaining found, left, up]
  · intro w opened
    have told : (opened.step .remaining).2 = .reported (.ok (.remaining none false)) := rfl
    refine ⟨by decide, by decide, ⟨rfl, rfl⟩, by decide, by decide, told, ?_⟩
    rintro ⟨n, aborted, shown, -⟩
    rw [told] at shown
    cases shown

end World

end Rehearsal

end PolicyWarden
