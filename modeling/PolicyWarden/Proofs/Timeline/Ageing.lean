import Mathlib.Tactic.Common
import PolicyWarden.Timeline.Basic

/-!
# Ageing

While time passes, invocations grow older: they keep their deadlines and their timers, and a signal
that was raised stays raised for the reason that it was raised for.  Nothing else is promised about
them, since a timer may fire late and an invocation may be aborted at any time.

How an invocation stands depends on its signal, its deadline and the clock alone.  One whose
deadline is beyond the calendar has no deadline at all: it goes on until its signal is raised.
-/

namespace PolicyWarden

/-! ### Invocations -/

namespace Invocation

/-- The second invocation is what may have become of the first. -/
structure Ages (i j : Invocation) : Prop where
  deadline : j.deadline = i.deadline
  due : j.due = i.due
  reason : ∀ reason, i.reason = some reason → j.reason = some reason

variable {i j k : Invocation} {clock deadline : Int}

lemma Ages.refl (i : Invocation) : i.Ages i :=
  ⟨rfl, rfl, fun _ raised => raised⟩

lemma Ages.trans (first : i.Ages j) (second : j.Ages k) : i.Ages k :=
  ⟨second.deadline.trans first.deadline, second.due.trans first.due,
    fun reason raised => second.reason reason (first.reason reason raised)⟩

/-- An abort ages an invocation: the first reason stays. -/
lemma ages_abort (i : Invocation) (reason : Failure) : i.Ages (i.abort reason) := by
  refine ⟨rfl, rfl, fun first raised => ?_⟩
  simp [abort, raised]

/-- An invocation ages whether or not its timer fires. -/
lemma ages_fire (now : Instant) (i : Invocation) : i.Ages (Timeline.fire now i) := by
  unfold Timeline.fire
  split
  · exact i.ages_abort timeoutReason
  · exact .refl i

/-- With a deadline an invocation stands as its signal says, or else as the clock does. -/
lemma standing_of_deadline (limited : i.deadline = some deadline)
    (here : clock.natAbs ≤ Instant.calendarReach) :
    i.standing clock =
      match i.reason with
      | some reason => .expired reason
      | none =>
          if clock < deadline then .active (some (deadline - clock).toNat)
          else .expired .absent := by
  have left : i.remaining clock = some (deadline - clock).toNat := by
    simp [remaining, limited, Instant.onCalendar?, here]
  -- The time left never falls below zero, so it is zero exactly from the deadline on.
  have zero : (deadline - clock).toNat = 0 ↔ ¬ clock < deadline := by omega
  unfold standing
  cases i.reason with
  | some reason => rfl
  | none =>
    by_cases before : clock < deadline <;> simp [left, zero, before]

/-- Without a deadline an invocation goes on until its signal is raised. -/
lemma standing_of_no_deadline (unlimited : i.deadline = none) :
    i.standing clock =
      match i.reason with
      | some reason => .expired reason
      | none => .active none := by
  have left : i.remaining clock = none := by simp [remaining, unlimited]
  unfold standing
  cases i.reason with
  | some reason => rfl
  | none => simp [left]

/-- Whoever was found to be active under a deadline had the time left until then. -/
lemma active_of_deadline {left : Option Nat} (active : i.standing clock = .active left)
    (limited : i.deadline = some deadline) (here : clock.natAbs ≤ Instant.calendarReach) :
    clock < deadline ∧ left = some (deadline - clock).toNat := by
  rw [standing_of_deadline limited here] at active
  split at active
  · cases active
  · split at active
    · cases active
      exact ⟨by assumption, rfl⟩
    · cases active

/-- Whoever was found to be active without a deadline did not know how much time was left. -/
lemma active_of_no_deadline {left : Option Nat} (active : i.standing clock = .active left)
    (unlimited : i.deadline = none) : left = none := by
  rw [standing_of_no_deadline unlimited] at active
  split at active
  · cases active
  · cases active
    rfl

end Invocation

/-! ### Timelines -/

namespace Timeline

/-- The second timeline is what may have become of the first: the clock has not gone back, and all
invocations have aged. -/
structure Ages (t u : Timeline) : Prop where
  forward : t.now ≤ u.now
  invocations : ∀ number i, t.invocation? number = some i →
    ∃ j, u.invocation? number = some j ∧ i.Ages j

variable {t u v : Timeline}

lemma Ages.refl (t : Timeline) : t.Ages t :=
  ⟨Int.le_refl _, fun _ i found => ⟨i, found, .refl i⟩⟩

lemma Ages.trans (first : t.Ages u) (second : u.Ages v) : t.Ages v := by
  refine ⟨Int.le_trans first.forward second.forward, fun number i found => ?_⟩
  obtain ⟨j, there, older⟩ := first.invocations number i found
  obtain ⟨k, last, oldest⟩ := second.invocations number j there
  exact ⟨k, last, older.trans oldest⟩

/-- A timeline ages while time passes and no timer fires. -/
lemma ages_stall (t : Timeline) {millis : Int} (forward : 0 ≤ millis) : t.Ages (t.stall millis) :=
  ⟨Int.le_add_of_nonneg_right forward, fun _ i found => ⟨i, found, .refl i⟩⟩

/-- A timeline ages while time passes and timers fire. -/
lemma ages_advance (t : Timeline) {millis : Int} (forward : 0 ≤ millis) :
    t.Ages (t.advance millis) := by
  refine ⟨Int.le_add_of_nonneg_right forward, fun number i found => ?_⟩
  refine ⟨fire (t.stall millis).now i, ?_, i.ages_fire _⟩
  have same : (t.stall millis).invocations[number]? = some i := found
  simp [invocation?, advance, same]

/-- A timeline ages when an invocation is aborted. -/
lemma ages_abort (t : Timeline) (number : Nat) (reason : Failure) :
    t.Ages (t.abort number reason) := by
  refine ⟨Int.le_refl _, fun other i found => ?_⟩
  have same : t.invocations[other]? = some i := found
  by_cases own : number = other
  · subst own
    exact ⟨i.abort reason, by simp [invocation?, abort, same], i.ages_abort reason⟩
  · exact ⟨i, by simp [invocation?, abort, own, same], .refl i⟩

variable {timeout : Number} {offset : Int} {millis : Nat}

/-- An invocation with a time limit within range is opened behind all others. -/
lemma openInvocation_of_readTimeout (accepted : readTimeout timeout = .ok millis) :
    t.openInvocation timeout offset =
      .ok { t with invocations := t.invocations ++ [t.opened millis offset] } := by
  rw [openInvocation, accepted]
  rfl

/-- A timeline ages when an invocation is opened. -/
lemma ages_openInvocation (opened : t.openInvocation timeout offset = .ok u) : t.Ages u := by
  cases accepted : readTimeout timeout with
  | error failure =>
    rw [openInvocation, accepted] at opened
    cases opened
  | ok millis =>
    rw [openInvocation_of_readTimeout accepted] at opened
    cases opened
    refine ⟨Int.le_refl _, fun number i found => ⟨i, ?_, .refl i⟩⟩
    have inside : number < t.invocations.length := (List.getElem?_eq_some_iff.mp found).1
    simpa [invocation?, List.getElem?_append_left inside] using found

/-- The deadline is as far ahead as the limit and the clock that sets it say, if the calendar
reaches it. -/
lemma deadline?_eq (here : (t.now + offset).natAbs ≤ Instant.calendarReach) :
    t.deadline? millis offset = Instant.onCalendar? (t.now + offset + millis) := by
  simp [deadline?, Instant.onCalendar?, here]

end Timeline

/-- A whole number of milliseconds in the range of timers is accepted as it is. -/
lemma readTimeout_whole {millis : Nat} (bounded : millis ≤ longestTimeout) :
    readTimeout (.whole millis) = .ok millis := by
  simp [readTimeout, Number.toInt?, bounded]

end PolicyWarden
