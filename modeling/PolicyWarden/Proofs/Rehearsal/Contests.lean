import Mathlib.Tactic.Common
import PolicyWarden.Proofs.Rehearsal.Account

/-!
# How a race is decided

A race between a call and an abort is decided once (`Contest.winner?_occurAll`), and taking the
listener away after that makes no difference (`Contest.winner?_close_occurAll`).  What decides it is
read off the events alone (`Contest.winner?_course`): the result of the call if it settled before
anyone waited, or else an abort that was heard of by then, or else whatever happens first.

A script begins with such a race (`Conduct.winner?_contest`), and whoever is left waiting by it
waits for a race in which nothing has happened (`Conduct.contest_of_waits`).
-/

namespace PolicyWarden

/-! ### Events -/

namespace ContestEvent

variable {α : Type}

/-- The result with which the call settles. -/
def result? : ContestEvent α → Option (Except Failure α)
  | settles result => some result
  | aborts _ => none

/-- The reason for which the signal is raised. -/
def reason? : ContestEvent α → Option Failure
  | settles _ => none
  | aborts reason => some reason

end ContestEvent

namespace Contest

variable {α : Type} {c : Contest α} {ending : Race α}

/-! ### After the end -/

/-- A side that comes in after another one does not win. -/
lemma winner?_arrive (won : c.winner? = some ending) (side : Race α) :
    (c.arrive side).winner? = some ending := by
  obtain ⟨sides, waited, first⟩ := Option.bind_eq_some_iff.mp won
  have later : (c.arrive side).arrivals = some (sides ++ [side]) := by
    rw [arrive, waited]
    rfl
  rw [winner?, later]
  show (sides ++ [side]).head? = some ending
  rw [List.head?_append, first]
  rfl

/-- A race that has ended stays as it ended, whatever happens next. -/
lemma winner?_occur (won : c.winner? = some ending) (event : ContestEvent α) :
    (c.occur event).winner? = some ending := by
  cases event with
  | settles result =>
    show (c.settle result).winner? = some ending
    unfold settle
    split
    · exact won
    · exact winner?_arrive (c := { c with result := some result }) won _
  | aborts reason =>
    show (c.hear reason).winner? = some ending
    unfold hear
    split
    · exact winner?_arrive (c := { c with reason := some reason, listens := false }) won _
    · exact won

/-- **A race is decided once.**  A race that has ended stays as it ended. -/
theorem winner?_occurAll (won : c.winner? = some ending) (events : List (ContestEvent α)) :
    (c.occurAll events).winner? = some ending := by
  induction events generalizing c with
  | nil => exact won
  | cons event events ih => exact ih (winner?_occur won event)

/-- No abort is heard of once the listener was taken away. -/
lemma reason_close_occurAll (events : List (ContestEvent α)) (deaf : c.listens = false) :
    (c.occurAll events).reason = c.reason := by
  induction events generalizing c with
  | nil => rfl
  | cons event events ih =>
    have same : (c.occur event).reason = c.reason ∧ (c.occur event).listens = false := by
      cases event with
      | settles result =>
        show (c.settle result).reason = c.reason ∧ (c.settle result).listens = false
        unfold settle
        split <;> exact ⟨rfl, deaf⟩
      | aborts reason =>
        show (c.hear reason).reason = c.reason ∧ (c.hear reason).listens = false
        rw [hear, if_neg (by rw [deaf]; exact Bool.false_ne_true)]
        exact ⟨rfl, deaf⟩
    exact (ih same.2).trans same.1

/-- After the race the listener may be taken away: the race stays as it ended, and no later abort is
heard of. -/
theorem winner?_close_occurAll (won : c.winner? = some ending) (events : List (ContestEvent α)) :
    (c.close.occurAll events).winner? = some ending ∧
      (c.close.occurAll events).reason = c.reason :=
  ⟨winner?_occurAll (c := c.close) won events, reason_close_occurAll events rfl⟩

/-! ### What decides -/

/-- The first event decides a race in which nothing has happened. -/
lemma winner?_pending_occurAll (events : List (ContestEvent α)) :
    (pending.occurAll events).winner? = events.head?.map ContestEvent.race := by
  cases events with
  | nil => rfl
  | cons event events =>
    have first : (pending.occur event).winner? = some event.race := by
      cases event <;> rfl
    exact winner?_occurAll first events

/-- The call keeps the first result that it settles with. -/
lemma result_occurAll (events : List (ContestEvent α)) :
    (c.occurAll events).result = c.result.or (events.findSome? ContestEvent.result?) := by
  induction events generalizing c with
  | nil => exact Option.or_none.symm
  | cons event events ih =>
    cases event with
    | settles result =>
      refine (ih (c := c.settle result)).trans ?_
      cases settled : c.result with
      | none =>
        rw [settle, settled]
        rfl
      | some first =>
        rw [settle, settled]
        dsimp only
        rw [settled]
        rfl
    | aborts reason =>
      have same : (c.hear reason).result = c.result := by
        unfold hear
        split <;> rfl
      refine (ih (c := c.hear reason)).trans ?_
      rw [same]
      rfl

/-- The listener keeps the first reason that it hears of. -/
lemma reason_occurAll (events : List (ContestEvent α)) (tuned : c.listens = c.reason.isNone) :
    (c.occurAll events).reason = c.reason.or (events.findSome? ContestEvent.reason?) := by
  induction events generalizing c with
  | nil => exact Option.or_none.symm
  | cons event events ih =>
    cases event with
    | settles result =>
      have same : (c.settle result).reason = c.reason ∧
          (c.settle result).listens = c.listens := by
        unfold settle
        split <;> exact ⟨rfl, rfl⟩
      have still : (c.settle result).listens = (c.settle result).reason.isNone := by
        rw [same.1, same.2, tuned]
      refine (ih (c := c.settle result) still).trans ?_
      rw [same.1]
      rfl
    | aborts reason =>
      cases heard : c.reason with
      | none =>
        rw [heard] at tuned
        have hears : c.hear reason =
            arrive { c with reason := some reason, listens := false } (.aborted reason) :=
          if_pos tuned
        refine (ih (c := c.hear reason) (by rw [hears]; rfl)).trans ?_
        rw [hears]
        rfl
      | some first =>
        rw [heard] at tuned
        have deaf : c.hear reason = c := by
          rw [hear, tuned]
          rfl
        refine (congrArg (fun c => (occurAll c events).reason) deaf).trans ?_
        rw [ih (by rw [heard, tuned]), heard]
        rfl

/-- What has come in before anyone waits is looked at in a fixed order, the call first. -/
lemma winner?_watched (before : List (ContestEvent α)) :
    (occurAll {} before).watched.winner? =
      ((before.findSome? ContestEvent.result?).map Race.settled).or
        ((before.findSome? ContestEvent.reason?).map Race.aborted) := by
  have result : (occurAll ({} : Contest α) before).result = before.findSome? ContestEvent.result? :=
    result_occurAll before
  have reason : (occurAll ({} : Contest α) before).reason = before.findSome? ContestEvent.reason? :=
    reason_occurAll before rfl
  rw [winner?, watched, result, reason]
  cases before.findSome? ContestEvent.result? <;>
    cases before.findSome? ContestEvent.reason? <;> rfl

/-- **What decides a race.**  If the call has settled when somebody begins to wait, its result
decides; if not, then an abort that was heard of by then; and if there was none, then what happens
first. -/
theorem winner?_course (before after : List (ContestEvent α)) :
    ((occurAll {} before).watched.occurAll after).winner? =
      (((before.findSome? ContestEvent.result?).map Race.settled).or
        ((before.findSome? ContestEvent.reason?).map Race.aborted)).or
          (after.head?.map ContestEvent.race) := by
  rw [← winner?_watched]
  cases decided : (occurAll {} before).watched.winner? with
  | some ending => exact winner?_occurAll decided after
  | none =>
    -- Every event is heard of or settles the call, so nothing can have happened.
    have nothing : before = [] := by
      rw [winner?_watched, Option.or_eq_none_iff] at decided
      cases before with
      | nil => rfl
      | cons event events =>
        cases event <;> simp [ContestEvent.result?, ContestEvent.reason?] at decided
    subst nothing
    exact winner?_pending_occurAll after

end Contest

/-! ### Scripts -/

namespace Rehearsal

namespace Conduct

variable {α : Type}

/-- A race begins with the result of a call that has settled, or else with an abort during it. -/
lemma winner?_contest (conduct : Conduct α) (raised : Option Failure) :
    (conduct.contest raised).winner? =
      (conduct.early?.map Race.settled).or (raised.map Race.aborted) := by
  rw [contest, Contest.winner?_watched]
  cases conduct <;> cases raised <;> rfl

/-- A race that has an end when the caller begins to wait is decided within a turn. -/
lemma race_of_winner? {conduct : Conduct α} {raised : Option Failure} {ending : Race α}
    (made : ∀ failure, conduct ≠ .throws failure)
    (won : (conduct.contest raised).winner? = some ending) :
    conduct.race raised = .soon ending := by
  unfold race
  dsimp only
  rw [won]
  cases conduct with
  | throws failure => exact absurd rfl (made failure)
  | atOnce | later | never => rfl

/-- Whoever is left waiting waits for a race in which nothing has happened, and no signal was raised
during the call. -/
lemma contest_of_waits {conduct : Conduct α} {raised : Option Failure}
    (waits : (conduct.race raised).reply? = none) :
    conduct.contest raised = Contest.pending ∧ raised = none := by
  cases conduct <;> cases raised <;> first | exact ⟨rfl, rfl⟩ | cases waits

end Conduct

end Rehearsal

end PolicyWarden
