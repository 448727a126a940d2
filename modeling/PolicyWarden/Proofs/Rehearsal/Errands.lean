import Mathlib.Tactic.Common
import PolicyWarden.Proofs.Gateway.Endings
import PolicyWarden.Proofs.Gateway.Service
import PolicyWarden.Proofs.Rehearsal.Races

/-!
# The race for a call

`Conduct.ending?` says how a call comes out while it is made: a result of its own stands if it is
there before anyone could hear of an abort, and an abort during the call overtakes everything that
is later.  That is what the events of the race come to (`Conduct.ending_race`).  What is still open
then is decided by the steps that follow (`World.fate`).  The main statement says this of errands,
after any steps, between any steps, and for all steps that may follow.
-/

namespace PolicyWarden

namespace Rehearsal

variable {α : Type}

/-- How a call comes out while it is made, if the signal of its invocation is as given afterwards. -/
def Conduct.ending? : Conduct α → (raised : Option Failure) → Option (Ending α)
  | throws failure, _ => some (.own (.error failure))
  | atOnce result, _ => some (.own result)
  | later _, some reason => some (.overtaken reason)
  | later result, none => some (.own result)
  | never, some reason => some (.overtaken reason)
  | never, none => none

/-- The race decides how a call comes out. -/
lemma Conduct.ending_race (conduct : Conduct α) (raised : Option Failure) :
    (conduct.race raised).reply?.map Race.ending = conduct.ending? raised := by
  have begins := conduct.winner?_contest raised
  cases conduct with
  | throws failure => rfl
  | atOnce result =>
    rw [race_of_winner? (by simp) begins]
    rfl
  | later result | never =>
    cases raised with
    | none => rfl
    | some reason =>
      rw [race_of_winner? (by simp) begins]
      rfl

/-- How a call of the service comes out while it is made; without a script it fails. -/
def scriptEnding? : Option (Script α) → (raised : Option Failure) → Option (Ending α)
  | some script, raised => script.conduct.ending? raised
  | none, _ => some (.own (.error World.noReply))

namespace World

variable {w v : World} {run : Run}

/-- A world in which nobody is awake, waits or was reported is settled. -/
lemma IsCalm.isSettled (calm : w.IsCalm) (unreported : w.reports = [])
    (gateway : w.gateway = .direct ∨ w.gateway = .service) : w.IsSettled where
  sound := by
    have promises : w.promises = [] := by
      rw [World.promises, calm.awake, unreported]
      rfl
    have tickets : w.tickets = [] := by
      rw [World.tickets, promises, calm.waiting]
      rfl
    constructor
    · rw [calm.waiting]
      simp
    · rw [calm.waiting]
      simp
    · rw [IsWinding, calm.awake]
      simp
    · rw [tickets]
      exact List.nodup_nil
    · rw [tickets]
      simp
  rest := calm.awake
  gateway := by
    rcases gateway with direct | service
    · rw [direct]
      exact Gateway.concedes_direct
    · rw [service]
      exact Gateway.concedes_service

/-- An errand is run once, right after the invocation was found to be active, for the time that is
left. -/
lemma asks_errandDialogue_iff {stage : Stage} {resource name : Option Text} {h : History}
    {left : Option Nat} :
    (errandDialogue stage resource name).Asks h (.errand left) ↔
      h = [⟨.standing, .active left⟩] := by
  obtain ⟨next, asks, inactive, active⟩ := guards_errandDialogue stage resource name
  rw [asks, Dialogue.asks_ask_iff]
  constructor
  · rintro (⟨-, eq⟩ | ⟨standing, rest, rfl, later⟩)
    · cases eq
    · cases standing with
      | expired reason => exact absurd later (Dialogue.not_asks_of_windUp? (inactive reason) rfl)
      | active found =>
        obtain ⟨onward, runs, winds⟩ := active found
        rw [runs, Dialogue.asks_ask_iff] at later
        rcases later with ⟨rfl, eq⟩ | ⟨race, rest, rfl, later⟩
        · cases eq
          rfl
        · exact absurd later (Dialogue.not_asks_of_windUp? (winds race) rfl)
  · rintro rfl
    obtain ⟨onward, runs, -⟩ := active left
    refine .inr ⟨Standing.active left, [], rfl, ?_⟩
    rw [runs]
    exact Dialogue.asks_ask_iff.mpr (.inl ⟨rfl, rfl⟩)

/-- **The race for an errand.**  After any steps that began with a calm world, a call is made under
the deadline of the newest invocation.

Nobody waits on a signal that is up.  If the invocation may not go on, then the call is not made and
the run fails with the reason of that.  Otherwise the call is made once, with the time that is left.
It comes to its own result if it throws, settles at once, or settles later without an abort before
that; if an abort came while it was made, and it is not settled yet, then it fails with the reason of
the abort.  A call that stays open is pending, and is reported once: with its own result if it is told
to settle before its signal is raised, and otherwise, in the step that raises the signal, with the
reason of that.  Whatever follows, that report stays the only one. -/
theorem errand_race (calm : w.IsCalm) (unreported : w.reports = [])
    (gateway : w.gateway = .direct ∨ w.gateway = .service) (earlier : List Step)
    (stage : Stage) (resource name : Option Text) (script : Script (Option Json)) :
    let v := w.after earlier
    let run : Run := { v.newRun with errand := some script, name := name, number := v.runs }
    let taken := v.step (.errand stage resource name script)
    let during := v.begun.actAll script.during
    (∀ x ∈ v.waiting, v.raised? x.run = none) ∧
    (∀ h left, (errandDialogue stage resource name).Asks h (.errand left) ↔
      h = [⟨.standing, .active left⟩]) ∧
    (∀ reason, v.standing run = .expired reason →
      taken.2 = .reported (.error (Deadline.exceeded stage resource reason)) ∧
        v.begun.Resembles taken.1) ∧
    ∀ left, v.standing run = .active left →
      let report := errandReport stage resource name left
      during.Continues taken.1 ∧
      (∀ ending, script.conduct.ending? (during.raised? run) = some ending →
        taken.2 = .reported (report ending)) ∧
      (script.conduct.ending? (during.raised? run) = none →
        taken.2 = .pending v.pendings ∧
        (∀ later, (taken.1.after later).reportsOf v.pendings =
          (fate run (fun result => some (report (.own result)))
            (fun reason => some (report (.overtaken reason))) taken.1 later).toList) ∧
        ∀ later more made, (taken.1.after later).reportsOf v.pendings = [made] →
          (taken.1.after (later ++ more)).reportsOf v.pendings = [made]) := by
  intro v run taken during
  have settled : v.IsSettled := ((calm.isSettled unreported gateway).settled_after earlier).1
  obtain ⟨expired, active⟩ := settled.launch_guards
    { v.newRun with errand := some script, name := name }
    (guards_errandDialogue stage resource name) rfl
  refine ⟨settled.sound.down, fun h left => asks_errandDialogue_iff, expired, ?_⟩
  intro left standing report
  obtain ⟨continues, decided, opened⟩ := active left standing
  obtain ⟨named, ran⟩ := v.begun.runErrand_eq run
  have answered : v.begun.answer run (.errand left) =
      ⟨{ during with named := named }, run, script.conduct.race (during.raised? run)⟩ := ran
  -- The reply to the question is the end of the race that the script leads to, if it has ended.
  have ends := script.conduct.ending_race (during.raised? run)
  rw [answered] at continues decided opened
  refine ⟨continues, fun ending comes => ?_, fun stays => ?_⟩
  · rw [comes] at ends
    obtain ⟨race, replied, rfl⟩ := Option.map_eq_some_iff.mp ends
    exact decided race replied
  · rw [stays] at ends
    obtain ⟨pending, reported⟩ := opened (Option.map_eq_none_iff.mp ends)
    refine ⟨pending, reported, fun later more made once => ?_⟩
    have after : taken.1.IsSettled := (settled.leaves_step _).1
    rw [World.after, List.foldl_append]
    exact (after.settled_after later).1.reportsOf_after_of_made once more

/-- An errand stays open for a second at most.  If it is told to settle after an abort, then it has
failed with the reason of the abort; if it is told before that, then it has come to its own value. -/
theorem errand_race_told_late :
    let v := ({} : World).after [.renew (.whole 1000)]
    let taken := v.step (.errand .fetchPolicy none (some "call") ⟨[], .never⟩)
    taken.2 = .pending 0 ∧
      (taken.1.after [.act (.abort .absent), .tell "call" (.ok none)]).reportsOf 0 =
        [.error (Deadline.exceeded .fetchPolicy none (abortReason .absent))] ∧
      (taken.1.after [.tell "call" (.ok none), .act (.abort .absent)]).reportsOf 0 =
        [.ok (.value none)] := by
  intro v taken
  obtain ⟨-, -, -, active⟩ := errand_race (w := {}) ⟨rfl, rfl⟩ rfl (.inl rfl) [.renew (.whole 1000)]
    .fetchPolicy none (some "call") ⟨[], .never⟩
  obtain ⟨-, -, opened⟩ := active (some 1000) (by decide +kernel)
  obtain ⟨pending, reported, -⟩ := opened rfl
  exact ⟨pending, (reported _).trans (by decide +kernel), (reported _).trans (by decide +kernel)⟩

end World

end Rehearsal

end PolicyWarden
