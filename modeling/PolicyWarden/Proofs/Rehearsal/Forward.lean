import Mathlib.Tactic.Common
import PolicyWarden.Proofs.Rehearsal.Account
import PolicyWarden.Proofs.Rehearsal.Walk

/-!
# Rehearsals that only go forward

In a rehearsal the actions of others may set the clock back.  As long as they do not, a world only
ages while a query is answered (`ages_answer_of_forward`), so that a run which has the world to
itself is a walk through it (`reaches_of_alone`): whatever is shown of all walks is shown of it.
-/

namespace PolicyWarden

namespace Rehearsal

/-- The action does not set the clock back. -/
def Action.IsForward : Action → Prop
  | .advance millis | .stall millis => 0 ≤ millis
  | _ => True

/-- No action of others among the deeds sets the clock back. -/
def Deed.AreForward (deeds : List Deed) : Prop :=
  ∀ action, others action ∈ deeds → action.IsForward

/-- Deeds go forward if the first ones and the others do. -/
lemma Deed.areForward_append {deeds more : List Deed} :
    AreForward (deeds ++ more) ↔ AreForward deeds ∧ AreForward more := by
  simp [AreForward, or_imp, forall_and]

/-- The actions of others go forward if each of them does. -/
lemma Deed.areForward_map_others {actions : List Action} :
    AreForward (actions.map others) ↔ ∀ action ∈ actions, action.IsForward := by
  simp [AreForward]

namespace World

variable {w v : World} {run : Run}

/-! ### Actions -/

/-- An abort ages the world. -/
lemma ages_abortNewest (w : World) (reason : Failure) : w.Ages (w.abortNewest reason) := by
  unfold abortNewest
  split
  · rename_i number _
    have aborted : w.Ages { w with timeline := w.timeline.abort number reason } :=
      ⟨w.timeline.ages_abort number reason, rfl, rfl⟩
    split
    · exact aborted
    · exact aborted.trans ⟨.refl _, rfl, rfl⟩
  · exact .refl w

/-- An action ages the world unless it sets the clock back. -/
lemma ages_act {action : Action} (forward : action.IsForward) : w.Ages (w.act action) := by
  cases action with
  | advance millis =>
    obtain ⟨waiting, awake, later⟩ := w.exists_advance millis
    show w.Ages (w.advance millis)
    rw [later]
    exact ⟨w.timeline.ages_advance forward, rfl, rfl⟩
  | stall millis => exact ⟨w.timeline.ages_stall forward, rfl, rfl⟩
  | abort reason => exact w.ages_abortNewest _
  | _ => exact ⟨.refl w.timeline, rfl, rfl⟩

/-- Several actions age the world unless one of them sets the clock back. -/
lemma ages_actAll {actions : List Action} (forward : ∀ action ∈ actions, action.IsForward) :
    w.Ages (w.actAll actions) := by
  induction actions generalizing w with
  | nil => exact .refl w
  | cons action actions ih =>
    obtain ⟨first, others⟩ := List.forall_mem_cons.mp forward
    exact (ages_act first).trans (ih others)

/-! ### Queries -/

/-- A script that is followed ages the world unless it sets the clock back. -/
lemma ages_perform {σ : Type} {script : Option (Script σ)}
    (forward : Deed.AreForward (scriptDeeds script)) :
    w.Ages (w.perform run script).world := by
  cases script with
  | none => exact .refl w
  | some script => exact ages_actAll (Deed.areForward_map_others.mp forward)

/-- A reading ages the world unless somebody sets the clock back after it. -/
lemma ages_deskPolicy {resource : Text}
    (forward : Deed.AreForward (w.readingDeeds run resource)) :
    w.Ages (w.deskPolicy run resource).1 := by
  unfold readingDeeds at forward
  rcases deskPolicy_cases w run resource with ⟨failure, refused, eq⟩ | ⟨letIn, eq⟩
  · rw [eq]
    exact ⟨.refl w.timeline, rfl, rfl⟩
  · rw [letIn] at forward
    rw [eq]
    have counted : w.Ages { w with desk := { (w.counted .policy).desk with
        afterRead := w.desk.afterRead.tail } } := ⟨.refl w.timeline, rfl, rfl⟩
    exact counted.trans (ages_actAll (Deed.areForward_map_others.mp forward))

/-- A write ages the world unless somebody sets the clock back before it is looked at. -/
lemma ages_deskWrite {resource version : Text} {policy : Policy}
    (forward : Deed.AreForward (w.writingDeeds run resource policy version)) :
    w.Ages (w.deskWrite run resource policy version).1 := by
  unfold writingDeeds at forward
  have checked (letIn : w.refusal? run .write .writePolicy resource = none) :
      w.Ages (w.atCheck ⟨resource, policy, version⟩) := by
    rw [letIn] at forward
    obtain ⟨others, -⟩ := Deed.areForward_append.mp forward
    have noted : w.Ages { w with desk :=
        { ((w.counted .write).noteWrite ⟨resource, policy, version⟩).desk with
          beforeWrite := w.desk.beforeWrite.tail } } := ⟨.refl w.timeline, rfl, rfl⟩
    exact noted.trans (ages_actAll (Deed.areForward_map_others.mp others))
  rcases deskWrite_cases w run resource policy version with
    ⟨failure, -, eq⟩ | ⟨letIn, ⟨-, eq⟩ | ⟨-, eq⟩⟩
  · rw [eq]
    exact ⟨.refl w.timeline, rfl, rfl⟩
  · rw [eq]
    exact (checked letIn).trans ⟨.refl _, rfl, rfl⟩
  · rw [eq]
    exact checked letIn

/-- The world ages while a query is answered, unless somebody sets the clock back. -/
lemma ages_answer_of_forward {query : Query} (forward : Deed.AreForward (w.deeds run query)) :
    w.Ages (w.answer run query).world := by
  cases query with
  | policy resource => exact ages_deskPolicy forward
  | write resource policy version => exact ages_deskWrite forward
  | organization id =>
    show w.Ages (w.deskOrganization run id).1
    rw [deskOrganization_fst]
    exact ⟨.refl w.timeline, rfl, rfl⟩
  | call call timeout =>
    have called (service : ServiceDesk) {σ : Type} {script : Option (Script σ)}
        (forward : Deed.AreForward (scriptDeeds script)) :
        w.Ages ({ w.noteCall call timeout with service := service }.perform run script).world := by
      have noted : w.Ages { w.noteCall call timeout with service := service } :=
        ⟨.refl w.timeline, rfl, rfl⟩
      exact noted.trans (ages_perform forward)
    cases call with
    | organization name => exact called _ forward
    | policy resource version => exact called _ forward
    | write request => exact called _ forward
  | errand timeout =>
    have performed : w.Ages (w.perform run run.errand).world := ages_perform forward
    show w.Ages (w.runErrand run).world
    unfold runErrand
    dsimp only
    split
    · exact performed
    · exact performed
    · exact performed.trans ⟨.refl _, rfl, rfl⟩
  | invoke timeout => exact (w.ages_invoke timeout).1
  | record _ | retain _ _ | release _ | settings | standing | configuration | pause =>
    exact ⟨.refl w.timeline, rfl, rfl⟩

/-- A run that awaits a reply keeps its invocation. -/
lemma run_answer_of_awaited {query : Query} (awaited : query.isAwaited = true) :
    (w.answer run query).run = run := by
  cases query with
  | call call timeout =>
    cases call with
    | organization _ | policy _ _ | write _ =>
      show (World.perform _ run _).run = run
      unfold perform
      split <;> rfl
  | errand timeout =>
    show (w.runErrand run).run = run
    unfold runErrand perform
    dsimp only
    cases run.errand <;> split <;> rfl
  | configuration | organization _ | policy _ | write _ _ _ | pause => rfl
  | _ => cases awaited

/-- A query that is not awaited is answered at once. -/
lemma progress_answer_of_present {query : Query} {reply : query.Reply}
    (present : query.isAwaited = false)
    (replied : (w.answer run query).progress.reply? = some reply) :
    (w.answer run query).progress = .now reply := by
  cases query with
  | record _ | retain _ _ | release _ | settings | invoke _ | standing =>
    exact congrArg Progress.now (Option.some.inj replied)
  | _ => cases present

end World

namespace Walk

open World

variable {α : Type} {w : World} {run : Run}

/-- A query that gets its reply is a step of a walk. -/
lemma step_of_answer {h : History} {query : Query} {next : query.Reply → Dialogue α}
    {reply : query.Reply} (replied : (w.answer run query).progress.reply? = some reply)
    (forward : Deed.AreForward (w.deeds run query)) :
    Step ⟨w, run, h, .ask query next⟩
      ⟨(w.answer run query).world, (w.answer run query).run, h ++ [⟨query, reply⟩],
        next reply⟩ := by
  cases awaited : query.isAwaited with
  | false => exact .present awaited (progress_answer_of_present awaited replied)
  | true =>
    rw [run_answer_of_awaited awaited]
    exact .awaited awaited reply (ages_answer_of_forward forward)

/-- A run that has the world to itself is a walk, from whatever it has heard before to its end. -/
lemma reaches_of_alone_after {d : Dialogue α} {value : α} (h : History)
    (reached : (alone d run w).value? = some value)
    (forward : Deed.AreForward (alone d run w).deeds) :
    (⟨w, run, h, d⟩ : Walk α).Reaches
      ⟨(alone d run w).world, (alone d run w).run, h ++ (alone d run w).history,
        .done value⟩ := by
  -- What was heard before stays general, since every exchange of the run is added to it.
  induction d generalizing run w h with
  | done first =>
    obtain rfl : first = value := Option.some.inj reached
    rw [alone, List.append_nil]
  | ask query next ih =>
    cases replied : (w.answer run query).progress.reply? with
    | none =>
      rw [alone_ask_of_waits replied] at reached
      cases reached
    | some reply =>
      rw [alone_ask replied] at reached forward ⊢
      obtain ⟨present, later⟩ := Deed.areForward_append.mp forward
      have onward := ih reply (h ++ [⟨query, reply⟩]) reached later
      rw [List.append_assoc] at onward
      exact .head (step_of_answer replied present) onward

/-- **Rehearsals are walks.**  A run that has the world to itself, while nobody sets the clock back,
walks from its beginning to its end. -/
theorem reaches_of_alone {d : Dialogue α} {value : α}
    (reached : (alone d run w).value? = some value)
    (forward : Deed.AreForward (alone d run w).deeds) :
    (setOut w run d).Reaches
      ⟨(alone d run w).world, (alone d run w).run, (alone d run w).history, .done value⟩ :=
  reaches_of_alone_after [] reached forward

/-- What a rehearsal asks between two moments on the calendar is asked by a walk at such a moment. -/
lemma exists_asks_of_alone {d : Dialogue α} {query : Query}
    (ends : (alone d run w).value?.isSome = true)
    (forward : Deed.AreForward (alone d run w).deeds)
    (made : query ∈ (alone d run w).history.map Exchange.query)
    (early : w.IsOnCalendar) (late : (alone d run w).world.IsOnCalendar) :
    ∃ c, (setOut w run d).Reaches c ∧ c.world.IsOnCalendar ∧ c.asks? = some query := by
  obtain ⟨value, reached⟩ := Option.isSome_iff_exists.mp ends
  obtain ⟨exchange, mem, rfl⟩ := List.mem_map.mp made
  obtain ⟨c, d, reach, step, after, -, asked⟩ :=
    exists_step_of_mem_heard (reaches_of_alone reached forward) mem
  exact ⟨c, reach, early.between late reach.ages (step.ages.trans after.ages), asked⟩

end Walk

end Rehearsal

end PolicyWarden
