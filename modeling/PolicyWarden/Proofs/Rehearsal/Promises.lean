import Mathlib.Data.List.Basic
import Mathlib.Tactic.Common
import PolicyWarden.Proofs.Dialogue.WindingUp
import PolicyWarden.Proofs.Rehearsal.Account

/-!
# Signals and promises

A run that waits is woken up by a last word only: the signal of its invocation is raised, or its
errand is told to settle.  From then on it winds up, so the world has promised its report before it
makes it.  `World.promises` lists the reports that were made and those that were promised, each with
the ticket of its run.

`World.Frees` says which of the waiting runs have been woken up between two worlds, and that just
their reports were promised.  Whatever happens, and whatever is asked, exactly those runs are freed
whose signal has been raised by then (`IsSound.tracks_act`, `IsSound.tracks_answer`), so that nobody
waits on a signal that is up (`IsSound`).
-/

namespace PolicyWarden

namespace Rehearsal

/-- The number under which a run is reported. -/
def Run.ticket (run : Run) : Nat :=
  run.pending.getD 0

/-! ### Waiting runs -/

namespace Waiting

/-- The report of a waiting run that gets a reply and winds up on it. -/
def reportAfter? (x : Waiting) (reply? : (query : Query) → Option query.Reply) : Option Report :=
  (reply? x.query).bind fun reply => (x.next reply).windUp?

/-- The report of a waiting run whose signal is raised. -/
def overtaken? (x : Waiting) (reason : Failure) : Option Report :=
  x.reportAfter? (World.abortReply? reason)

/-- The report of a waiting run whose errand is told to settle. -/
def told? (x : Waiting) (result : Except Failure (Option Json)) : Option Report :=
  x.reportAfter? (World.settleReply? result)

/-- The run waits for a call or an errand, and winds up on every last word. -/
structure Yields (x : Waiting) : Prop where
  waits : x.query.isPrompt = false
  winds : ∀ reply, x.query.IsLastWord reply → ∃ report, (x.next reply).windUp? = some report

variable {x : Waiting}

/-- A run that yields has a report after every last word. -/
lemma Yields.isSome_reportAfter? (yields : x.Yields)
    {reply? : (query : Query) → Option query.Reply}
    (lasts : ∀ query reply, reply? query = some reply → query.IsLastWord reply) :
    (x.reportAfter? reply?).isSome = (reply? x.query).isSome := by
  unfold reportAfter?
  cases replied : reply? x.query with
  | none => rfl
  | some reply =>
    obtain ⟨report, winds⟩ := yields.winds reply (lasts x.query reply replied)
    rw [Option.bind_some, winds]
    rfl

end Waiting

namespace World

/-- An abort is a last word. -/
lemma isLastWord_of_abortReply? {reason : Failure} (query : Query) (reply : query.Reply)
    (replied : abortReply? reason query = some reply) : query.IsLastWord reply := by
  cases query with
  | call call timeout =>
    cases replied
    exact ⟨reason, rfl⟩
  | errand timeout => trivial
  | _ => cases replied

/-- That an errand settles is a last word. -/
lemma isLastWord_of_settleReply? {result : Except Failure (Option Json)} (query : Query)
    (reply : query.Reply) (replied : settleReply? result query = some reply) :
    query.IsLastWord reply := by
  cases query with
  | errand timeout => trivial
  | _ => cases replied

end World

/-- A run that yields has a report for every abort. -/
lemma Waiting.Yields.exists_overtaken {x : Waiting} (yields : x.Yields) (reason : Failure) :
    ∃ report, x.overtaken? reason = some report := by
  have replied : (World.abortReply? reason x.query).isSome = true := by
    have waits := yields.waits
    cases query : x.query with
    | call call timeout => rfl
    | errand timeout => rfl
    | _ =>
      rw [query] at waits
      cases waits
  rw [← yields.isSome_reportAfter? World.isLastWord_of_abortReply?] at replied
  exact Option.isSome_iff_exists.mp replied

/-! ### Freeing -/

section Lists

variable {f g : Waiting → Option Report}

/-- The reports of those among some waiting runs that have one. -/
def granted (f : Waiting → Option Report) (xs : List Waiting) : List (Nat × Report) :=
  xs.filterMap fun x => (f x).map fun report => (x.run.ticket, report)

/-- Those among some waiting runs that have no report. -/
def kept (f : Waiting → Option Report) (xs : List Waiting) : List Waiting :=
  xs.filter fun x => (f x).isNone

/-- Reports are granted to a first run, or the run is kept. -/
lemma granted_kept_cons (f : Waiting → Option Report) (x : Waiting) (xs : List Waiting) :
    (∃ report, f x = some report ∧ granted f (x :: xs) = (x.run.ticket, report) :: granted f xs ∧
        kept f (x :: xs) = kept f xs) ∨
      f x = none ∧ granted f (x :: xs) = granted f xs ∧ kept f (x :: xs) = x :: kept f xs := by
  cases h : f x with
  | some report => exact .inl ⟨report, rfl, by simp [granted, h], by simp [kept, h]⟩
  | none => exact .inr ⟨rfl, by simp [granted, h], by simp [kept, h]⟩

/-- A run is kept if it was there and has no report. -/
lemma mem_kept_iff {x : Waiting} {xs : List Waiting} : x ∈ kept f xs ↔ x ∈ xs ∧ f x = none := by
  rw [kept, List.mem_filter, Option.isNone_iff_eq_none]

/-- Each ticket belongs to a report or to a run that is kept. -/
lemma tickets_perm (f : Waiting → Option Report) (xs : List Waiting) :
    ((granted f xs).map Prod.fst ++ (kept f xs).map (·.run.ticket)).Perm
      (xs.map (·.run.ticket)) := by
  induction xs with
  | nil => exact .nil
  | cons x xs ih =>
    rcases granted_kept_cons f x xs with ⟨report, -, grants, keeps⟩ | ⟨-, grants, keeps⟩
    · rw [grants, keeps]
      exact ih.cons x.run.ticket
    · rw [grants, keeps, List.map_cons]
      exact List.perm_middle.trans (ih.cons x.run.ticket)

/-- Two times of granting come to one. -/
lemma granted_or_perm (f g : Waiting → Option Report) (xs : List Waiting) :
    (granted f xs ++ granted g (kept f xs)).Perm (granted (fun x => (f x).or (g x)) xs) := by
  induction xs with
  | nil => exact .nil
  | cons x xs ih =>
    rcases granted_kept_cons f x xs with ⟨report, has, grants, keeps⟩ | ⟨lacks, grants, keeps⟩
    · have both : granted (fun x => (f x).or (g x)) (x :: xs) =
          (x.run.ticket, report) :: granted (fun x => (f x).or (g x)) xs := by
        simp [granted, has]
      rw [grants, keeps, both]
      exact ih.cons _
    · rw [grants, keeps]
      rcases granted_kept_cons g x (kept f xs) with ⟨report, has, later, -⟩ | ⟨none, later, -⟩
      · have both : granted (fun x => (f x).or (g x)) (x :: xs) =
            (x.run.ticket, report) :: granted (fun x => (f x).or (g x)) xs := by
          simp [granted, lacks, has]
        rw [later, both]
        exact List.perm_middle.trans (ih.cons _)
      · have both : granted (fun x => (f x).or (g x)) (x :: xs) =
            granted (fun x => (f x).or (g x)) xs := by
          simp [granted, lacks, none]
        rw [later, both]
        exact ih

/-- Two times of keeping come to one. -/
lemma kept_or (f g : Waiting → Option Report) (xs : List Waiting) :
    kept g (kept f xs) = kept (fun x => (f x).or (g x)) xs := by
  rw [kept, kept, kept, List.filter_filter]
  refine List.filter_congr fun x _ => ?_
  cases f x <;> simp

/-- What is granted and kept depends on the reports of the runs that are there. -/
lemma granted_kept_congr {xs : List Waiting} (same : ∀ x ∈ xs, f x = g x) :
    granted f xs = granted g xs ∧ kept f xs = kept g xs := by
  refine ⟨List.filterMap_congr fun x mem => ?_, List.filter_congr fun x mem => ?_⟩
  · rw [same x mem]
  · rw [same x mem]

/-- Without reports all runs are kept. -/
lemma granted_kept_none (xs : List Waiting) :
    granted (fun _ => none) xs = [] ∧ kept (fun _ => none) xs = xs :=
  ⟨by simp [granted], by simp [kept]⟩

end Lists

namespace World

/-! ### Promises -/

/-- The reports that were made and those that are settled, each with the ticket of its run. -/
def promises (w : World) : List (Nat × Report) :=
  w.reports ++
    w.awake.filterMap fun a => a.dialogue.windUp?.map fun report => (a.run.ticket, report)

/-- Everyone who is awake winds up. -/
def IsWinding (w : World) : Prop :=
  ∀ a ∈ w.awake, ∃ report, a.dialogue.windUp? = some report

variable {w v u : World} {run : Run} {f g : Waiting → Option Report}

/-- Between two worlds those waiting runs were woken up that have a report, and their reports were
promised. -/
structure Frees (f : Waiting → Option Report) (w v : World) : Prop where
  waiting : v.waiting = kept f w.waiting
  promises : v.promises.Perm (w.promises ++ granted f w.waiting)
  winding : w.IsWinding → v.IsWinding
  pendings : v.pendings = w.pendings
  gateway : v.gateway = w.gateway

/-- Nobody is freed where nothing changes for those who wait or are awake. -/
lemma frees_none (waiting : v.waiting = w.waiting) (awake : v.awake = w.awake)
    (reports : v.reports = w.reports) (pendings : v.pendings = w.pendings)
    (gateway : v.gateway = w.gateway) : w.Frees (fun _ => none) v where
  waiting := by rw [waiting, (granted_kept_none _).2]
  promises := by rw [World.promises, World.promises, awake, reports, (granted_kept_none _).1,
    List.append_nil]
  winding := by
    intro winding
    rwa [IsWinding, awake]
  pendings := pendings
  gateway := gateway

/-- Freeing some runs and then others is freeing both. -/
lemma Frees.trans (first : w.Frees f v) (second : v.Frees g u) :
    w.Frees (fun x => (f x).or (g x)) u where
  waiting := by rw [second.waiting, first.waiting, kept_or]
  promises := by
    refine second.promises.trans ((first.promises.append_right _).trans ?_)
    rw [first.waiting, List.append_assoc]
    exact (granted_or_perm f g w.waiting).append_left _
  winding := fun winding => second.winding (first.winding winding)
  pendings := second.pendings.trans first.pendings
  gateway := second.gateway.trans first.gateway

/-- Who is freed depends on the reports of those who wait. -/
lemma Frees.congr (frees : w.Frees f v) (same : ∀ x ∈ w.waiting, f x = g x) : w.Frees g v where
  waiting := by rw [frees.waiting, (granted_kept_congr same).2]
  promises := by
    rw [← (granted_kept_congr same).1]
    exact frees.promises
  winding := frees.winding
  pendings := frees.pendings
  gateway := frees.gateway

/-- Waking runs up by a last word frees them. -/
lemma frees_wake (yields : ∀ x ∈ w.waiting, x.Yields) (chosen : Run → Bool)
    {reply? : (query : Query) → Option query.Reply}
    (lasts : ∀ query reply, reply? query = some reply → query.IsLastWord reply) :
    w.Frees (fun x => if chosen x.run then x.reportAfter? reply? else none)
      (w.wake chosen reply?) where
  waiting := by
    refine List.filter_congr fun x mem => ?_
    have wakes := (yields x mem).isSome_reportAfter? lasts
    by_cases chosen : chosen x.run = true
    · simp [chosen, ← wakes]
    · simp [chosen]
  promises := by
    rw [World.promises, World.promises, wake, List.filterMap_append, List.filterMap_filterMap,
      ← List.append_assoc]
    refine List.Perm.append_left _ (List.Perm.of_eq (List.filterMap_congr fun x _ => ?_))
    by_cases chosen : chosen x.run = true
    · cases replied : reply? x.query <;> simp [Waiting.reportAfter?, replied, chosen]
    · simp [chosen]
  winding := by
    intro winding a mem
    rcases List.mem_append.mp mem with earlier | woken
    · exact winding a earlier
    · obtain ⟨x, waits, woke⟩ := List.mem_filterMap.mp woken
      split at woke
      · obtain ⟨reply, replied, rfl⟩ := Option.map_eq_some_iff.mp woke
        exact (yields x waits).winds reply (lasts x.query reply replied)
      · cases woke
  pendings := rfl
  gateway := rfl

end World

end Rehearsal

end PolicyWarden
