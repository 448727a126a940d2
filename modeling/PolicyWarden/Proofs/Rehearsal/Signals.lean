import Mathlib.Tactic.Common
import PolicyWarden.Proofs.Rehearsal.Promises
import PolicyWarden.Proofs.Timeline.Ageing

/-!
# Nobody waits on a raised signal

A signal is raised by an abort, by a timer that fires, and by nothing else; it stays raised, for the
reason that it was raised for.  Whoever waits when that happens is woken up at once.  So, whatever
happens and whatever is asked, those and only those of the waiting runs are freed whose signal is
raised by then (`Tracks`), and nobody waits on a signal that is up (`IsSound`).
-/

namespace PolicyWarden

/-! ### Signals along a timeline -/

namespace Timeline

variable {t u : Timeline} {number other : Nat} {reason : Failure} {millis : Int}

/-- The reason for which the signal of an invocation was raised. -/
def reason? (t : Timeline) (number : Nat) : Option Failure :=
  (t.invocation? number).bind Invocation.reason

/-- An abort raises one signal, unless it was raised before. -/
lemma reason?_abort (t : Timeline) (number other : Nat) (reason : Failure) :
    (t.abort number reason).reason? other =
      if other = number then (t.invocation? number).map fun i => i.reason.getD reason
      else t.reason? other := by
  by_cases own : number = other
  · subst own
    rw [if_pos rfl]
    cases found : t.invocations[number]? <;> simp [reason?, invocation?, abort, Invocation.abort, found]
  · rw [if_neg (Ne.symm own)]
    simp [reason?, invocation?, abort, own]

/-- The timers that are due are those of invocations whose time has come. -/
lemma mem_dueNumbers_iff :
    number ∈ t.dueNumbers ↔ ∃ i, t.invocation? number = some i ∧ isDue t.now i = true := by
  simp only [dueNumbers, List.mem_map, List.mem_mergeSort, List.mem_filter, Prod.exists,
    List.mem_zipIdx_iff_getElem?]
  constructor
  · rintro ⟨i, _, ⟨found, due⟩, rfl⟩
    exact ⟨i, found, due⟩
  · rintro ⟨i, found, due⟩
    exact ⟨i, number, ⟨found, due⟩, rfl⟩

/-- Timers that fire raise their signals, and no other signal is raised. -/
lemma reason?_advance :
    (t.advance millis).reason? number =
      (t.reason? number).or
        (if number ∈ (t.stall millis).dueNumbers then some timeoutReason else none) := by
  have present : (t.stall millis).invocation? number = t.invocations[number]? := rfl
  cases found : t.invocations[number]? with
  | none =>
    have idle : number ∉ (t.stall millis).dueNumbers := by
      rw [mem_dueNumbers_iff, present, found]
      simp
    rw [if_neg idle]
    simp [reason?, invocation?, advance, stall, found]
  | some i =>
    have fires : number ∈ (t.stall millis).dueNumbers ↔ isDue (t.stall millis).now i = true := by
      rw [mem_dueNumbers_iff, present, found]
      simp
    have after : (t.advance millis).reason? number = (fire (t.stall millis).now i).reason := by
      simp [reason?, invocation?, advance, stall, found]
    have before : t.reason? number = i.reason := by simp [reason?, invocation?, found]
    rw [after, before, fire]
    by_cases due : isDue (t.stall millis).now i = true
    · rw [if_pos due, if_pos (fires.mpr due)]
      cases raised : i.reason <;> simp [Invocation.abort, raised]
    · rw [if_neg due, if_neg (due ∘ fires.mp), Option.or_none]

/-- Opening an invocation raises no signal. -/
lemma reason?_openInvocation {timeout : Number} {offset : Int}
    (opened : t.openInvocation timeout offset = .ok u) : u.reason? number = t.reason? number := by
  cases accepted : readTimeout timeout with
  | error failure =>
    rw [openInvocation, accepted] at opened
    cases opened
  | ok millis =>
    rw [openInvocation_of_readTimeout accepted] at opened
    cases opened
    rcases Nat.lt_trichotomy number t.invocations.length with inside | rfl | outside
    · simp [reason?, invocation?, List.getElem?_append_left inside]
    · simp [reason?, invocation?, Timeline.opened]
    · have beyond : ∀ i, (t.invocations ++ [i])[number]? = none := by
        intro i
        rw [List.getElem?_eq_none]
        simp
        omega
      simp [reason?, invocation?, beyond, List.getElem?_eq_none (Nat.le_of_lt outside)]

/-- The newest invocation is one. -/
lemma exists_of_newest? (newest : t.newest? = some number) :
    ∃ i, t.invocation? number = some i := by
  unfold newest? at newest
  split at newest
  · cases newest
  · rename_i present
    cases newest
    have positive : 0 < t.invocations.length := by
      rw [List.length_pos_iff]
      simpa using present
    exact ⟨_, List.getElem?_eq_getElem (Nat.sub_one_lt_of_lt positive)⟩

end Timeline

namespace Rehearsal

namespace World

variable {w v u : World} {run : Run} {reason : Failure}

/-- The signal of a run is the one of its invocation. -/
lemma raised?_eq (w : World) (run : Run) :
    w.raised? run = run.invocation.bind w.timeline.reason? :=
  Option.bind_assoc _ _ _

/-- The same signals are up where the same are up for each invocation. -/
lemma raised?_congr (same : ∀ number, v.timeline.reason? number = w.timeline.reason? number)
    (run : Run) : v.raised? run = w.raised? run := by
  rw [raised?_eq, raised?_eq]
  congr 1
  exact funext same

/-- After an abort the runs of one invocation have its reason, unless they had one before. -/
lemma raised?_abort (w : World) (number : Nat) (reason : Failure) (run : Run) :
    ({ w with timeline := w.timeline.abort number reason } : World).raised? run =
      if run.invocation = some number then
        (w.timeline.invocation? number).map fun i => i.reason.getD reason
      else w.raised? run := by
  rw [raised?_eq, raised?_eq]
  cases run.invocation with
  | none => rfl
  | some other =>
    simp only [Option.bind_some, Option.some.injEq]
    exact w.timeline.reason?_abort number other reason

/-- After some time the runs of those invocations have a reason whose timers were due, unless they
had one before. -/
lemma raised?_advance (w : World) (millis : Int) (run : Run) :
    (w.advance millis).raised? run =
      (w.raised? run).or
        (if ∃ number ∈ (w.timeline.stall millis).dueNumbers, run.invocation = some number then
          some timeoutReason
        else none) := by
  rw [raised?_eq, raised?_eq, timeline_advance]
  cases run.invocation with
  | none => simp
  | some number =>
    rw [Option.bind_some, Option.bind_some, Timeline.reason?_advance]
    simp

/-! ### Following the signals -/

/-- The report that a waiting run gets as soon as its signal is up. -/
def overtaking (v : World) (x : Waiting) : Option Report :=
  (v.raised? x.run).bind x.overtaken?

/-- Nobody is overtaken whose signal is down. -/
lemma overtaking_of_down {x : Waiting} (down : v.raised? x.run = none) : v.overtaking x = none := by
  rw [overtaking, down, Option.bind_none]

/-- Whoever is overtaken is so for the reason of the signal. -/
lemma overtaking_of_raised {x : Waiting} (raised : v.raised? x.run = some reason) :
    v.overtaking x = x.overtaken? reason := by
  rw [overtaking, raised, Option.bind_some]

/-- The same runs are overtaken where the same signals are up. -/
lemma overtaking_congr (same : ∀ number, v.timeline.reason? number = w.timeline.reason? number) :
    v.overtaking = w.overtaking := by
  funext x
  rw [overtaking, overtaking, raised?_congr same]

/-- Between two worlds signals that were up stay up, and those waiting runs were freed whose signal
is up in the second world. -/
structure Tracks (w v : World) : Prop where
  keeps : ∀ run reason, w.raised? run = some reason → v.raised? run = some reason
  frees : w.Frees v.overtaking v

/-- Following the signals to one world and on to another one is following them to the last. -/
lemma Tracks.trans (first : w.Tracks v) (second : v.Tracks u) : w.Tracks u where
  keeps run reason raised := second.keeps run reason (first.keeps run reason raised)
  frees := by
    refine (first.frees.trans second.frees).congr fun x _ => ?_
    cases raised : v.raised? x.run with
    | none => rw [overtaking_of_down raised, Option.none_or]
    | some reason =>
      rw [overtaking_of_raised raised, overtaking_of_raised (second.keeps x.run reason raised),
        Option.or_self]

/-- All tickets of a world: those of its promises, and those of the runs that wait. -/
def tickets (w : World) : List Nat :=
  w.promises.map Prod.fst ++ w.waiting.map (·.run.ticket)

/-- Nobody waits on a signal that is up; everyone who waits yields, and everyone who is awake winds
up; and each ticket was issued once. -/
structure IsSound (w : World) : Prop where
  down : ∀ x ∈ w.waiting, w.raised? x.run = none
  yields : ∀ x ∈ w.waiting, x.Yields
  winding : w.IsWinding
  nodup : w.tickets.Nodup
  issued : ∀ ticket ∈ w.tickets, ticket < w.pendings

/-- Freed runs hand their tickets over to their reports. -/
lemma Frees.tickets_perm {f : Waiting → Option Report} (frees : w.Frees f v) :
    v.tickets.Perm w.tickets := by
  unfold tickets
  refine ((frees.promises.map Prod.fst).append_right _).trans ?_
  rw [List.map_append, frees.waiting, List.append_assoc]
  exact (Rehearsal.tickets_perm f w.waiting).append_left _

/-- Whoever is freed gives up waiting, and the others wait as before. -/
lemma IsSound.of_frees (sound : w.IsSound) {f : Waiting → Option Report} (frees : w.Frees f v)
    (down : ∀ x ∈ w.waiting, f x = none → v.raised? x.run = none) : v.IsSound where
  down x mem := by
    rw [frees.waiting] at mem
    obtain ⟨waits, none⟩ := mem_kept_iff.mp mem
    exact down x waits none
  yields x mem := by
    rw [frees.waiting] at mem
    exact sound.yields x (mem_kept_iff.mp mem).1
  winding := frees.winding sound.winding
  nodup := frees.tickets_perm.nodup_iff.mpr sound.nodup
  issued ticket mem := by
    rw [frees.pendings]
    exact sound.issued ticket (frees.tickets_perm.mem_iff.mp mem)

/-- A world stays sound if its signals are followed. -/
lemma IsSound.of_tracks (sound : w.IsSound) (tracks : w.Tracks v) : v.IsSound := by
  refine sound.of_frees tracks.frees fun x waits none => ?_
  cases raised : v.raised? x.run with
  | none => rfl
  | some reason =>
    obtain ⟨report, overtaken⟩ := (sound.yields x waits).exists_overtaken reason
    rw [overtaking_of_raised raised, overtaken] at none
    cases none

/-- The signals are followed where nothing changes for those who wait or are awake. -/
lemma IsSound.tracks_of_eq (sound : w.IsSound) (waiting : v.waiting = w.waiting)
    (awake : v.awake = w.awake) (reports : v.reports = w.reports)
    (pendings : v.pendings = w.pendings) (gateway : v.gateway = w.gateway)
    (signals : ∀ number, v.timeline.reason? number = w.timeline.reason? number) : w.Tracks v where
  keeps run reason raised := by rwa [raised?_congr signals]
  frees := by
    refine (frees_none waiting awake reports pendings gateway).congr fun x waits => ?_
    rw [overtaking_congr signals, overtaking_of_down (sound.down x waits)]

/-- The signals are followed by staying where one is. -/
lemma IsSound.tracks_refl (sound : w.IsSound) : w.Tracks w :=
  sound.tracks_of_eq rfl rfl rfl rfl rfl fun _ => rfl

/-! ### Raising signals -/

/-- Waking up the runs of an invocation frees them. -/
lemma frees_wakeInvocation (yields : ∀ x ∈ w.waiting, x.Yields) (reason : Failure)
    (number : Nat) :
    w.Frees (fun x => if x.run.invocation = some number then x.overtaken? reason else none)
      (w.wakeInvocation reason number) :=
  (frees_wake yields _ isLastWord_of_abortReply?).congr fun x _ => by
    simp [Waiting.overtaken?]

/-- Waking up the runs of several invocations frees them. -/
lemma frees_foldl_wakeInvocation (yields : ∀ x ∈ w.waiting, x.Yields) (reason : Failure)
    (numbers : List Nat) :
    w.Frees
      (fun x => if ∃ number ∈ numbers, x.run.invocation = some number then x.overtaken? reason
        else none)
      (numbers.foldl (wakeInvocation reason) w) := by
  induction numbers generalizing w with
  | nil => exact (frees_none rfl rfl rfl rfl rfl).congr fun x _ => by simp
  | cons number numbers ih =>
    have woken := frees_wakeInvocation yields reason number
    have still : ∀ x ∈ (w.wakeInvocation reason number).waiting, x.Yields := by
      intro x mem
      rw [woken.waiting] at mem
      exact yields x (mem_kept_iff.mp mem).1
    refine (woken.trans (ih still)).congr fun x _ => ?_
    by_cases own : x.run.invocation = some number
    · cases x.overtaken? reason <;> simp [own]
    · simp [own]

/-- The signals are followed through an abort of the newest invocation. -/
lemma IsSound.tracks_abortNewest (sound : w.IsSound) (reason : Failure) :
    w.Tracks (w.abortNewest reason) := by
  unfold abortNewest
  cases newest : w.timeline.newest? with
  | none => exact sound.tracks_refl
  | some number =>
    let aborted : World := { w with timeline := w.timeline.abort number reason }
    obtain ⟨i, found⟩ := Timeline.exists_of_newest? newest
    dsimp only
    rw [found, Option.any_some]
    cases before : i.reason with
    | some first =>
      -- The signal is up already, so nobody waits on it and nothing is raised.
      rw [if_pos (by rw [Invocation.aborted, before]; rfl)]
      refine sound.tracks_of_eq rfl rfl rfl rfl rfl fun other => ?_
      show (w.timeline.abort number reason).reason? other = _
      rw [Timeline.reason?_abort]
      split
      · subst other
        simp [Timeline.reason?, found, before]
      · rfl
    | none =>
      rw [if_neg (by rw [Invocation.aborted, before]; simp)]
      have raised (run : Run) : (aborted.wakeInvocation reason number).raised? run =
          if run.invocation = some number then some reason else w.raised? run := by
        have after := w.raised?_abort number reason run
        rwa [found, Option.map_some, before, Option.getD_none] at after
      constructor
      · intro run first was
        rw [raised]
        split
        · rename_i own
          rw [raised?_eq, own, Option.bind_some, Timeline.reason?, found, Option.bind_some,
            before] at was
          cases was
        · exact was
      · have woken := frees_wakeInvocation (w := aborted) sound.yields reason number
        have freed : w.Frees
            (fun x => if x.run.invocation = some number then x.overtaken? reason else none)
            (aborted.wakeInvocation reason number) :=
          ⟨woken.waiting, woken.promises, woken.winding, woken.pendings, woken.gateway⟩
        refine freed.congr fun x waits => ?_
        rw [overtaking, raised]
        split
        · rfl
        · rw [sound.down x waits, Option.bind_none]

/-- The signals are followed while time passes and timers fire. -/
lemma IsSound.tracks_advance (sound : w.IsSound) (millis : Int) : w.Tracks (w.advance millis) := by
  let later : World := { w with timeline := w.timeline.advance millis }
  let due := (w.timeline.stall millis).dueNumbers
  constructor
  · intro run reason was
    rw [raised?_advance, was, Option.some_or]
  · have woken := frees_foldl_wakeInvocation (w := later) sound.yields timeoutReason due
    have freed : w.Frees
        (fun x => if ∃ number ∈ due, x.run.invocation = some number then
          x.overtaken? timeoutReason else none) (w.advance millis) :=
      ⟨woken.waiting, woken.promises, woken.winding, woken.pendings, woken.gateway⟩
    refine freed.congr fun x waits => ?_
    rw [overtaking, raised?_advance, sound.down x waits, Option.none_or]
    split <;> rfl

/-- The signals are followed whatever happens. -/
lemma IsSound.tracks_act (sound : w.IsSound) (action : Action) : w.Tracks (w.act action) := by
  cases action with
  | advance millis => exact sound.tracks_advance millis
  | abort reason => exact sound.tracks_abortNewest (abortReason reason)
  | _ => exact sound.tracks_of_eq rfl rfl rfl rfl rfl fun _ => rfl

/-- The signals are followed whatever happens one after another. -/
lemma IsSound.tracks_actAll (sound : w.IsSound) (actions : List Action) :
    w.Tracks (w.actAll actions) := by
  induction actions generalizing w with
  | nil => exact sound.tracks_refl
  | cons action actions ih =>
    have first := sound.tracks_act action
    exact first.trans (ih (sound.of_tracks first))

/-! ### Answering queries -/

/-- The signals are followed through what happens after a reading. -/
lemma IsSound.tracks_afterRead (sound : w.IsSound) : w.Tracks w.afterRead := by
  have first : w.Tracks { w with desk := { w.desk with afterRead := w.desk.afterRead.tail } } :=
    sound.tracks_of_eq rfl rfl rfl rfl rfl fun _ => rfl
  exact first.trans ((sound.of_tracks first).tracks_actAll _)

/-- The signals are followed through what happens before a write is looked at. -/
lemma IsSound.tracks_atCheck (sound : w.IsSound) (write : RecordedWrite) :
    w.Tracks (w.atCheck write) := by
  have first : w.Tracks { (w.counted .write).noteWrite write with
      desk := { ((w.counted .write).noteWrite write).desk with
        beforeWrite := w.desk.beforeWrite.tail } } :=
    sound.tracks_of_eq rfl rfl rfl rfl rfl fun _ => rfl
  exact first.trans ((sound.of_tracks first).tracks_actAll _)

/-- The signals are followed while a script is followed. -/
lemma IsSound.tracks_perform (sound : w.IsSound) {σ : Type} (script : Option (Script σ)) :
    w.Tracks (w.perform run script).world := by
  cases script with
  | none => exact sound.tracks_refl
  | some script => exact sound.tracks_actAll script.during

/-- The signals are followed while an invocation is opened. -/
lemma IsSound.tracks_invoke (sound : w.IsSound) (timeout : Number) :
    w.Tracks (w.invoke timeout).1 := by
  unfold invoke
  split
  · rename_i timeline opened
    exact sound.tracks_of_eq rfl rfl rfl rfl rfl fun _ => Timeline.reason?_openInvocation opened
  · exact sound.tracks_refl

/-- The signals are followed while a query is answered. -/
lemma IsSound.tracks_answer (sound : w.IsSound) (query : Query) :
    w.Tracks (w.answer run query).world := by
  have counted (operation : Operation) : w.Tracks (w.counted operation) :=
    sound.tracks_of_eq rfl rfl rfl rfl rfl fun _ => rfl
  cases query with
  | policy resource =>
    show w.Tracks (w.deskPolicy run resource).1
    rcases deskPolicy_cases w run resource with ⟨failure, -, eq⟩ | ⟨-, eq⟩ <;> rw [eq]
    · exact counted .policy
    · exact (counted .policy).trans (sound.of_tracks (counted .policy)).tracks_afterRead
  | write resource policy version =>
    have check := sound.tracks_atCheck ⟨resource, policy, version⟩
    show w.Tracks (w.deskWrite run resource policy version).1
    rcases deskWrite_cases w run resource policy version with
      ⟨failure, -, eq⟩ | ⟨-, ⟨-, eq⟩ | ⟨-, eq⟩⟩ <;> rw [eq]
    · exact counted .write
    · exact check.trans ((sound.of_tracks check).tracks_of_eq rfl rfl rfl rfl rfl fun _ => rfl)
    · exact check
  | organization id =>
    show w.Tracks (w.deskOrganization run id).1
    rw [deskOrganization_fst]
    exact counted .organization
  | call call timeout =>
    have served (service : ServiceDesk) :
        w.Tracks { w.noteCall call timeout with service := service } :=
      sound.tracks_of_eq rfl rfl rfl rfl rfl fun _ => rfl
    cases call <;>
      exact (served _).trans ((sound.of_tracks (served _)).tracks_perform _)
  | errand timeout =>
    have performed : w.Tracks (w.perform run run.errand).world := sound.tracks_perform _
    show w.Tracks (w.runErrand run).world
    unfold runErrand
    dsimp only
    split
    · exact performed
    · exact performed
    · exact performed.trans
        ((sound.of_tracks performed).tracks_of_eq rfl rfl rfl rfl rfl fun _ => rfl)
  | invoke timeout => exact sound.tracks_invoke timeout
  | _ => exact sound.tracks_of_eq rfl rfl rfl rfl rfl fun _ => rfl

end World

end Rehearsal

end PolicyWarden
