import Mathlib.Tactic.Common
import PolicyWarden.Proofs.Rehearsal.Turns
import PolicyWarden.Rehearsal.Step

/-!
# Races over many steps

A run that waits at the end of a step goes on waiting until a later step raises the signal of its
invocation or tells its errand to settle.  Then it is reported once, in that very step, and never
again.  `Waiting.verdict?` says what one step decides, `World.fate` what a list of steps decides
first; `IsSettled.leaves_step` and `IsSettled.reportsOf_after` say that this is what happens.

A guarded question that is started is either answered in the same step or left waiting, with the
same account of what will become of it (`IsSettled.launch_guards`).
-/

namespace PolicyWarden

namespace Rehearsal

namespace World

variable {w v u : World} {run : Run} {report : Report} {f : Waiting → Option Report}

/-! ### What stays -/

/-- Between two worlds the reports of those who were freed came to be promised, the others went on
waiting, and no promise was taken back. -/
structure Leaves (f : Waiting → Option Report) (w v : World) : Prop where
  kept : ∀ x ∈ w.waiting, f x = none → x ∈ v.waiting
  granted : ∀ x ∈ w.waiting, ∀ report, f x = some report → (x.run.ticket, report) ∈ v.promises
  stays : ∀ entry ∈ w.promises, entry ∈ v.promises
  gateway : v.gateway = w.gateway

/-- Freeing leaves those who are not freed. -/
lemma Frees.leaves (frees : w.Frees f v) : w.Leaves f v where
  kept x waits none := by
    rw [frees.waiting]
    exact mem_kept_iff.mpr ⟨waits, none⟩
  granted x waits report has := by
    refine frees.promises.mem_iff.mpr (List.mem_append_right _ ?_)
    exact List.mem_filterMap.mpr ⟨x, waits, by rw [has]; rfl⟩
  stays entry mem := frees.promises.mem_iff.mpr (List.mem_append_left _ mem)
  gateway := frees.gateway

/-- What is left stays left while nobody is freed. -/
lemma Leaves.trans (first : w.Leaves f v) (second : v.Leaves (fun _ => none) u) : w.Leaves f u where
  kept x waits none := second.kept x (first.kept x waits none) rfl
  granted x waits report has := second.stays _ (first.granted x waits report has)
  stays entry mem := second.stays _ (first.stays entry mem)
  gateway := second.gateway.trans first.gateway

/-- Runs that wind up free nobody. -/
lemma Adds.leaves (adds : w.Adds [] v) : w.Leaves (fun _ => none) v where
  kept x waits _ := by
    rw [adds.rest]
    exact waits
  granted x waits report has := by cases has
  stays entry mem := adds.promises.mem_iff.mpr (List.mem_append_left _ mem)
  gateway := by rw [adds.rest]

/-- A run that has not waited before is left waiting under a new ticket. -/
lemma suspend_of_new {x : Waiting} (new : x.run.pending = none) (w : World) :
    w.suspend x =
      { w with
        waiting := w.waiting ++ [{ x with run := { x.run with pending := some w.pendings } }]
        pendings := w.pendings + 1 } := by
  rw [suspend, new]

/-- Leaving a run waiting frees nobody. -/
lemma leaves_suspend {x : Waiting} (new : x.run.pending = none) (w : World) :
    w.Leaves (fun _ => none) (w.suspend x) := by
  rw [suspend_of_new new]
  refine ⟨fun y waits _ => List.mem_append_left _ waits, fun y _ report has => ?_, fun _ => id, rfl⟩
  cases has

/-- A world stays sound when a run that yields is left waiting on a signal that is down. -/
lemma IsSound.sound_suspend (sound : w.IsSound) {x : Waiting} (new : x.run.pending = none)
    (down : w.raised? x.run = none) (yields : x.Yields) : (w.suspend x).IsSound := by
  have tickets : (w.suspend x).tickets = w.tickets ++ [w.pendings] := by
    rw [suspend_of_new new]
    simp [World.tickets, World.promises, Run.ticket]
  have unused : w.pendings ∉ w.tickets := fun mem =>
    Nat.lt_irrefl _ (sound.issued _ mem)
  constructor
  · intro y waits
    rw [suspend_of_new new] at waits ⊢
    rcases List.mem_append.mp waits with earlier | last
    · exact sound.down y earlier
    · rw [List.mem_singleton.mp last]
      exact down
  · intro y waits
    rw [suspend_of_new new] at waits
    rcases List.mem_append.mp waits with earlier | last
    · exact sound.yields y earlier
    · rw [List.mem_singleton.mp last]
      exact ⟨yields.waits, yields.winds⟩
  · rw [suspend_of_new new]
    exact sound.winding
  · rw [tickets]
    exact List.nodup_append.mpr ⟨sound.nodup, by simp, fun a mem b last => by
      rintro rfl
      exact unused (List.mem_singleton.mp last ▸ mem)⟩
  · intro ticket mem
    rw [tickets] at mem
    rw [suspend_of_new new]
    rcases List.mem_append.mp mem with earlier | last
    · exact Nat.lt_succ_of_lt (sound.issued ticket earlier)
    · rw [List.mem_singleton.mp last]
      exact Nat.lt_succ_self _

/-! ### Errands -/

/-- What an errand gives back in the end. -/
def errandReport (stage : Stage) (resource name : Option Text) (left : Option Nat)
    (ending : Ending (Option Json)) : Report :=
  (ending.told stage resource).map (errandAnswer name left)

/-- An errand is a guarded question. -/
lemma guards_errandDialogue (stage : Stage) (resource name : Option Text) :
    (errandDialogue stage resource name).Guards .errand
      (fun reason => .error (Deadline.exceeded stage resource reason))
      (fun left race => errandReport stage resource name left race.ending) := by
  refine ⟨_, rfl, fun reason => rfl, fun left => ⟨_, rfl, fun race => ?_⟩⟩
  refine (Deadline.windUp?_settle _).trans ?_
  cases race <;> rfl

/-! ### Between steps -/

/-- A world as it is between steps: sound, with nobody awake, and with a gateway that concedes. -/
structure IsSettled (w : World) : Prop where
  sound : w.IsSound
  rest : w.awake = []
  gateway : w.gateway.Concedes

/-- A world comes to rest after whatever freed those whose signals are up. -/
lemma IsSettled.comesToRest (settled : w.IsSettled) {u : World} (leaves : w.Leaves f u)
    (sound : u.IsSound) :
    u.settle.IsSettled ∧ w.Leaves f u.settle ∧ u.settle.timeline = u.timeline := by
  obtain ⟨adds, rest⟩ := adds_settle sound.winding
  have leaves := leaves.trans adds.leaves
  refine ⟨⟨sound.of_tracks (sound.tracks_of_adds adds), rest, ?_⟩, leaves, by rw [adds.rest]⟩
  rw [leaves.gateway]
  exact settled.gateway

/-- The world after a run was started that concedes: those who waited go on waiting, unless their
signals are up by then. -/
lemma IsSettled.leaves_start (settled : w.IsSettled) {d : Dialogue Report} {ends : Report → Prop}
    (concedes : d.Concedes ends) (new : run.pending = none) :
    (w.start run d).1.IsSettled ∧ w.Leaves (w.start run d).1.overtaking (w.start run d).1 := by
  have begun : w.Tracks { w with runs := w.runs + 1 } :=
    settled.sound.tracks_of_eq rfl rfl rfl rfl rfl fun _ => rfl
  obtain ⟨u, tracks, follows⟩ := (settled.sound.of_tracks begun).exists_follow
    { run with number := w.runs } concedes
  have tracks := begun.trans tracks
  have sound := settled.sound.of_tracks tracks
  have started : (w.start run d).1 =
      (follow World.settle d { run with number := w.runs } { w with runs := w.runs + 1 }).1.settle :=
    rfl
  rw [started]
  generalize follow World.settle d _ _ = came at follows
  cases follows with
  | reported report =>
    obtain ⟨rest, leaves, same⟩ := settled.comesToRest tracks.frees.leaves sound
    refine ⟨rest, ?_⟩
    rw [overtaking_congr fun number => congrArg (Timeline.reason? · number) same]
    exact leaves
  | waiting x number pending down yields =>
    have new : x.run.pending = none := pending.trans new
    obtain ⟨rest, leaves, same⟩ := settled.comesToRest (tracks.frees.leaves.trans (leaves_suspend new u))
      (sound.sound_suspend new down yields)
    refine ⟨rest, ?_⟩
    have timeline : (u.suspend x).settle.timeline = u.timeline := by rw [same, suspend_of_new new]
    rw [overtaking_congr fun number => congrArg (Timeline.reason? · number) timeline]
    exact leaves

/-! ### One step -/

/-- The result that a step tells the errand of a run to settle with. -/
def told? (w : World) (number : Nat) : Step → Option (Except Failure (Option Json))
  | .tell name result =>
      if (w.named.find? fun entry => entry.1 = name).any fun entry => entry.2 = number then
        some result
      else none
  | _ => none

end World

/-- What a step decides about a run that waits: it is told to settle, or its signal is raised. -/
def Waiting.verdict? (x : Waiting) (w : World) (s : Step) : Option Report :=
  ((w.told? x.run.number s).bind x.told?).or ((w.step s).1.overtaking x)

namespace World

variable {w v : World} {run : Run}

/-- Telling an errand to settle frees it. -/
lemma IsSettled.leaves_tell (settled : w.IsSettled) (name : Text)
    (result : Except Failure (Option Json)) :
    (w.tell name result).1.IsSettled ∧
      w.Leaves (fun x => x.verdict? w (.tell name result)) (w.tell name result).1 := by
  have verdict {x : Waiting} (waits : x ∈ w.waiting)
      (same : (w.tell name result).1.timeline = w.timeline) :
      x.verdict? w (.tell name result) = (w.told? x.run.number (.tell name result)).bind x.told? := by
    have signals : (w.tell name result).1.overtaking = w.overtaking :=
      overtaking_congr fun number => congrArg (Timeline.reason? · number) same
    rw [Waiting.verdict?, World.step, signals, overtaking_of_down (settled.sound.down x waits),
      Option.or_none]
  cases found : w.named.find? fun entry => entry.1 = name with
  | none =>
    have told : (w.tell name result).1 = w := by rw [World.tell, found]
    rw [told] at verdict ⊢
    refine ⟨settled, ((frees_none rfl rfl rfl rfl rfl).congr fun x waits => ?_).leaves⟩
    rw [verdict waits rfl, World.told?, found]
    rfl
  | some entry =>
    let woken := w.wake (fun run => run.number = entry.2) (settleReply? result)
    have told : (w.tell name result).1 = woken.settle := by rw [World.tell, found]
    rw [told] at verdict ⊢
    have lasts : ∀ query reply, settleReply? result query = some reply → query.IsLastWord reply :=
      isLastWord_of_settleReply?
    have frees := frees_wake settled.sound.yields (fun run => run.number = entry.2) lasts
    have sound : woken.IsSound :=
      settled.sound.of_frees frees fun x waits _ => settled.sound.down x waits
    have same : woken.settle.timeline = w.timeline := (settled.comesToRest frees.leaves sound).2.2
    have freed : w.Frees (fun x => x.verdict? w (.tell name result)) woken := by
      refine frees.congr fun x waits => ?_
      rw [verdict waits same, World.told?, found, Option.any_some]
      by_cases own : entry.2 = x.run.number
      · simp [own, Waiting.told?]
      · simp [own, Ne.symm own]
    obtain ⟨rest, leaves, -⟩ := settled.comesToRest freed.leaves sound
    exact ⟨rest, leaves⟩

/-- The world after a run was launched is the one after it was started. -/
lemma launch_fst (d : Dialogue Report) : (w.launch run d).1 = (w.start run d).1 := by
  unfold launch
  split <;> rename_i started <;> rw [started]

/-- **One step.**  After each step nobody waits on a signal that is up.  Whoever waited before and
was told to settle, or whose signal was raised, has been reported; whoever waited and was neither
told nor overtaken goes on waiting; and no report was taken back. -/
theorem IsSettled.leaves_step (settled : w.IsSettled) (s : Step) :
    (w.step s).1.IsSettled ∧ w.Leaves (fun x => x.verdict? w s) (w.step s).1 := by
  have quiet {v : World} (tracks : w.Tracks v) (rest : v.awake = []) :
      v.IsSettled ∧ w.Leaves v.overtaking v :=
    ⟨⟨settled.sound.of_tracks tracks, rest, tracks.frees.gateway ▸ settled.gateway⟩,
      tracks.frees.leaves⟩
  have started {d : Dialogue Report} {ends : Report → Prop} {run : Run}
      (concedes : d.Concedes ends) (new : run.pending = none) :
      (w.launch run d).1.IsSettled ∧ w.Leaves (w.launch run d).1.overtaking (w.launch run d).1 := by
    rw [launch_fst]
    exact settled.leaves_start concedes new
  have begun {α : Type} {a : Attempt α} {ends : Except Failure α → Prop}
      (concedes : a.Concedes ends) (give : α → Answer) :
      (w.attempt a give).1.IsSettled ∧
        w.Leaves (w.attempt a give).1.overtaking (w.attempt a give).1 :=
    started (concedes.map _) rfl
  cases s with
  | act action =>
    have tracks := settled.sound.tracks_act action
    have sound := settled.sound.of_tracks tracks
    obtain ⟨rest, leaves, same⟩ := settled.comesToRest tracks.frees.leaves sound
    rw [← overtaking_congr fun number => congrArg (Timeline.reason? · number) same] at leaves
    exact ⟨rest, leaves⟩
  | renew timeout | create timeout =>
    have opened {give : Invocation → Report} :
        (w.openReport timeout give).1 = (w.invoke timeout).1 := by
      unfold openReport
      split <;> rename_i invoked <;> rw [invoked]
    have rest : (w.invoke timeout).1.awake = [] := by
      unfold World.invoke
      split <;> exact settled.rest
    have invoked := quiet (settled.sound.tracks_invoke timeout) rest
    rw [← opened] at invoked
    exact invoked
  | remaining => exact quiet settled.sound.tracks_refl settled.rest
  | require stage resource =>
    have concedes : (Deadline.require stage resource).Concedes fun _ => True := by
      refine Dialogue.concedes_ask (fun _ => id) fun standing => ?_
      cases standing <;> trivial
    exact begun concedes _
  | errand stage resource name script =>
    have concedes : (errandDialogue stage resource name).Concedes fun _ => True :=
      (guards_errandDialogue stage resource name).concedes fun _ _ _ => trivial
    exact started concedes rfl
  | tell name result => exact settled.leaves_tell name result
  | organization id => exact begun (settled.gateway.organization id) _
  | policy resource => exact begun (settled.gateway.policy resource) _
  | write resource policy version =>
    exact begun (settled.gateway.write resource policy version) _
  | execute plan => exact begun (Remediation.concedes_execute settled.gateway plan) _
  | event event => exact begun (Intake.concedes_receive settled.gateway event) _
  | load path =>
    exact quiet (settled.sound.tracks_of_eq rfl rfl rfl rfl rfl fun _ => rfl) settled.rest

/-! ### Many steps -/

/-- The world after several steps. -/
def after (w : World) (steps : List Step) : World :=
  steps.foldl (fun w s => (w.step s).1) w

/-- The reports that were made under a ticket. -/
def reportsOf (w : World) (ticket : Nat) : List Report :=
  (w.reports.filter fun entry => entry.1 = ticket).map Prod.snd

/-- Between steps all promises have been kept. -/
lemma IsSettled.promises_eq (settled : w.IsSettled) : w.promises = w.reports := by
  rw [promises, settled.rest, List.filterMap_nil, List.append_nil]

/-- Where each ticket occurs once, what was reported under it is found. -/
lemma filter_ticket_eq {entries : List (Nat × Report)} {ticket : Nat}
    (nodup : (entries.map Prod.fst).Nodup) (mem : (ticket, report) ∈ entries) :
    entries.filter (fun entry => entry.1 = ticket) = [(ticket, report)] := by
  induction entries with
  | nil => cases mem
  | cons entry entries ih =>
    obtain ⟨unused, rest⟩ := List.nodup_cons.mp nodup
    rcases List.mem_cons.mp mem with rfl | later
    · have others : entries.filter (fun entry => entry.1 = ticket) = [] := by
        rw [List.filter_eq_nil_iff]
        rintro other inside same
        have own : other.1 = ticket := by simpa using same
        have reported : other.1 ∈ entries.map Prod.fst := List.mem_map_of_mem inside
        exact unused (own ▸ reported)
      rw [List.filter_cons_of_pos (by simp), others]
    · have reported : ticket ∈ entries.map Prod.fst := List.mem_map_of_mem (f := Prod.fst) later
      have apart : entry.1 ≠ ticket := by
        rintro rfl
        exact unused reported
      rw [List.filter_cons_of_neg (by simpa using apart), ih rest later]

/-- What was promised between steps is the only report of its run. -/
lemma IsSettled.reportsOf_of_mem (settled : w.IsSettled) {ticket : Nat}
    (mem : (ticket, report) ∈ w.promises) : w.reportsOf ticket = [report] := by
  have nodup : (w.promises.map Prod.fst).Nodup := (List.nodup_append.mp settled.sound.nodup).1
  rw [settled.promises_eq] at mem nodup
  rw [reportsOf, filter_ticket_eq nodup mem]
  rfl

/-- Whoever waits has not been reported. -/
lemma IsSettled.reportsOf_of_waiting (settled : w.IsSettled) {x : Waiting}
    (waits : x ∈ w.waiting) : w.reportsOf x.run.ticket = [] := by
  obtain ⟨-, -, apart⟩ := List.nodup_append.mp settled.sound.nodup
  rw [reportsOf, List.map_eq_nil_iff, List.filter_eq_nil_iff]
  intro entry mem same
  rw [← settled.promises_eq] at mem
  refine apart entry.1 (List.mem_map_of_mem mem) x.run.ticket (List.mem_map_of_mem waits) ?_
  simpa using same

/-- A world stays settled from step to step, no report is taken back, and the gateway stays the
same. -/
lemma IsSettled.settled_after (settled : w.IsSettled) (steps : List Step) :
    (w.after steps).IsSettled ∧ (∀ entry ∈ w.promises, entry ∈ (w.after steps).promises) ∧
      (w.after steps).gateway = w.gateway := by
  induction steps generalizing w with
  | nil => exact ⟨settled, fun _ => id, rfl⟩
  | cons s steps ih =>
    obtain ⟨next, leaves⟩ := settled.leaves_step s
    obtain ⟨last, stays, same⟩ := ih next
    exact ⟨last, fun entry mem => stays entry (leaves.stays entry mem), same.trans leaves.gateway⟩

/-- What a list of steps decides first about a waiting run: it is told to settle with a result, or its
signal is raised for a reason. -/
def fate (run : Run) (told : Except Failure (Option Json) → Option Report)
    (overtaken : Failure → Option Report) : World → List Step → Option Report
  | _, [] => none
  | w, s :: steps =>
      (((w.told? run.number s).bind told).or (((w.step s).1.raised? run).bind overtaken)).or
        (fate run told overtaken (w.step s).1 steps)

/-- A report that was made stays the only one of its run. -/
lemma IsSettled.reportsOf_after_of_made (settled : w.IsSettled) {ticket : Nat}
    (made : w.reportsOf ticket = [report]) (steps : List Step) :
    (w.after steps).reportsOf ticket = [report] := by
  have mem : (ticket, report) ∈ w.promises := by
    have reported : report ∈ w.reportsOf ticket := by
      rw [made]
      exact List.mem_singleton_self report
    rw [reportsOf] at reported
    obtain ⟨⟨own, same⟩, inside, rfl⟩ := List.mem_map.mp reported
    obtain ⟨there, number⟩ := List.mem_filter.mp inside
    obtain rfl : own = ticket := by simpa using number
    rw [settled.promises_eq]
    exact there
  obtain ⟨last, stays, -⟩ := settled.settled_after steps
  exact last.reportsOf_of_mem (stays _ mem)

/-- What steps decide about a run depends on its number and its invocation. -/
lemma fate_congr (other run : Run) (number : other.number = run.number)
    (invocation : other.invocation = run.invocation)
    {told : Except Failure (Option Json) → Option Report} {overtaken : Failure → Option Report}
    (steps : List Step) : fate other told overtaken w steps = fate run told overtaken w steps := by
  induction steps generalizing w with
  | nil => rfl
  | cons s steps ih =>
    have same : (w.step s).1.raised? other = (w.step s).1.raised? run := by
      rw [raised?_eq, raised?_eq, invocation]
    rw [fate, fate, ih, same, number]

/-- **Many steps.**  A waiting run is reported once, as the first step says that decides about it, and
not before that step nor ever again. -/
theorem IsSettled.reportsOf_after (settled : w.IsSettled) {x : Waiting} (waits : x ∈ w.waiting)
    (steps : List Step) :
    (w.after steps).reportsOf x.run.ticket =
      (fate x.run x.told? x.overtaken? w steps).toList := by
  induction steps generalizing w with
  | nil => exact settled.reportsOf_of_waiting waits
  | cons s steps ih =>
    obtain ⟨next, leaves⟩ := settled.leaves_step s
    have decides : fate x.run x.told? x.overtaken? w (s :: steps) =
        (x.verdict? w s).or (fate x.run x.told? x.overtaken? (w.step s).1 steps) := rfl
    rw [decides]
    cases verdict : x.verdict? w s with
    | none => exact ih next (leaves.kept x waits verdict)
    | some report =>
      obtain ⟨last, stays, -⟩ := next.settled_after steps
      exact last.reportsOf_of_mem (stays _ (leaves.granted x waits report verdict))

/-! ### Guarded questions -/

/-- The world in which one more run has been started. -/
def begun (w : World) : World :=
  { w with runs := w.runs + 1 }

/-- A look at the invocation is answered at once. -/
lemma follow_standing {idle : World → World} {next : Standing → Dialogue Report}
    {standing : Standing} (stands : w.standing run = standing) :
    follow idle (.ask .standing next) run w = follow idle (next standing) run w := by
  rw [follow, ← stands]
  rfl

/-- What is launched comes to what it was followed to. -/
lemma launch_of_follow {d : Dialogue Report} {came : Option Report}
    (follows : follow settle d { run with number := w.runs } w.begun = (v, came)) :
    w.launch run d =
      (v.settle, match came with | some report => .reported report | none => .pending w.pendings) := by
  have started : w.start run d = (v.settle, came) := by
    unfold World.start
    dsimp only
    rw [← begun, follows]
  unfold launch
  rw [started]
  cases came <;> rfl

/-- What is launched is reported if it comes to a dialogue that winds up, and nothing else changes by
then. -/
lemma launch_of_windUp? {d e : Dialogue Report} {own : Run} (winding : v.IsWinding)
    (winds : e.windUp? = some report)
    (follows : follow settle d { run with number := w.runs } w.begun = follow settle e own v) :
    (w.launch run d).2 = .reported report ∧ v.Resembles (w.launch run d).1 := by
  obtain ⟨u, ends, adds, -⟩ := exists_follow_of_windUp? settle own winds winding
  rw [launch_of_follow (follows.trans ends)]
  exact ⟨rfl, adds.rest.trans (adds_settle (adds.winding winding)).1.rest⟩

/-- The worlds agree in all but the journal and its keys, the runs that are awake or wait, what was
reported or is pending, and the names of errands. -/
def Continues (w v : World) : Prop :=
  Resembles { w with waiting := v.waiting, pendings := v.pendings, named := v.named } v

/-- A world that resembles another one continues it. -/
lemma Resembles.continues (same : w.Resembles v) : w.Continues v := by
  unfold Continues Resembles at *
  rw [same]

/-- A world that goes on from where a run was left waiting continues what was before that. -/
lemma continues_of_suspend {x : Waiting} (new : x.run.pending = none)
    (same : (w.suspend x).Resembles v) : w.Continues v := by
  rw [suspend_of_new new] at same
  unfold Continues Resembles at *
  rw [same]

section Guards

variable {d : Dialogue Report} {question : Option Nat → Query} {expired : Failure → Report}
  {replied : (left : Option Nat) → (question left).Reply → Report}

/-- Whoever has asked and waits is reported as the steps that follow decide first. -/
lemma IsSettled.reportsOf_of_suspend (settled : v.IsSettled) {query : Query}
    {next : query.Reply → Dialogue Report} {report : query.Reply → Report}
    (winds : ∀ reply, (next reply).windUp? = some (report reply)) (new : run.pending = none)
    (left : (w.suspend ⟨run, query, next⟩).Resembles v) (later : List Step) :
    (v.after later).reportsOf w.pendings =
      (fate run (fun result => (settleReply? result query).map report)
        (fun reason => (abortReply? reason query).map report) v later).toList := by
  let x : Waiting := ⟨{ run with pending := some w.pendings }, query, next⟩
  have waits : x ∈ v.waiting := by
    rw [suspend_of_new new] at left
    rw [left]
    exact List.mem_append_right _ (List.mem_singleton_self _)
  have heard (reply? : (query : Query) → Option query.Reply) :
      x.reportAfter? reply? = (reply? query).map report := by
    show (reply? query).bind (fun reply => (next reply).windUp?) = _
    cases reply? query with
    | none => rfl
    | some reply => exact winds reply
  have told : x.told? = fun result => (settleReply? result query).map report :=
    funext fun result => heard (settleReply? result)
  have overtaken : x.overtaken? = fun reason => (abortReply? reason query).map report :=
    funext fun reason => heard (abortReply? reason)
  have reported := settled.reportsOf_after waits later
  rw [told, overtaken, fate_congr x.run run rfl rfl] at reported
  exact reported

/-- **Guarded questions.**  If the invocation may not go on, then the question is not asked.
Otherwise it is asked once, with the time that is left.  If it gets a reply, then that decides the
report of the run at once.  If it gets none, then the run waits, and it is reported as the steps that
follow decide first. -/
theorem IsSettled.launch_guards (settled : w.IsSettled) (run : Run)
    (guards : d.Guards question expired replied) (new : run.pending = none) :
    (∀ reason, w.standing run = .expired reason →
      (w.launch run d).2 = .reported (expired reason) ∧ w.begun.Resembles (w.launch run d).1) ∧
    ∀ left, w.standing run = .active left →
      let own : Run := { run with number := w.runs }
      let answered := w.begun.answer own (question left)
      answered.world.Continues (w.launch run d).1 ∧
      (∀ reply, answered.progress.reply? = some reply →
        (w.launch run d).2 = .reported (replied left reply)) ∧
      (answered.progress.reply? = none →
        (w.launch run d).2 = .pending w.pendings ∧
          ∀ later, ((w.launch run d).1.after later).reportsOf w.pendings =
            (fate own (fun result => (settleReply? result (question left)).map (replied left))
              (fun reason => (abortReply? reason (question left)).map (replied left))
              (w.launch run d).1 later).toList) := by
  have begins : w.Tracks w.begun := settled.sound.tracks_of_eq rfl rfl rfl rfl rfl fun _ => rfl
  have sound : w.begun.IsSound := settled.sound.of_tracks begins
  have rests : (w.launch run d).1.IsSettled := by
    have concedes : d.Concedes fun _ => True := guards.concedes fun _ _ _ => trivial
    rw [launch_fst]
    exact (settled.leaves_start concedes new).1
  obtain ⟨first, rfl, inactive, active⟩ := guards
  refine ⟨fun reason standing => ?_, fun left standing => ?_⟩
  · exact launch_of_windUp? sound.winding (inactive reason) (follow_standing standing)
  -- The look at the invocation is answered at once, so the run goes as if it began with the question.
  obtain ⟨onward, asks, winds⟩ := active left
  intro own answered
  have looked : follow settle (.ask .standing first) own w.begun =
      follow settle (.ask (question left) onward) own w.begun := by
    rw [← asks]
    exact follow_standing standing
  have tracks : w.begun.Tracks answered.world := sound.tracks_answer _
  have after : answered.world.IsSound := sound.of_tracks tracks
  cases replied : answered.progress.reply? with
  | some reply =>
    obtain ⟨v, adds, follows⟩ := follow_of_reply? onward after.winding replied
    obtain ⟨reported, rest⟩ :=
      launch_of_windUp? (adds.winding after.winding) (winds reply) (looked.trans follows)
    refine ⟨(adds.rest.trans rest).continues, fun other came => ?_, fun none => ?_⟩
    · cases came
      exact reported
    · cases none
  | none =>
    obtain ⟨prompt, -, down⟩ := of_waits replied
    have yields : Waiting.Yields ⟨own, question left, onward⟩ :=
      ⟨prompt, fun reply _ => ⟨_, winds reply⟩⟩
    have launched := launch_of_follow (looked.trans (follow_of_waits replied))
    have suspended : (answered.world.suspend ⟨own, question left, onward⟩).Resembles
        (w.launch run (.ask .standing first)).1 := by
      rw [launched]
      exact (adds_settle (after.sound_suspend new down yields).winding).1.rest
    -- Nobody has had to wait before this run since it was launched, so its ticket is the next one.
    have ticket : answered.world.pendings = w.pendings := tracks.frees.pendings
    refine ⟨continues_of_suspend new suspended, fun reply came => ?_, fun _ => ⟨?_, ?_⟩⟩
    · cases came
    · rw [launched]
    · rw [← ticket]
      exact rests.reportsOf_of_suspend winds new suspended

end Guards

end World

end Rehearsal

end PolicyWarden
