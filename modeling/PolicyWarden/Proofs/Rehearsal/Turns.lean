import Mathlib.Tactic.Common
import PolicyWarden.Proofs.Rehearsal.Contests
import PolicyWarden.Proofs.Rehearsal.Signals

/-!
# Turns of woken runs

Runs that wind up share their turns with a run that is followed.  They write into the journal, keep
or give back values and make their reports; nothing else in the world changes through them
(`Adds`), and they never wait again.  So a world of which everyone who is awake winds up comes to
rest, and by then each promised report was made once (`adds_settle`).

A run that is followed to its end, or until it has to wait, leaves a sound world if it concedes
(`IsSound.exists_follow`).
-/

namespace PolicyWarden

namespace Rehearsal

/-- The script that a call of the service follows. -/
def ServiceDesk.script? (desk : ServiceDesk) : (call : Service.Call) → Option (Script call.Reply)
  | .organization _ => desk.organizations.head?
  | .policy _ _ => desk.policies.head?
  | .write _ => desk.writes.head?

namespace World

variable {w v u : World} {run : Run} {report : Report}

/-! ### Runs that wind up -/

/-- The worlds agree in all but the journal and its keys, who is awake and what was reported. -/
def Resembles (w v : World) : Prop :=
  v = { w with journal := v.journal, keys := v.keys, awake := v.awake, reports := v.reports }

lemma Resembles.trans (first : w.Resembles v) (second : v.Resembles u) : w.Resembles u := by
  unfold Resembles at first second
  rw [first] at second
  exact second

/-- Only runs that wind up have acted between two worlds, and some reports were promised beside
those that were promised before. -/
structure Adds (more : List (Nat × Report)) (w v : World) : Prop where
  rest : w.Resembles v
  promises : v.promises.Perm (w.promises ++ more)
  winding : w.IsWinding → v.IsWinding

/-- Nothing is added by staying where one is. -/
lemma adds_refl (w : World) : w.Adds [] w :=
  ⟨rfl, by rw [List.append_nil], id⟩

/-- What is added first and what is added then is added on the whole. -/
lemma Adds.trans {first second : List (Nat × Report)} (before : w.Adds first v)
    (after : v.Adds second u) : w.Adds (first ++ second) u where
  rest := before.rest.trans after.rest
  promises := by
    refine after.promises.trans ((before.promises.append_right second).trans ?_)
    rw [List.append_assoc]
  winding := after.winding ∘ before.winding

/-- Asking for something that has no answer changes nothing but the journal and its keys. -/
lemma answer_of_plain (w : World) (run : Run) {query : Query} {reply : query.Reply}
    (plain : query.plainReply? = some reply) :
    ∃ journal keys, (w.answer run query).world = { w with journal := journal, keys := keys } ∧
      (w.answer run query).run = run ∧
      ((w.answer run query).progress = .now reply ∨ (w.answer run query).progress = .soon reply) := by
  cases query with
  | record entry => exact ⟨_, _, rfl, rfl, .inl rfl⟩
  | retain key value => exact ⟨_, _, rfl, rfl, .inl rfl⟩
  | release keys => exact ⟨_, _, rfl, rfl, .inl rfl⟩
  | pause => exact ⟨_, _, rfl, rfl, .inr rfl⟩
  | _ => cases plain

/-- A run that winds up has its report promised or made after its turn, and lines up once at
most. -/
lemma adds_proceed (run : Run) {d : Dialogue Report} (winds : d.windUp? = some report) :
    w.Adds [(run.ticket, report)] (proceed d run w) ∧
      (proceed d run w).awake.length ≤ w.awake.length + 1 := by
  induction d generalizing w with
  | done value =>
    obtain rfl : value = report := Option.some.inj winds
    refine ⟨⟨rfl, ?_, id⟩, Nat.le_succ _⟩
    show ((w.reports ++ [(run.ticket, value)]) ++ _).Perm ((w.reports ++ _) ++ [_])
    rw [List.append_assoc, List.append_assoc]
    exact List.perm_append_comm.append_left _
  | ask query next ih =>
    obtain ⟨reply, plain, onward⟩ := Dialogue.exists_plainReply? winds
    obtain ⟨journal, keys, world, same, now | soon⟩ :=
      answer_of_plain w run plain
    · rw [proceed, now, same, world]
      obtain ⟨adds, length⟩ := ih reply (w := { w with journal := journal, keys := keys }) onward
      exact ⟨⟨adds.rest, adds.promises, adds.winding⟩, length⟩
    · rw [proceed, soon, same, world]
      refine ⟨⟨rfl, ?_, fun winding a mem => ?_⟩, ?_⟩
      · refine List.Perm.of_eq ?_
        simp [promises, lineUp, onward]
      · rcases List.mem_append.mp mem with earlier | last
        · exact winding a earlier
        · rw [List.mem_singleton.mp last]
          exact ⟨report, onward⟩
      · simp [lineUp]

/-- Runs that wind up have their reports promised or made after a turn each, and nobody else lines
up. -/
lemma adds_foldl_proceed {as : List Awake}
    (winds : ∀ a ∈ as, ∃ report, a.dialogue.windUp? = some report) (w : World) :
    let v := as.foldl (fun w a => proceed a.dialogue a.run w) w
    w.Adds
        (as.filterMap fun a => a.dialogue.windUp?.map fun report => (a.run.ticket, report)) v ∧
      v.awake.length ≤ w.awake.length + as.length := by
  induction as generalizing w with
  | nil => exact ⟨adds_refl w, Nat.le_refl _⟩
  | cons a as ih =>
    obtain ⟨own, others⟩ := List.forall_mem_cons.mp winds
    obtain ⟨report, winds⟩ := own
    obtain ⟨first, once⟩ := adds_proceed (w := w) a.run winds
    obtain ⟨rest, length⟩ := ih others (proceed a.dialogue a.run w)
    refine ⟨?_, ?_⟩
    · have both := first.trans rest
      rwa [List.singleton_append, ← List.filterMap_cons_some (by rw [winds]; rfl)] at both
    · rw [List.foldl_cons, List.length_cons]
      omega

/-- A turn of runs that wind up keeps what was promised, and nobody else lines up. -/
lemma adds_turn (winding : w.IsWinding) :
    w.Adds [] w.turn ∧ w.turn.awake.length ≤ w.awake.length := by
  obtain ⟨adds, length⟩ := adds_foldl_proceed winding { w with awake := [] }
  refine ⟨⟨adds.rest, ?_, fun _ => adds.winding fun a mem => ?_⟩, ?_⟩
  · rw [List.append_nil]
    exact adds.promises.trans (List.Perm.of_eq (by simp [promises]))
  · cases mem
  · exact Nat.le_trans length (by simp)

/-- Whoever winds up and is followed reaches the report that was settled already. -/
lemma exists_follow_of_windUp? (idle : World → World) (run : Run) {d : Dialogue Report}
    (winds : d.windUp? = some report) (winding : w.IsWinding) :
    ∃ v, follow idle d run w = (v, some report) ∧ w.Adds [] v ∧
      v.awake.length ≤ w.awake.length := by
  induction d generalizing w with
  | done value =>
    obtain rfl : value = report := Option.some.inj winds
    exact ⟨w, rfl, adds_refl w, Nat.le_refl _⟩
  | ask query next ih =>
    obtain ⟨reply, plain, onward⟩ := Dialogue.exists_plainReply? winds
    obtain ⟨journal, keys, world, same, now | soon⟩ :=
      answer_of_plain w run plain
    · rw [follow, now, same, world]
      obtain ⟨v, follows, adds, length⟩ :=
        ih reply (w := { w with journal := journal, keys := keys }) onward winding
      exact ⟨v, follows, ⟨adds.rest, adds.promises, adds.winding⟩, length⟩
    · rw [follow, soon, same, world]
      obtain ⟨turned, noLonger⟩ := adds_turn (w := { w with journal := journal, keys := keys })
        winding
      obtain ⟨v, follows, adds, length⟩ := ih reply onward (turned.winding winding)
      have both := turned.trans adds
      exact ⟨v, follows, ⟨both.rest, both.promises, both.winding⟩,
        Nat.le_trans length noLonger⟩

/-- The first of those who are awake is resumed first. -/
lemma settleWithin_of_awake {count : Nat} {a : Awake} {others : List Awake}
    (awake : w.awake = a :: others) :
    settleWithin (count + 1) w =
      settleWithin count (resume (settleWithin count) { w with awake := others } a) := by
  rw [settleWithin, awake]

/-- Runs that wind up come to their ends if there is a turn for each. -/
lemma adds_settleWithin {count : Nat} (winding : w.IsWinding) (enough : w.awake.length ≤ count) :
    w.Adds [] (settleWithin count w) ∧ (settleWithin count w).awake = [] := by
  induction count generalizing w with
  | zero => exact ⟨adds_refl w, List.eq_nil_of_length_eq_zero (Nat.le_zero.mp enough)⟩
  | succ count ih =>
    cases awake : w.awake with
    | nil =>
      rw [settleWithin, awake]
      exact ⟨adds_refl w, awake⟩
    | cons a others =>
      rw [IsWinding, awake] at winding
      obtain ⟨own, rest⟩ := List.forall_mem_cons.mp winding
      obtain ⟨report, winds⟩ := own
      -- The first run reaches its report and nobody lines up anew, so there are turns for the others.
      obtain ⟨v, follows, adds, length⟩ := exists_follow_of_windUp? (w := { w with awake := others })
        (settleWithin count) a.run winds rest
      have fewer : others.length ≤ count := by
        rw [awake, List.length_cons] at enough
        omega
      have resumed : resume (settleWithin count) { w with awake := others } a =
          v.keep a.run report := by
        rw [resume, follows]
      have promised : (v.keep a.run report).promises.Perm w.promises := by
        have made : (v.keep a.run report).promises.Perm
            (v.promises ++ [(a.run.ticket, report)]) := by
          show ((v.reports ++ [(a.run.ticket, report)]) ++ _).Perm ((v.reports ++ _) ++ [_])
          rw [List.append_assoc, List.append_assoc]
          exact List.perm_append_comm.append_left _
        refine made.trans ((adds.promises.append_right _).trans ?_)
        rw [List.append_nil, promises, promises, awake, List.filterMap_cons_some (by rw [winds]; rfl),
          List.append_assoc]
        exact List.perm_append_comm.append_left _
      rw [settleWithin_of_awake awake, resumed]
      obtain ⟨settled, done⟩ := ih (w := v.keep a.run report) (adds.winding rest)
        (Nat.le_trans length fewer)
      refine ⟨⟨?_, ?_, fun _ => settled.winding (adds.winding rest)⟩, done⟩
      · have resumed : ({ w with awake := others } : World).Resembles (v.keep a.run report) :=
          adds.rest.trans rfl
        have taken : w.Resembles { w with awake := others } := rfl
        exact taken.trans (resumed.trans settled.rest)
      · exact settled.promises.trans ((List.Perm.of_eq (List.append_nil _)).trans
          (promised.trans (List.Perm.of_eq (List.append_nil _).symm)))

/-- **Coming to rest.**  If everyone who is awake winds up, then nobody is awake any more after the
world has settled, each promised report was made, and nothing else happened. -/
theorem adds_settle (winding : w.IsWinding) : w.Adds [] w.settle ∧ w.settle.awake = [] :=
  adds_settleWithin winding (Nat.le_add_right _ _)

/-- What runs do that wind up changes no signal, and frees nobody. -/
lemma IsSound.tracks_of_adds (sound : w.IsSound) (adds : w.Adds [] v) : w.Tracks v := by
  have frees : w.Frees (fun _ => none) v :=
    ⟨by rw [(granted_kept_none _).2, adds.rest],
      by rw [(granted_kept_none _).1]; exact adds.promises, adds.winding, by rw [adds.rest],
      by rw [adds.rest]⟩
  have same : v.raised? = w.raised? := by rw [adds.rest]; rfl
  refine ⟨fun run reason raised => by rwa [same], frees.congr fun x waits => ?_⟩
  rw [overtaking, same, sound.down x waits, Option.bind_none]

/-! ### Runs that concede -/

/-- Following a script leaves a run as it is. -/
lemma run_perform {σ : Type} (script : Option (Script σ)) : (w.perform run script).run = run := by
  cases script <;> rfl

/-- A script that leaves its run waiting leaves the signal of the run down. -/
lemma raised?_perform_of_waits {σ : Type} {script : Option (Script σ)}
    (waits : (w.perform run script).progress.reply? = none) :
    (w.perform run script).world.raised? run = none := by
  cases script with
  | none => cases waits
  | some script =>
    have race : (script.conduct.race ((w.actAll script.during).raised? run)).reply? = none := waits
    exact (Conduct.contest_of_waits race).2

/-- An errand follows its script, and may be given a name. -/
lemma runErrand_eq (w : World) (run : Run) :
    ∃ named, w.runErrand run =
      ⟨{ (w.perform run run.errand).world with named := named }, run,
        (w.perform run run.errand).progress⟩ := by
  have own : (w.perform run run.errand).run = run := run_perform run.errand
  unfold runErrand
  generalize w.perform run run.errand = performed at own ⊢
  obtain ⟨world, other, progress⟩ := performed
  obtain rfl : other = run := own
  dsimp only
  split
  · exact ⟨world.named, rfl⟩
  · exact ⟨world.named, rfl⟩
  · exact ⟨_, rfl⟩

/-- A call follows the script that is next in the service. -/
lemma serve_eq (w : World) (run : Run) (call : Service.Call) :
    ∃ service, w.serve run call =
      ({ w with service := service }).perform run (w.service.script? call) := by
  cases call <;> exact ⟨_, rfl⟩

/-- A query that leaves its run waiting is a call or an errand, leaves the run as it is, and leaves
the signal of the run down. -/
lemma of_waits {query : Query} (waits : (w.answer run query).progress.reply? = none) :
    query.isPrompt = false ∧ (w.answer run query).run = run ∧
      (w.answer run query).world.raised? run = none := by
  cases query with
  | call call timeout =>
    obtain ⟨service, served⟩ := (w.noteCall call timeout).serve_eq run call
    have answered : w.answer run (.call call timeout) = _ := served
    rw [answered] at waits ⊢
    exact ⟨rfl, run_perform _, raised?_perform_of_waits waits⟩
  | errand timeout =>
    obtain ⟨named, ran⟩ := w.runErrand_eq run
    have answered : w.answer run (.errand timeout) = _ := ran
    rw [answered] at waits ⊢
    have down : (w.perform run run.errand).world.raised? run = none :=
      raised?_perform_of_waits waits
    exact ⟨rfl, rfl, down⟩
  | _ => cases waits

/-- Answering a query leaves a run its number and its ticket. -/
lemma run_answer_fields (w : World) (run : Run) (query : Query) :
    (w.answer run query).run.number = run.number ∧
      (w.answer run query).run.pending = run.pending := by
  cases query with
  | call call timeout =>
    obtain ⟨service, served⟩ := (w.noteCall call timeout).serve_eq run call
    have answered : w.answer run (.call call timeout) = _ := served
    rw [answered, run_perform]
    exact ⟨rfl, rfl⟩
  | errand timeout =>
    obtain ⟨named, ran⟩ := w.runErrand_eq run
    have answered : w.answer run (.errand timeout) = _ := ran
    rw [answered]
    exact ⟨rfl, rfl⟩
  | _ => exact ⟨rfl, rfl⟩

/-- Whoever asks and gets a reply goes on with it; until then only runs that wind up have had their
turns. -/
lemma follow_of_reply? {query : Query} (next : query.Reply → Dialogue Report) {reply : query.Reply}
    (winding : (w.answer run query).world.IsWinding)
    (replied : (w.answer run query).progress.reply? = some reply) :
    ∃ v, (w.answer run query).world.Adds [] v ∧
      follow settle (.ask query next) run w =
        follow settle (next reply) (w.answer run query).run v := by
  rw [follow]
  cases progress : (w.answer run query).progress with
  | now other =>
    rw [progress] at replied
    obtain rfl : other = reply := Option.some.inj replied
    exact ⟨_, adds_refl _, rfl⟩
  | soon other =>
    rw [progress] at replied
    obtain rfl : other = reply := Option.some.inj replied
    exact ⟨_, (adds_turn winding).1, rfl⟩
  | later other =>
    rw [progress] at replied
    obtain rfl : other = reply := Option.some.inj replied
    exact ⟨_, (adds_settle winding).1, rfl⟩
  | waits =>
    rw [progress] at replied
    cases replied

/-- Whoever asks and gets no reply is left waiting. -/
lemma follow_of_waits {query : Query} {next : query.Reply → Dialogue Report}
    (waits : (w.answer run query).progress.reply? = none) :
    follow settle (.ask query next) run w =
      ((w.answer run query).world.suspend ⟨run, query, next⟩, none) := by
  obtain ⟨-, same, -⟩ := of_waits waits
  rw [follow]
  cases progress : (w.answer run query).progress with
  | waits =>
    exact congrArg (fun own => ((w.answer run query).world.suspend ⟨own, query, next⟩, none)) same
  | now reply | soon reply | later reply =>
    rw [progress] at waits
    cases waits

/-- How a run of a dialogue comes out that is followed: with a report, or waiting. -/
inductive Follows (run : Run) (u : World) : World × Option Report → Prop
  | reported (report : Report) : Follows run u (u, some report)
  | waiting (x : Waiting) (number : x.run.number = run.number) (pending : x.run.pending = run.pending)
      (down : u.raised? x.run = none) (yields : x.Yields) : Follows run u (u.suspend x, none)

/-- The signals are followed while a run is followed that concedes; in the end it has a report, or it
waits on a signal that is down. -/
theorem IsSound.exists_follow (sound : w.IsSound) (run : Run) {d : Dialogue Report} {ends : Report → Prop}
    (concedes : d.Concedes ends) :
    ∃ u, w.Tracks u ∧ Follows run u (follow settle d run w) := by
  induction d generalizing w run with
  | done report => exact ⟨w, sound.tracks_refl, .reported report⟩
  | ask query next ih =>
    have answered : w.Tracks (w.answer run query).world := sound.tracks_answer query
    have after := sound.of_tracks answered
    obtain ⟨number, pending⟩ := w.run_answer_fields run query
    cases replied : (w.answer run query).progress.reply? with
    | some reply =>
      obtain ⟨v, adds, onward⟩ := follow_of_reply? next after.winding replied
      have tracks := after.tracks_of_adds adds
      obtain ⟨u, later, follows⟩ := ih reply (after.of_tracks tracks) (w.answer run query).run
        (concedes reply).2
      refine ⟨u, (answered.trans tracks).trans later, ?_⟩
      rw [← onward] at follows
      generalize follow settle (.ask query next) run w = came at follows ⊢
      cases follows with
      | reported report => exact .reported report
      | waiting x own ticket down yields =>
        exact .waiting x (own.trans number) (ticket.trans pending) down yields
    | none =>
      obtain ⟨prompt, -, down⟩ := of_waits replied
      rw [follow_of_waits replied]
      refine ⟨_, answered, .waiting _ rfl rfl down ⟨prompt, fun reply last => ?_⟩⟩
      obtain ⟨report, winds, -⟩ := (concedes reply).1 last
      exact ⟨report, winds⟩

end World

end Rehearsal

end PolicyWarden
