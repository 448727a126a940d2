import PolicyWarden.Rehearsal.Answering

/-!
# Running dialogues

A dialogue runs until it is done or has to wait for a reply.  Runs that have been woken up share the
time with it: at every pause of the present run each of them takes one turn, which reaches as far as
its own next pause, and they keep the order in which they woke up.  A reply that comes later comes
when nobody else is awake any more.
-/

namespace PolicyWarden

namespace Rehearsal

namespace World

/-! ### Leaving the present -/

/-- Leave a run waiting. -/
def suspend (w : World) (waiting : Waiting) : World :=
  match waiting.run.pending with
  | some _ => { w with waiting := w.waiting ++ [waiting] }
  | none =>
      { w with
        waiting := w.waiting ++ [{ waiting with
          run := { waiting.run with pending := some w.pendings } }]
        pendings := w.pendings + 1 }

/-- Keep the report of a run that had to wait. -/
def keep (w : World) (run : Run) (report : Report) : World :=
  { w with reports := w.reports ++ [(run.pending.getD 0, report)] }

/-- Line up behind everyone who is awake. -/
def lineUp (w : World) (a : Awake) : World :=
  { w with awake := w.awake ++ [a] }

/-! ### Taking turns -/

/-- Run what a woken run goes on with as far as its next pause. -/
def proceed : Dialogue Report → Run → World → World
  | .done report, run, w => w.keep run report
  | .ask query next, run, w =>
      let answered := w.answer run query
      match answered.progress with
      | .now reply => proceed (next reply) answered.run answered.world
      | .soon reply | .later reply => answered.world.lineUp ⟨answered.run, next reply⟩
      | .waits => answered.world.suspend ⟨answered.run, query, next⟩

/-- Let everyone who is awake take a turn. -/
def turn (w : World) : World :=
  w.awake.foldl (fun w a => proceed a.dialogue a.run w) { w with awake := [] }

/-- A turn changes nothing while nobody is awake. -/
theorem turn_of_awake_eq_nil {w : World} (h : w.awake = []) : w.turn = w := by
  cases w
  simp_all [turn]

/-! ### Running to the end -/

/-- Run a dialogue; `idle` lets the world go on until nobody else is awake. -/
def follow (idle : World → World) : Dialogue Report → Run → World → World × Option Report
  | .done report, _, w => (w, some report)
  | .ask query next, run, w =>
      let answered := w.answer run query
      match answered.progress with
      | .now reply => follow idle (next reply) answered.run answered.world
      | .soon reply => follow idle (next reply) answered.run answered.world.turn
      | .later reply => follow idle (next reply) answered.run (idle answered.world)
      | .waits => (answered.world.suspend ⟨answered.run, query, next⟩, none)

/-- Run on what a woken run goes on with. -/
def resume (idle : World → World) (w : World) (a : Awake) : World :=
  match follow idle a.dialogue a.run w with
  | (w, some report) => w.keep a.run report
  | (w, none) => w

/-- Run on what at most so many woken runs go on with, one after another. -/
def settleWithin : Nat → World → World
  | 0, w => w
  | count + 1, w =>
      match w.awake with
      | [] => w
      | a :: others => settleWithin count (resume (settleWithin count) { w with awake := others } a)

/-- Let the world go on until nobody is awake; only runs that have had to wait can be. -/
def settle (w : World) : World :=
  w.settleWithin (w.awake.length + w.waiting.length)

/-- A world in which nobody is awake is settled. -/
theorem settle_of_awake_eq_nil {w : World} (h : w.awake = []) : w.settle = w := by
  unfold settle
  cases w.awake.length + w.waiting.length <;> simp [settleWithin, h]

/-- Start a run. -/
def start (w : World) (run : Run) (d : Dialogue Report) : World × Option Report :=
  let numbered := { run with number := w.runs }
  let ended := follow settle d numbered { w with runs := w.runs + 1 }
  (ended.1.settle, ended.2)

end World

end Rehearsal

end PolicyWarden
