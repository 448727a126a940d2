import Mathlib.Logic.Relation
import Mathlib.Tactic.Common
import PolicyWarden.Proofs.Dialogue.Rules
import PolicyWarden.Proofs.Timeline.Ageing
import PolicyWarden.Rehearsal.Answering

/-!
# Walks

A walk is a run on its way through a world that does not wait for it.  Some queries are answered in
the present: the clock stands still between the question and the reply.  The others are awaited, and
until the reply comes anything may happen to the world, except that the clock does not go back and
that a signal that was raised stays raised; the reply may then be any.

What a run finds when it looks at its invocation is therefore true until it awaits something, and
no longer (`standing_of_last`).  A run keeps the invocation that it has until it opens another one
(`run_eq_of_keeps`), and that invocation only ages.
-/

namespace PolicyWarden

/-- The query is awaited, so that the world may change until the reply comes. -/
def Query.isAwaited : Query → Bool
  | .configuration | .organization _ | .policy _ | .write _ _ _ | .call _ _ | .errand _
  | .pause => true
  | .record _ | .retain _ _ | .release _ | .settings | .invoke _ | .standing => false

namespace Rehearsal

/-! ### The world around a walk -/

namespace World

variable {w v : World} {run : Run}

/-- The clock of the world is on the calendar. -/
def IsOnCalendar (w : World) : Prop :=
  w.timeline.now.natAbs ≤ Instant.calendarReach

instance : Decidable w.IsOnCalendar :=
  inferInstanceAs (Decidable (_ ≤ _))

/-- The second world is what may have become of the first: its timeline has aged, and its clocks are
as far ahead as they were. -/
structure Ages (w v : World) : Prop where
  timeline : w.timeline.Ages v.timeline
  deadlineOffset : v.deadlineOffset = w.deadlineOffset
  standingOffset : v.standingOffset = w.standingOffset

lemma Ages.refl (w : World) : w.Ages w :=
  ⟨.refl w.timeline, rfl, rfl⟩

lemma Ages.trans {u : World} (first : w.Ages v) (second : v.Ages u) : w.Ages u :=
  ⟨first.timeline.trans second.timeline, second.deadlineOffset.trans first.deadlineOffset,
    second.standingOffset.trans first.standingOffset⟩

/-- A world between two others on the calendar is on the calendar, too. -/
lemma IsOnCalendar.between {u : World} (first : w.IsOnCalendar) (last : v.IsOnCalendar)
    (after : w.Ages u) (before : u.Ages v) : u.IsOnCalendar := by
  have lower : @LE.le Int _ w.timeline.now u.timeline.now := after.timeline.forward
  have upper : @LE.le Int _ u.timeline.now v.timeline.now := before.timeline.forward
  unfold IsOnCalendar at first last ⊢
  omega

/-- The invocation of a run is still there in an older world, and has aged. -/
lemma Ages.exists_invocation (ages : w.Ages v) {i : Invocation}
    (found : w.invocation? run = some i) : ∃ j, v.invocation? run = some j ∧ i.Ages j := by
  obtain ⟨number, own, there⟩ := Option.bind_eq_some_iff.mp found
  obtain ⟨j, still, older⟩ := ages.timeline.invocations number i there
  exact ⟨j, Option.bind_eq_some_iff.mpr ⟨number, own, still⟩, older⟩

/-- Opening an invocation ages the world and does not move the clock. -/
lemma ages_invoke (w : World) (timeout : Number) :
    w.Ages (w.invoke timeout).1 ∧ (w.invoke timeout).1.timeline.now = w.timeline.now := by
  unfold invoke
  cases opened : w.timeline.openInvocation timeout w.deadlineOffset with
  | error failure => exact ⟨.refl w, rfl⟩
  | ok later =>
    refine ⟨⟨Timeline.ages_openInvocation opened, rfl, rfl⟩, ?_⟩
    cases accepted : readTimeout timeout with
    | error failure =>
      rw [Timeline.openInvocation, accepted] at opened
      cases opened
    | ok millis =>
      rw [Timeline.openInvocation_of_readTimeout accepted] at opened
      cases opened
      rfl

/-- The run that opened an invocation has it. -/
lemma invocation?_joinNewest_invoke (run : Run) {timeout : Number} {millis : Nat}
    (accepted : readTimeout timeout = .ok millis) :
    (w.invoke timeout).1.invocation? ((w.invoke timeout).1.joinNewest run) =
      some (w.timeline.opened millis w.deadlineOffset) := by
  have after : (w.invoke timeout).1 = { w with timeline := { w.timeline with
      invocations := w.timeline.invocations ++
        [w.timeline.opened millis w.deadlineOffset] } } := by
    rw [invoke, Timeline.openInvocation_of_readTimeout accepted]
  rw [after]
  simp [invocation?, joinNewest, Timeline.newest?, Timeline.invocation?]

/-- On a clock that is not ahead, the deadline of an invocation is one time limit after it was
opened, if the calendar reaches so far. -/
lemma deadline_opened (exact : w.deadlineOffset = 0) (start : w.IsOnCalendar) (millis : Nat) :
    (w.timeline.opened millis w.deadlineOffset).deadline =
      Instant.onCalendar? (w.timeline.now + millis) := by
  have clock : (w.timeline.now + w.deadlineOffset : Int) = w.timeline.now := by
    rw [exact, Int.add_zero]
  have reachable : (w.timeline.now + w.deadlineOffset : Int).natAbs ≤ Instant.calendarReach := by
    rw [clock]
    exact start
  exact (Timeline.deadline?_eq reachable).trans (by rw [clock])

/-- A run stands as its invocation does, on a clock that is as far ahead as it is. -/
lemma standing_of_invocation {i : Invocation} (found : w.invocation? run = some i) :
    w.standing run = i.standing (w.timeline.now + w.standingOffset) := by
  unfold standing
  rw [found]

/-- A query that is answered in the present ages the world and does not move the clock. -/
lemma ages_answer {query : Query} (present : query.isAwaited = false) :
    w.Ages (w.answer run query).world ∧
      (w.answer run query).world.timeline.now = w.timeline.now := by
  cases query with
  | invoke timeout => exact w.ages_invoke timeout
  | record _ | retain _ _ | release _ | settings | standing =>
    exact ⟨⟨.refl w.timeline, rfl, rfl⟩, rfl⟩
  | _ => cases present

/-- A run keeps its invocation unless it opens another one. -/
lemma run_answer {query : Query} (present : query.isAwaited = false)
    (other : ∀ timeout, query ≠ .invoke timeout) : (w.answer run query).run = run := by
  cases query with
  | invoke timeout => exact absurd rfl (other timeout)
  | record _ | retain _ _ | release _ | settings | standing => rfl
  | _ => cases present

end World

/-! ### Walks -/

/-- A run on its way: the world around it, what it has heard, and how it goes on. -/
structure Walk (α : Type) where
  world : World
  run : Run
  heard : History
  rest : Dialogue α

namespace Walk

variable {α : Type}

/-- A run that sets out on a dialogue. -/
def setOut (w : World) (run : Run) (d : Dialogue α) : Walk α :=
  ⟨w, run, [], d⟩

/-- One step: a query is answered in the present, or after something has happened to the world. -/
inductive Step : Walk α → Walk α → Prop where
  | present {w : World} {run : Run} {h : History} {query : Query}
      {next : query.Reply → Dialogue α} {reply : query.Reply} (present : query.isAwaited = false)
      (replied : (w.answer run query).progress = .now reply) :
      Step ⟨w, run, h, .ask query next⟩
        ⟨(w.answer run query).world, (w.answer run query).run, h ++ [⟨query, reply⟩], next reply⟩
  | awaited {w v : World} {run : Run} {h : History} {query : Query}
      {next : query.Reply → Dialogue α} (awaited : query.isAwaited = true)
      (reply : query.Reply) (ages : w.Ages v) :
      Step ⟨w, run, h, .ask query next⟩ ⟨v, run, h ++ [⟨query, reply⟩], next reply⟩

/-- Any number of steps. -/
abbrev Reaches : Walk α → Walk α → Prop :=
  Relation.ReflTransGen Step

/-- The query that a walk asks next, unless it is over. -/
def asks? (c : Walk α) : Option Query :=
  c.rest.asked?

variable {c d : Walk α} {w : World} {run : Run} {dialogue : Dialogue α}

/-- A step ages the world. -/
lemma Step.ages (step : c.Step d) : c.world.Ages d.world := by
  cases step with
  | present present _ => exact (World.ages_answer present).1
  | awaited _ _ ages => exact ages

/-- Any number of steps age the world. -/
lemma Reaches.ages (reach : c.Reaches d) : c.world.Ages d.world := by
  induction reach with
  | refl => exact .refl _
  | tail _ step ih => exact ih.trans step.ages

/-- A step takes the dialogue one exchange further, and that exchange is heard. -/
lemma Step.exists_exchange (step : c.Step d) :
    ∃ query next reply, c.rest = .ask query next ∧ d.rest = next reply ∧
      d.heard = c.heard ++ [⟨query, reply⟩] := by
  cases step with
  | @present w run h query next reply _ _ => exact ⟨query, next, reply, rfl, rfl, rfl⟩
  | @awaited w v run h query next _ reply _ => exact ⟨query, next, reply, rfl, rfl, rfl⟩

/-- A step that opens an invocation leaves the run with it. -/
lemma Step.exists_opened (step : c.Step d) {limit : Number}
    (heard : d.heard = c.heard ++ [⟨.invoke limit, .ok ()⟩]) :
    ∃ millis, readTimeout limit = .ok millis ∧
      d.world.invocation? d.run =
        some (c.world.timeline.opened millis c.world.deadlineOffset) := by
  cases step with
  | @awaited w v run h query next awaited reply _ =>
    cases List.append_cancel_left heard
    cases awaited
  | @present w run h query next reply present replied =>
    cases List.append_cancel_left heard
    have opened : (w.invoke limit).2 = .ok () := Progress.now.inj replied
    cases accepted : readTimeout limit with
    | error failure =>
      rw [World.invoke, Timeline.openInvocation, accepted] at opened
      cases opened
    | ok millis => exact ⟨millis, rfl, World.invocation?_joinNewest_invoke run accepted⟩

/-- What a walk has heard since a point leads the dialogue of that point to what it goes on with. -/
lemma Reaches.exists_heard (reach : c.Reaches d) :
    ∃ h, d.heard = c.heard ++ h ∧ c.rest.Reaches h d.rest := by
  induction reach with
  | refl => exact ⟨[], (List.append_nil _).symm, .here _⟩
  | tail _ step ih =>
    obtain ⟨h, heard, onward⟩ := ih
    obtain ⟨query, next, reply, before, after, last⟩ := step.exists_exchange
    rw [before] at onward
    refine ⟨h ++ [⟨query, reply⟩], ?_, ?_⟩
    · rw [last, heard, List.append_assoc]
    · rw [after]
      exact onward.concat reply

/-- What a walk has heard leads its dialogue to what it goes on with. -/
lemma reaches_heard (reach : (setOut w run dialogue).Reaches c) :
    dialogue.Reaches c.heard c.rest := by
  obtain ⟨h, heard, onward⟩ := reach.exists_heard
  rw [heard]
  exact onward

/-- What a dialogue ensures of its queries holds of those of a walk. -/
lemma ensured_of_asks {asks : History → Query → Prop} {ends : History → α → Prop}
    (ensured : dialogue.Ensures asks ends []) (reach : (setOut w run dialogue).Reaches c)
    {query : Query} (asked : c.asks? = some query) : asks c.heard query := by
  have onward := reaches_heard reach
  obtain ⟨next, eq⟩ := Dialogue.eq_ask_of_asked? asked
  rw [eq] at onward
  exact onward.asks_of_ensures ensured

/-- Whatever a walk has heard, it heard by a step. -/
lemma exists_step_of_mem_heard (reach : (setOut w run dialogue).Reaches c) {exchange : Exchange}
    (mem : exchange ∈ c.heard) :
    ∃ a b, (setOut w run dialogue).Reaches a ∧ a.Step b ∧ b.Reaches c ∧
      b.heard = a.heard ++ [exchange] ∧ a.asks? = some exchange.query := by
  induction reach with
  | refl => cases mem
  | @tail a b before step ih =>
    obtain ⟨query, next, reply, asking, -, heard⟩ := step.exists_exchange
    rw [heard, List.mem_append, List.mem_singleton] at mem
    rcases mem with earlier | rfl
    · obtain ⟨a', b', first, own, later, parts⟩ := ih earlier
      exact ⟨a', b', first, own, later.tail step, parts⟩
    · have asked : a.asks? = some query := by rw [asks?, asking]; rfl
      exact ⟨a, b, before, step, .refl, heard, asked⟩

/-- What a walk found when it looked at its invocation is true as long as that is the last thing
that it did. -/
lemma standing_of_last (reach : (setOut w run dialogue).Reaches c) {standing : Standing}
    (last : c.heard.getLast? = some ⟨.standing, standing⟩) :
    c.world.standing c.run = standing := by
  cases reach with
  | refl => cases last
  | tail _ step =>
    cases step with
    | @present w run h query next reply present replied =>
      rw [List.getLast?_concat] at last
      cases last
      exact Progress.now.inj replied
    | @awaited w v run h query next awaited reply _ =>
      -- A look at the invocation is answered in the present, so it cannot be the last exchange here.
      rw [List.getLast?_concat] at last
      cases last
      cases awaited

/-- A walk keeps its invocation while it opens no other. -/
lemma run_eq_of_keeps (reach : c.Reaches d)
    (keeps : ∀ b, c.Reaches b → b.Reaches d → ∀ timeout, b.asks? ≠ some (.invoke timeout)) :
    d.run = c.run := by
  induction reach with
  | refl => rfl
  | @tail a b before step ih =>
    have same : a.run = c.run := by
      refine ih fun other first later timeout => ?_
      exact keeps other first (later.tail step) timeout
    rw [← same]
    have kept := keeps a before (.single step)
    cases step with
    | present present _ =>
      refine World.run_answer present fun timeout eq => kept timeout ?_
      rw [← eq]
      rfl
    | awaited _ _ _ => rfl

/-- The invocation of a walk that opens no other has merely aged. -/
lemma Reaches.exists_invocation (reach : c.Reaches d)
    (keeps : ∀ b, c.Reaches b → b.Reaches d → ∀ timeout, b.asks? ≠ some (.invoke timeout))
    {i : Invocation} (found : c.world.invocation? c.run = some i) :
    ∃ j, d.world.invocation? d.run = some j ∧ i.Ages j := by
  rw [run_eq_of_keeps reach keeps]
  exact reach.ages.exists_invocation found

end Walk

end Rehearsal

end PolicyWarden
