import Mathlib.Tactic.Common
import PolicyWarden.Proofs.Intake.Redelivery
import PolicyWarden.Proofs.Rehearsal.Notes
import PolicyWarden.Proofs.Rehearsal.Walk

/-!
# Events that are handled side by side

Any number of events are handled in one world.  They take turns in any order, one query at a time,
and share the journal with the values that it keeps.  The handling of an event retains the id of the
event and the name of its finding, and takes the values of both keys away in the end, whoever put
them there.

So the journal keeps what the last retaining or releasing of anybody left (`IsUnderway.play`).
While nobody else retains or releases anything, each entry that a handling writes carries its own
event's id, and the name of its finding if the event carries one (`entries_name_own_event`).  Where
two handlings overlap, the one that ends first leaves the other without any name
(`entry_without_name`).
-/

namespace PolicyWarden

open Dialogue

/-! ### What a handling asks -/

/-- The query writes entries into the journal. -/
def Query.isNoted : Query → Bool
  | .record _ | .configuration => true
  | _ => false

/-- The values that the journal keeps are left alone. -/
def Rule.leavesKeys : Rule := fun _ query =>
  query.isKeeping = false

/-- A remediation by itself leaves the kept values alone. -/
lemma Rule.isLenient_leavesKeys : Rule.leavesKeys.IsLenient :=
  ⟨fun _ _ _ => rfl, fun _ => rfl, fun _ => rfl⟩

/-- Both gateways leave the kept values alone. -/
lemma Gateway.obeys_leavesKeys :
    Gateway.direct.Obeys Rule.leavesKeys ∧ Gateway.service.Obeys Rule.leavesKeys :=
  ⟨obeys_direct (fun _ _ => rfl) (fun _ _ => rfl) fun _ _ _ _ => rfl,
    Service.obeys_service Rule.isLenient_leavesKeys fun _ _ _ => rfl⟩

namespace Intake

open Rehearsal

/-- After these exchanges the journal keeps the id of the event, and the name of the finding that it
carries, whatever was kept before. -/
def Names (event : Event) (h : History) : Prop :=
  ∀ keys, (h.onKeys keys).value? .eventId = some event.recordedId ∧
    ∀ finding, Intake.finding event = .ok finding →
      (h.onKeys keys).value? .findingName = some (.text finding.name)

/-- Entries are written only while the journal names the event. -/
def namesOwn (event : Event) : Rule := fun h query =>
  query.isNoted = true → Names event h

variable {event : Event} {gateway : Gateway} {h : History}

/-- A query that writes no entry may be asked under any names. -/
lemma namesOwn_of_not_isNoted {query : Query} (unnoted : query.isNoted = false) :
    namesOwn event h query := by
  intro noted
  rw [unnoted] at noted
  cases noted

/-- A query that leaves the kept values alone leaves the names there. -/
lemma Names.concat (names : Names event h) (query : Query) (reply : query.Reply)
    (other : query.isKeeping = false) : Names event (h ++ [⟨query, reply⟩]) := by
  intro keys
  rw [History.onKeys_concat, Query.onKeys_of_not_isKeeping other]
  exact names keys

/-- Whoever leaves the kept values alone writes all entries under the event's names. -/
lemma ensures_namesOwn_of_obeys {α : Type} {d : Dialogue α} (obeys : d.Obeys Rule.leavesKeys)
    (names : Names event h) :
    d.Ensures (namesOwn event) (fun h _ => Names event h) h :=
  obeys.ensures (fun _ query reply names other => names.concat query reply other)
    (fun _ _ names _ _ => names) names

variable (keyless : gateway.Obeys Rule.leavesKeys)
include keyless

/-- An event is processed under its own names, once its id is kept. -/
lemma ensures_namesOwn_process
    (identified : ∀ keys, (h.onKeys keys).value? .eventId = some event.recordedId) :
    (process gateway event).Ensures (namesOwn event) (fun h _ => Names event h) h := by
  unfold process
  split
  · rename_i finding found
    have names : Names event (h ++ [⟨.retain .findingName (.text finding.name), ()⟩]) := by
      intro keys
      rw [History.onKeys_concat]
      refine ⟨?_, fun other same => ?_⟩
      · exact (Keys.value?_retain_of_ne (by decide)).trans (identified keys)
      · rw [found] at same
        cases same
        exact Keys.value?_retain_self
    refine ⟨namesOwn_of_not_isNoted rfl, fun _ => ⟨fun _ => names, fun _ => ?_⟩⟩
    have noted := names.concat (.record (.received finding)) () rfl
    cases finding.state with
    | active =>
      refine ensures_namesOwn_of_obeys ?_ noted
      exact obeys_remediate Rule.isLenient_leavesKeys keyless (fun _ => rfl) (fun _ => rfl)
        (fun _ _ => rfl) finding
    | inactive =>
      refine ⟨fun _ => noted, fun _ => ?_⟩
      exact noted.concat (.record .inactive) () rfl
  · rename_i failure failed
    -- An event without a usable finding has no name to be kept.
    refine fun keys => ⟨identified keys, fun finding found => ?_⟩
    rw [failed] at found
    cases found

/-- An event is handled under its own names. -/
lemma ensures_namesOwn_handle (event : Event) :
    (handle gateway event).Ensures (namesOwn event) (fun _ _ => True) [] := by
  have identified (keys : Keys) : (History.onKeys [⟨.retain .eventId event.recordedId, ()⟩]
      keys).value? .eventId = some event.recordedId := Keys.value?_retain_self
  exact ensures_handle (namesOwn_of_not_isNoted rfl) (ensures_namesOwn_process keyless identified)
    (fun _ => namesOwn_of_not_isNoted rfl) (fun _ _ names _ => names.concat .pause () rfl)
    fun _ => namesOwn_of_not_isNoted rfl

omit keyless

/-! ### Side by side -/

/-- The handling of an event on its way. -/
structure Handling where
  event : Event
  run : Run
  rest : Attempt Unit

/-- A world, the handlings that are on their way in it, and all exchanges so far, each with the
number of the handling that it belongs to. -/
structure Reception where
  world : World
  handlings : List Handling
  turns : List (Nat × Exchange)

namespace Reception

/-- One move: an event arrives, a handling asks its next query, or something happens.  A query that
is awaited may get any reply. -/
inductive Move where
  | arrive (event : Event) (run : Run)
  | turn (number : Nat) (awaited : (query : Query) → query.Reply)
  | act (action : Action)

/-- The reception before any event has arrived. -/
def opening (w : World) : Reception :=
  ⟨w, [], []⟩

/-- An event arrives, and its handling sets out. -/
def arrive (s : Reception) (event : Event) (run : Run) : Reception :=
  { s with handlings := s.handlings ++ [⟨event, run, handle s.world.gateway event⟩] }

/-- The reply that a query gets: the given one if it is awaited, and otherwise that of the world. -/
def replyTo (w : World) (run : Run) (query : Query) (awaited : query.Reply) : query.Reply :=
  if query.isAwaited then awaited else (w.answer run query).progress.reply?.getD awaited

/-- A handling asks its next query, unless it is done. -/
def proceed (s : Reception) (number : Nat) (h : Handling)
    (awaited : (query : Query) → query.Reply) : Reception :=
  match h.rest with
  | .done _ => s
  | .ask query next =>
      let answered := s.world.answer h.run query
      let reply := replyTo s.world h.run query (awaited query)
      ⟨answered.world, s.handlings.set number ⟨h.event, answered.run, next reply⟩,
        s.turns ++ [(number, ⟨query, reply⟩)]⟩

/-- A handling that asks goes on with the reply. -/
lemma proceed_of_ask {s : Reception} {number : Nat} {h : Handling} {query : Query}
    {next : query.Reply → Attempt Unit} (rest : h.rest = .ask query next)
    (awaited : (query : Query) → query.Reply) :
    s.proceed number h awaited =
      let answered := s.world.answer h.run query
      let reply := replyTo s.world h.run query (awaited query)
      ⟨answered.world, s.handlings.set number ⟨h.event, answered.run, next reply⟩,
        s.turns ++ [(number, ⟨query, reply⟩)]⟩ := by
  rw [proceed, rest]

/-- The reception after a move. -/
def move (s : Reception) : Move → Reception
  | .arrive event run => s.arrive event run
  | .turn number awaited =>
      match s.handlings[number]? with
      | some h => s.proceed number h awaited
      | none => s
  | .act action => { s with world := s.world.act action }

/-- The reception after several moves. -/
def play (s : Reception) (moves : List Move) : Reception :=
  moves.foldl move s

/-! ### What one handling and the journal have come to -/

/-- The exchanges of one handling. -/
def heardBy (number : Nat) (turns : List (Nat × Exchange)) : History :=
  (turns.filter fun turn => turn.1 = number).map (·.2)

/-- The handling with a number has come where it is from a dialogue, through its own exchanges among
those since a start, and the journal keeps what all of them left. -/
structure IsUnderway (start : Reception) (number : Nat) (d : Attempt Unit)
    (later : List (Nat × Exchange)) (s : Reception) : Prop where
  turns : s.turns = start.turns ++ later
  keys : s.world.keys = History.onKeys (later.map (·.2)) start.world.keys
  handling : ∃ h, s.handlings[number]? = some h ∧ d.Reaches (heardBy number later) h.rest

variable {start s : Reception} {number : Nat} {d : Attempt Unit}
  {later : List (Nat × Exchange)}

/-- A handling sets out when its event arrives. -/
lemma isUnderway_arrive (s : Reception) (event : Event) (run : Run) :
    IsUnderway s s.handlings.length (handle s.world.gateway event) [] (s.arrive event run) :=
  ⟨(List.append_nil _).symm, rfl, _, List.getElem?_concat_length, .here _⟩

/-- An exchange takes the handling that it belongs to further, and the journal with it. -/
lemma IsUnderway.proceed (underway : IsUnderway start number d later s) {other : Nat}
    {h : Handling} (found : s.handlings[other]? = some h)
    (awaited : (query : Query) → query.Reply) :
    ∃ later, IsUnderway start number d later (s.proceed other h awaited) := by
  cases rest : h.rest with
  | done result =>
    refine ⟨later, ?_⟩
    rw [Reception.proceed, rest]
    exact underway
  | ask query next =>
    let reply := replyTo s.world h.run query (awaited query)
    refine ⟨later ++ [(other, ⟨query, reply⟩)], ?_⟩
    rw [proceed_of_ask rest]
    have keys : (s.world.answer h.run query).world.keys = query.onKeys s.world.keys :=
      congrArg Prod.fst (World.notes_answer query)
    refine ⟨?_, ?_, ?_⟩
    · show s.turns ++ _ = _
      rw [underway.turns, List.append_assoc]
    · show (s.world.answer h.run query).world.keys = _
      rw [keys, underway.keys, List.map_append]
      exact (History.onKeys_concat _ ⟨query, reply⟩ _).symm
    · obtain ⟨own, there, reach⟩ := underway.handling
      -- Its own exchange takes the handling further; that of another one passes it by.
      by_cases same : other = number
      · subst same
        obtain rfl : h = own := Option.some.inj (found.symm.trans there)
        rw [rest] at reach
        have inside : other < s.handlings.length := (List.getElem?_eq_some_iff.mp found).1
        refine ⟨_, List.getElem?_set_self inside, ?_⟩
        simpa [heardBy] using reach.concat reply
      · refine ⟨own, ?_, ?_⟩
        · rw [List.getElem?_set_ne same]
          exact there
        · simpa [heardBy, same] using reach

/-- A handling stays underway, whatever move is made. -/
lemma IsUnderway.move (underway : IsUnderway start number d later s) (m : Move) :
    ∃ later, IsUnderway start number d later (s.move m) := by
  cases m with
  | arrive event run =>
    obtain ⟨own, there, reach⟩ := underway.handling
    have inside : number < s.handlings.length := (List.getElem?_eq_some_iff.mp there).1
    refine ⟨later, underway.turns, underway.keys, own, ?_, reach⟩
    exact (List.getElem?_append_left inside).trans there
  | act action =>
    have keys : (s.world.act action).keys = s.world.keys :=
      congrArg Prod.fst (World.notes_act action)
    exact ⟨later, underway.turns, keys.trans underway.keys, underway.handling⟩
  | turn other awaited =>
    cases found : s.handlings[other]? with
    | none =>
      rw [Reception.move, found]
      exact ⟨later, underway⟩
    | some h =>
      rw [Reception.move, found]
      exact underway.proceed found awaited

/-- A handling stays underway, whatever moves are made. -/
lemma IsUnderway.play (underway : IsUnderway start number d later s) (moves : List Move) :
    ∃ later, IsUnderway start number d later (s.play moves) := by
  induction moves generalizing s later with
  | nil => exact ⟨later, underway⟩
  | cons m moves ih =>
    obtain ⟨more, next⟩ := underway.move m
    exact ih next

/-- Where nobody else changes what the journal keeps, it keeps what the handling left. -/
lemma onKeys_of_undisturbed
    (undisturbed : ∀ turn ∈ later, turn.2.query.isKeeping = true → turn.1 = number)
    (keys : Keys) :
    History.onKeys (later.map (·.2)) keys = (heardBy number later).onKeys keys := by
  induction later generalizing keys with
  | nil => rfl
  | cons turn later ih =>
    obtain ⟨first, others⟩ := List.forall_mem_cons.mp undisturbed
    by_cases own : turn.1 = number
    · have heard : heardBy number (turn :: later) = turn.2 :: heardBy number later := by
        simp [heardBy, own]
      rw [heard]
      exact ih others _
    · have heard : heardBy number (turn :: later) = heardBy number later := by
        simp [heardBy, own]
      have idle : turn.2.query.isKeeping = false :=
        Bool.eq_false_iff.mpr fun keeping => own (first keeping)
      rw [heard, ← ih others]
      show History.onKeys (later.map (·.2)) (turn.2.query.onKeys keys) = _
      rw [Query.onKeys_of_not_isKeeping idle]

/-! ### Whose names the entries carry -/

/-- **Entries and their events.**  An event arrives at a reception where any number of events may be
on their way, over a gateway that leaves the kept values alone, and any moves follow, among them the
arrival of others.  As long as nobody but its own handling retains or releases anything, each entry
that the handling writes when it asks its next query carries the id of its event, and the name of
its finding if the event carries one. -/
theorem entries_name_own_event (event : Event) (run : Run) (moves : List Move)
    (keyless : s.world.gateway.Obeys Rule.leavesKeys)
    (since : ((s.arrive event run).play moves).turns = s.turns ++ later)
    (undisturbed : ∀ turn ∈ later,
      turn.2.query.isKeeping = true → turn.1 = s.handlings.length)
    {h : Handling} {query : Query}
    (own : ((s.arrive event run).play moves).handlings[s.handlings.length]? = some h)
    (asked : h.rest.asked? = some query) :
    let w := ((s.arrive event run).play moves).world
    ∃ records, (w.answer h.run query).world.journal = w.journal ++ records ∧
      ∀ r ∈ records, Keys.value? r.keys .eventId = some event.recordedId ∧
        ∀ finding, Intake.finding event = .ok finding →
          Keys.value? r.keys .findingName = some (.text finding.name) := by
  intro w
  obtain ⟨all, underway⟩ := (isUnderway_arrive s event run).play moves
  obtain rfl : all = later := List.append_cancel_left (underway.turns.symm.trans since)
  obtain ⟨there, same, reach⟩ := underway.handling
  obtain rfl : there = h := Option.some.inj (same.symm.trans own)
  obtain ⟨next, rest⟩ := eq_ask_of_asked? asked
  rw [rest] at reach
  have noted : (w.answer there.run query).world.notes = _ := World.notes_answer query
  refine ⟨_, congrArg Prod.snd noted, fun r mem => ?_⟩
  obtain ⟨entry, written, rfl⟩ := List.mem_map.mp mem
  have names : Names event (heardBy s.handlings.length all) := by
    refine reach.asks_of_ensures (ensures_namesOwn_handle keyless event) ?_
    cases query with
    | record _ | configuration => rfl
    | _ => cases written
  have kept : w.keys = (heardBy s.handlings.length all).onKeys s.world.keys :=
    underway.keys.trans (onKeys_of_undisturbed undisturbed _)
  show Keys.value? w.keys .eventId = _ ∧ _
  rw [kept]
  exact names s.world.keys

/-! ### Two events -/

/-- A world in which the service never tells an organization. -/
def hangingWorld : World where
  library := World.plainWorld.library
  gateway := .service
  service := { organizations := [⟨[], .never⟩] }

/-- An event with an active finding. -/
def firstEvent : Event :=
  { World.activeEvent with id := some (.text "e1") }

/-- An event without data. -/
def secondEvent : Event :=
  ⟨some (.text "e2"), none, none⟩

/-- Replies that tell nothing. -/
def idly : (query : Query) → query.Reply
  | .record _ | .retain _ _ | .release _ | .pause => ()
  | .settings | .configuration | .invoke _ | .organization _ | .policy _ | .write _ _ _ =>
      .error .absent
  | .standing => .expired .absent
  | .call _ _ | .errand _ => .aborted .absent

/-- The second event is on its way: its id is kept. -/
def underwayReception : Reception :=
  (opening hangingWorld).play [.arrive secondEvent hangingWorld.newRun, .turn 0 idly]

/-- The first event arrives as well; the handling of the second one takes a turn in between, which
leaves alone what the journal keeps. -/
def besideReception : Reception :=
  (underwayReception.arrive firstEvent hangingWorld.newRun).play
    [.turn 1 idly, .turn 0 idly, .turn 1 idly]

/-- What is written next is about the finding of the first event, and it carries its id and its
name. -/
theorem entries_name_own_event_beside :
    underwayReception.world.gateway.Obeys Rule.leavesKeys ∧
      ∃ later h finding records, Intake.finding firstEvent = .ok finding ∧
        besideReception.turns = underwayReception.turns ++ later ∧
        (∀ turn ∈ later, turn.2.query.isKeeping = true → turn.1 = 1) ∧
        besideReception.handlings[1]? = some h ∧
        h.rest.asked? = some (.record (.received finding)) ∧
        (besideReception.world.answer h.run (.record (.received finding))).world.journal =
          besideReception.world.journal ++ records ∧
        ∀ r ∈ records, Keys.value? r.keys .eventId = some (.text "e1") ∧
          Keys.value? r.keys .findingName = some (.text finding.name) := by
  have keyless : underwayReception.world.gateway.Obeys Rule.leavesKeys :=
    Gateway.obeys_leavesKeys.2
  let finding : Finding := ⟨"f", "1", nonOrgMemberCategory, .active, "r", [], "t", "t"⟩
  obtain ⟨found, count, keepers, asks⟩ : Intake.finding firstEvent = .ok finding ∧
      underwayReception.handlings.length = 1 ∧
      (∀ turn ∈ besideReception.turns.drop underwayReception.turns.length,
        turn.2.query.isKeeping = true → turn.1 = 1) ∧
      (besideReception.handlings[1]?.bind fun h => h.rest.asked?) =
        some (.record (.received finding)) := by
    decide +kernel
  obtain ⟨later, underway⟩ :=
    (isUnderway_arrive underwayReception firstEvent hangingWorld.newRun).play
      [.turn 1 idly, .turn 0 idly, .turn 1 idly]
  have since := underway.turns
  have law := entries_name_own_event firstEvent hangingWorld.newRun
    [.turn 1 idly, .turn 0 idly, .turn 1 idly] keyless since
  have same : (underwayReception.arrive firstEvent hangingWorld.newRun).play
      [.turn 1 idly, .turn 0 idly, .turn 1 idly] = besideReception := by
    delta besideReception
    rfl
  rw [same] at law since
  rw [count] at law
  have undisturbed : ∀ turn ∈ later, turn.2.query.isKeeping = true → turn.1 = 1 := by
    rw [since, List.drop_left] at keepers
    exact keepers
  obtain ⟨h, own, asked⟩ := Option.bind_eq_some_iff.mp asks
  obtain ⟨records, journal, named⟩ := law undisturbed own asked
  exact ⟨keyless, later, h, finding, records, found, since, undisturbed, own, asked, journal,
    fun r mem => ⟨(named r mem).1, (named r mem).2 finding found⟩⟩

/-- While the first event waits for its organization, the second one is handled to its end.  When
the first one is aborted then, the only entry that is written is about its failure, and it carries
neither the id of the event nor the name of the finding. -/
theorem entry_without_name :
    let waiting := (hangingWorld.step (.event (.ok firstEvent))).1
    let overlapped := (waiting.step (.event (.ok secondEvent))).1
    let aborted := (overlapped.step (.act (.abort .absent))).1
    waiting.waiting.length = 1 ∧ overlapped.waiting.length = 1 ∧
      aborted.reports.map Prod.fst = [0] ∧
      (aborted.journal.drop overlapped.journal.length).map Record.keys = [[]] ∧
      Keys.value? [] .eventId ≠ some firstEvent.recordedId := by
  decide +kernel

end Reception

end Intake

end PolicyWarden
