import Mathlib.Tactic.Common
import PolicyWarden.Proofs.Intake.Acknowledgement
import PolicyWarden.Proofs.Intake.Overlap

/-!
# Events that are handled one after another

Where each handling is over before the next event arrives, the handlings do not share the values
that the journal keeps.  The last thing that a handling does is to release both of its keys, however
it ends (`ends_handle_release`), so the next one begins without them.  At any moment at most the
last handling is on its way, and the journal keeps what that one has left of a journal without names
(`Reception.IsInTurn`).  An event that carries no finding never retains a name, and so none of its
entries has one (`ensures_nameless_handle`).
-/

namespace PolicyWarden

open Dialogue

/-- The journal keeps neither the id of an event nor the name of a finding. -/
def Keys.IsNameless (keys : Keys) : Prop :=
  keys.value? .eventId = none ∧ keys.value? .findingName = none

instance (keys : Keys) : Decidable keys.IsNameless :=
  inferInstanceAs (Decidable (_ ∧ _))

namespace Intake

open Rehearsal

variable {event : Event} {gateway : Gateway} {h : History}

/-! ### One handling -/

/-- The last thing that is done is to release the keys. -/
lemma ends_wrapUp_release {result answered : Except Failure Unit}
    (ends : (wrapUp event result).Ends h answered) :
    ∃ past, h = past ++ [⟨.release keys, ()⟩] := by
  cases result with
  | ok _ => exact ⟨[], (ends_release_iff.mp ends).1⟩
  | error failure =>
    rw [wrapUp] at ends
    cases described : failureEntry event failure with
    | ok entry =>
      rw [described] at ends
      obtain ⟨_, rest, rfl, released⟩ := ends_ask_iff.mp ends
      obtain ⟨rfl, -⟩ := ends_release_iff.mp released
      exact ⟨[⟨.record entry, ()⟩], rfl⟩
    | error undescribed =>
      rw [described] at ends
      exact ⟨[], (ends_release_iff.mp ends).1⟩

/-- A handling ends with the release of its keys, however it ends. -/
lemma ends_handle_release {answered : Except Failure Unit}
    (ends : (handle gateway event).Ends h answered) :
    ∃ past, h = past ++ [⟨.release keys, ()⟩] := by
  obtain ⟨_, rest, rfl, onward⟩ := ends_ask_iff.mp ends
  obtain ⟨before, last, result, rfl, -, wrapped⟩ := ends_bind_iff.mp onward
  obtain ⟨past, rfl⟩ := ends_wrapUp_release wrapped
  exact ⟨⟨.retain .eventId event.recordedId, ()⟩ :: (before ++ past), by simp⟩

/-- After a handling the journal keeps no names, whatever it kept before. -/
lemma isNameless_of_ends_handle {answered : Except Failure Unit}
    (ends : (handle gateway event).Ends h answered) (keys : Keys) :
    (h.onKeys keys).IsNameless := by
  obtain ⟨past, rfl⟩ := ends_handle_release ends
  rw [History.onKeys_concat]
  exact ⟨Keys.value?_release_of_mem (by decide), Keys.value?_release_of_mem (by decide)⟩

/-- Entries are written only while the journal keeps no name of a finding, if it kept none in the
beginning. -/
def namelessFinding : Rule := fun h query =>
  query.isNoted = true → ∀ keys : Keys, keys.value? .findingName = none →
    (h.onKeys keys).value? .findingName = none

/-- Only the writing of an entry is ruled. -/
lemma namelessFinding_of_not_isNoted {query : Query} (silent : query.isNoted = false) :
    namelessFinding h query := by
  intro noted
  rw [silent] at noted
  cases noted

/-- An event that carries no finding is handled without the name of one. -/
lemma ensures_nameless_handle {failure : Failure} (unread : finding event = .error failure) :
    (handle gateway event).Ensures namelessFinding (fun _ _ => True) [] := by
  have failed : process gateway event = Attempt.fail failure := by rw [process, unread]
  let retained : Exchange := ⟨.retain .eventId event.recordedId, ()⟩
  have processed : (process gateway event).Ensures namelessFinding
      (fun h _ => h = [retained]) [retained] := by
    rw [failed]
    exact rfl
  refine ensures_handle (namelessFinding_of_not_isNoted rfl) processed
    (fun _ => namelessFinding_of_not_isNoted rfl) ?_ fun _ => namelessFinding_of_not_isNoted rfl
  rintro _ entry rfl - keys none
  -- Only the id was retained since, and that is another key.
  exact (Keys.value?_retain_of_ne (by decide)).trans none

namespace Reception

variable {s : Reception}

/-! ### In turn -/

/-- Every handling so far is over. -/
def IsIdle (s : Reception) : Prop :=
  ∀ h ∈ s.handlings, h.rest.asked? = none

instance (s : Reception) : Decidable s.IsIdle :=
  inferInstanceAs (Decidable (∀ h ∈ s.handlings, h.rest.asked? = none))

/-- Each event arrives when all handlings before it are over. -/
def OneByOne : Reception → List Move → Prop
  | _, [] => True
  | s, .arrive event run :: moves => s.IsIdle ∧ OneByOne (s.move (.arrive event run)) moves
  | s, m :: moves => OneByOne (s.move m) moves

instance decidableOneByOne : (s : Reception) → (moves : List Move) → Decidable (s.OneByOne moves)
  | _, [] => .isTrue trivial
  | s, .arrive event run :: moves =>
      have := decidableOneByOne (s.move (.arrive event run)) moves
      inferInstanceAs (Decidable (_ ∧ _))
  | s, .turn number awaited :: moves => decidableOneByOne (s.move (.turn number awaited)) moves
  | s, .act action :: moves => decidableOneByOne (s.move (.act action)) moves

/-- Before the first event, or while the last one is handled: all other handlings are over, and the
journal keeps what the last one has left of a journal without names. -/
inductive IsInTurn (s : Reception) : Prop
  | opened (none : s.handlings = []) (nameless : Keys.IsNameless s.world.keys)
  | handling {before : List Handling} {last : Handling} {gateway : Gateway} {heard : History}
      {keys : Keys} (handlings : s.handlings = before ++ [last])
      (silent : ∀ h ∈ before, h.rest.asked? = none) (nameless : keys.IsNameless)
      (kept : s.world.keys = heard.onKeys keys)
      (reach : (handle gateway last.event).Reaches heard last.rest)

/-- When every handling is over, the journal keeps no names. -/
lemma IsInTurn.isNameless (inTurn : s.IsInTurn) (idle : s.IsIdle) :
    Keys.IsNameless s.world.keys := by
  cases inTurn with
  | opened none nameless => exact nameless
  | @handling before last gateway heard keys handlings silent nameless kept reach =>
    have ended : last.rest.asked? = none := idle last (by simp [handlings])
    cases rest : last.rest with
    | done answered =>
      rw [rest] at reach
      rw [kept]
      exact isNameless_of_ends_handle reach keys
    | ask query next =>
      rw [rest] at ended
      cases ended

/-- An event that arrives when every handling is over is the last one then. -/
lemma IsInTurn.arrive (inTurn : s.IsInTurn) (idle : s.IsIdle) (event : Event) (run : Run) :
    (s.arrive event run).IsInTurn :=
  .handling rfl idle (inTurn.isNameless idle) rfl (.here _)

/-- A handling that is over makes no move. -/
lemma proceed_of_over {number : Nat} {h : Handling} (silent : h.rest.asked? = none)
    (awaited : (query : Query) → query.Reply) : s.proceed number h awaited = s := by
  cases rest : h.rest with
  | done result => rw [proceed, rest]
  | ask query next =>
    rw [rest] at silent
    cases silent

/-- A query of the last handling takes it further, and the journal with it. -/
lemma IsInTurn.proceed (inTurn : s.IsInTurn) {number : Nat} {h : Handling}
    (found : s.handlings[number]? = some h) (awaited : (query : Query) → query.Reply) :
    (s.proceed number h awaited).IsInTurn := by
  cases rest : h.rest with
  | done result =>
    rw [proceed_of_over (by rw [rest]; rfl)]
    exact inTurn
  | ask query next =>
    cases inTurn with
    | opened none nameless =>
      rw [none] at found
      cases found
    | @handling before last gateway heard keys handlings silent nameless kept reach =>
      -- The handlings before the last one are over, so it is the last one that asks.
      have position : number = before.length := by
        rw [handlings] at found
        rcases Nat.lt_trichotomy number before.length with inside | same | outside
        · rw [List.getElem?_append_left inside] at found
          have ended := silent h (List.mem_of_getElem? found)
          rw [rest] at ended
          cases ended
        · exact same
        · rw [List.getElem?_eq_none (by simpa using Nat.succ_le_of_lt outside)] at found
          cases found
      subst position
      obtain rfl : last = h := by
        rw [handlings, List.getElem?_concat_length] at found
        exact Option.some.inj found
      rw [proceed_of_ask rest]
      have noted : (s.world.answer last.run query).world.keys = query.onKeys s.world.keys :=
        congrArg Prod.fst (World.notes_answer query)
      rw [rest] at reach
      let reply := replyTo s.world last.run query (awaited query)
      let further : Handling := ⟨last.event, (s.world.answer last.run query).run, next reply⟩
      have handlings : s.handlings.set before.length further = before ++ [further] := by
        rw [handlings]
        simp
      have kept : (s.world.answer last.run query).world.keys =
          History.onKeys (heard ++ [⟨query, reply⟩]) keys := by
        rw [noted, kept, History.onKeys_concat]
      exact .handling handlings silent nameless kept (reach.concat reply)

/-- Whatever move is made, the handlings stay in turn. -/
lemma IsInTurn.move (inTurn : s.IsInTurn) (m : Move)
    (idle : ∀ event run, m = .arrive event run → s.IsIdle) : (s.move m).IsInTurn := by
  cases m with
  | arrive event run => exact inTurn.arrive (idle event run rfl) event run
  | act action =>
    have same : (s.world.act action).keys = s.world.keys :=
      congrArg Prod.fst (World.notes_act action)
    cases inTurn with
    | opened none nameless =>
      refine .opened none ?_
      show Keys.IsNameless (s.world.act action).keys
      rwa [same]
    | handling handlings silent nameless kept reach =>
      exact .handling handlings silent nameless (same.trans kept) reach
  | turn number awaited =>
    rw [Reception.move]
    cases found : s.handlings[number]? with
    | none => exact inTurn
    | some h => exact inTurn.proceed found awaited

/-- Whatever moves are made, the handlings stay in turn as long as no event arrives early. -/
lemma IsInTurn.play (inTurn : s.IsInTurn) {moves : List Move} (oneByOne : s.OneByOne moves) :
    (s.play moves).IsInTurn := by
  induction moves generalizing s with
  | nil => exact inTurn
  | cons m moves ih =>
    cases m with
    | arrive event run =>
      obtain ⟨idle, onward⟩ := oneByOne
      exact ih (inTurn.move _ fun _ _ _ => idle) onward
    | turn number awaited => exact ih (inTurn.move _ nofun) oneByOne
    | act action => exact ih (inTurn.move _ nofun) oneByOne

/-! ### Nothing is left behind -/

/-- **No names are left behind.**  Events are handled one after another, over any gateway, while
anything may happen in between and whatever is awaited gets any reply; in the beginning the journal
keeps no names.  Then it keeps neither the id of an event nor the name of a finding whenever all
handlings so far are over.  And if an event carries no finding, whatever is wrong with it, then none
of the entries that its handling writes when it asks its next query carries the name of one. -/
theorem no_names_left_behind (w : World) (nameless : Keys.IsNameless w.keys) (moves : List Move)
    (oneByOne : (opening w).OneByOne moves) :
    let s := (opening w).play moves
    (s.IsIdle → Keys.IsNameless s.world.keys) ∧
      ∀ (number : Nat) (h : Handling) query failure, s.handlings[number]? = some h →
        h.rest.asked? = some query → Intake.finding h.event = .error failure →
        ∃ records, (s.world.answer h.run query).world.journal = s.world.journal ++ records ∧
          ∀ r ∈ records, Keys.value? r.keys .findingName = none := by
  intro s
  have inTurn : s.IsInTurn := IsInTurn.play (.opened rfl nameless) oneByOne
  refine ⟨inTurn.isNameless, fun number h query failure found asked unread => ?_⟩
  have noted : (s.world.answer h.run query).world.notes = _ := World.notes_answer query
  refine ⟨_, congrArg Prod.snd noted, fun r mem => ?_⟩
  obtain ⟨entry, written, rfl⟩ := List.mem_map.mp mem
  show Keys.value? s.world.keys .findingName = none
  cases inTurn with
  | opened none _ =>
    rw [none] at found
    cases found
  | @handling before last gateway heard keys handlings silent nameless kept reach =>
    have own : last = h := by
      rw [handlings] at found
      rcases List.mem_append.mp (List.mem_of_getElem? found) with earlier | only
      · rw [silent h earlier] at asked
        cases asked
      · exact (List.mem_singleton.mp only).symm
    subst own
    obtain ⟨next, rest⟩ := eq_ask_of_asked? asked
    rw [rest] at reach
    rw [kept]
    refine reach.asks_of_ensures (ensures_nameless_handle unread) ?_ keys nameless.2
    cases query with
    | record _ | configuration => rfl
    | _ => cases written

/-- The first event is handled until its configuration cannot be loaded and it is given up, and then
the second one arrives and has been found to carry no data. -/
def movesInTurn : List Move :=
  .arrive firstEvent hangingWorld.newRun :: List.replicate 8 (.turn 0 idly) ++
    .arrive secondEvent hangingWorld.newRun :: List.replicate 2 (.turn 1 idly)

/-- Between the two events nothing is kept, and what is written next is about the second event and
carries no name of a finding. -/
theorem no_names_left_behind_after_failure :
    Keys.IsNameless hangingWorld.keys ∧ (opening hangingWorld).OneByOne movesInTurn ∧
      Keys.IsNameless ((opening hangingWorld).play (movesInTurn.take 9)).world.keys ∧
      ∃ h entry records, ((opening hangingWorld).play movesInTurn).handlings[1]? = some h ∧
        h.rest.asked? = some (.record entry) ∧ entry.level = .error ∧
        (((opening hangingWorld).play movesInTurn).world.answer h.run
          (.record entry)).world.journal =
            ((opening hangingWorld).play movesInTurn).world.journal ++ records ∧
        ∀ r ∈ records, Keys.value? r.keys .findingName = none := by
  have nameless : Keys.IsNameless hangingWorld.keys := by decide
  have unread : Intake.finding secondEvent =
      .error (.problem (.malformedPayload .noData) .absent) := by decide +kernel
  let entry : Entry := .malformed ⟨"MalformedPayloadError",
    "Pub/Sub message carries no data", false, some "parse", none, none⟩ none
  obtain ⟨oneByOne, early, idle, event, asks, level⟩ :
      (opening hangingWorld).OneByOne movesInTurn ∧
        (opening hangingWorld).OneByOne (movesInTurn.take 9) ∧
        ((opening hangingWorld).play (movesInTurn.take 9)).IsIdle ∧
        ((opening hangingWorld).play movesInTurn).handlings[1]?.map Handling.event =
          some secondEvent ∧
        (((opening hangingWorld).play movesInTurn).handlings[1]?.bind fun h => h.rest.asked?) =
          some (.record entry) ∧ entry.level = .error := by
    decide +kernel
  obtain ⟨h, own, asked⟩ := Option.bind_eq_some_iff.mp asks
  have same : h.event = secondEvent := by
    rw [own] at event
    exact Option.some.inj event
  obtain ⟨-, law⟩ := no_names_left_behind hangingWorld nameless movesInTurn oneByOne
  obtain ⟨records, journal, nameless'⟩ := law 1 h _ _ own asked (by rw [same]; exact unread)
  exact ⟨nameless, oneByOne, (no_names_left_behind hangingWorld nameless _ early).1 idle, h, entry,
    records, own, asked, level, journal, nameless'⟩

end Reception

end Intake

end PolicyWarden
