import Mathlib.Tactic.Common
import PolicyWarden.Proofs.Rehearsal.Account
import PolicyWarden.Proofs.Remediation.Discipline

/-!
# Remediations side by side

Any number of remediations work on the store of one world.  They take turns in any order, one query
at a time, and in between anything may happen to the world, as it may while a query is answered.

What a remediation has read stays vouched for: the store once was as it was read, and has only grown
since.  A write is accepted only under the version that the policy has at that moment, and a store
that has grown shows that version for no other policy.  So whatever the others do, a purge that is
committed was made from the very policy that it replaces.
-/

namespace PolicyWarden

namespace Rehearsal

/-! ### Scenes -/

/-- A remediation on its way: what it has heard so far, and how it goes on. -/
structure Participant where
  plan : Plan
  run : Run
  heard : History
  rest : Attempt Outcome

/-- A remediation that has heard nothing yet. -/
def Participant.fresh (plan : Plan) (run : Run) : Participant :=
  ⟨plan, run, [], Remediation.execute .direct plan⟩

/-- A remediation after its query was answered. -/
def Participant.hear (p : Participant) (query : Query) (next : query.Reply → Attempt Outcome)
    (answered : Answered query.Reply) : Participant :=
  match answered.progress.reply? with
  | some reply => ⟨p.plan, answered.run, p.heard ++ [⟨query, reply⟩], next reply⟩
  | none => { p with run := answered.run }

/-- A world and the remediations that are on their way in it. -/
structure Scene where
  world : World
  participants : List Participant

/-- One move: a remediation sets out, a remediation asks its next query, or something happens. -/
inductive Move where
  | setOut (plan : Plan) (run : Run)
  | turn (index : Nat)
  | act (action : Action)

namespace Scene

/-- The scene before any remediation has set out. -/
def opening (w : World) : Scene :=
  ⟨w, []⟩

/-- A remediation asks its next query, unless it is done. -/
def proceed (s : Scene) (index : Nat) (p : Participant) : Scene :=
  match p.rest with
  | .done _ => s
  | .ask query next =>
      let answered := s.world.answer p.run query
      ⟨answered.world, s.participants.set index (p.hear query next answered)⟩

/-- The scene after a move. -/
def move (s : Scene) : Move → Scene
  | .setOut plan run => { s with participants := s.participants ++ [.fresh plan run] }
  | .turn index =>
      match s.participants[index]? with
      | some p => s.proceed index p
      | none => s
  | .act action => { s with world := s.world.act action }

/-- The scene after several moves. -/
def play (s : Scene) (moves : List Move) : Scene :=
  moves.foldl move s

/-- The store in a scene. -/
abbrev store (s : Scene) : Store :=
  s.world.desk.store

/-! ### What is kept -/

end Scene

/-- The remediation has come where it is through what it has heard, and each policy that it has read
was once in the store, which has only grown since. -/
structure Participant.IsSound (p : Participant) (now : Store) : Prop where
  reaches : (Remediation.execute .direct p.plan).Reaches p.heard p.rest
  vouched : ∀ resource read, ⟨.policy resource, .ok read⟩ ∈ p.heard →
    ∃ past : Store, past.fetch resource = read ∧ past.Grows now

namespace Participant

variable {p : Participant} {s t : Store}

/-- A remediation that has heard nothing is sound. -/
lemma isSound_fresh (plan : Plan) (run : Run) : (fresh plan run).IsSound s := by
  refine ⟨.here _, fun resource read heard => ?_⟩
  cases heard

/-- What was once in the store has been there whatever happens later. -/
lemma IsSound.of_grows (sound : p.IsSound s) (grows : s.Grows t) : p.IsSound t := by
  refine ⟨sound.reaches, fun resource read heard => ?_⟩
  obtain ⟨past, eq, before⟩ := sound.vouched resource read heard
  exact ⟨past, eq, before.trans grows⟩

/-- A policy that is read is the one in the store. -/
lemma fetch_of_answer {w : World} {run : Run} {resource : Text} {read : VersionedPolicy}
    (replied : (w.answer run (.policy resource)).progress.reply? = some (.ok read)) :
    w.desk.store.fetch resource = read := by
  have told : (w.deskPolicy run resource).2 = .ok read := Option.some.inj replied
  rcases World.deskPolicy_cases w run resource with ⟨failure, -, eq⟩ | ⟨-, eq⟩
  · rw [eq] at told
    cases told
  · rw [eq] at told
    exact Except.ok.inj told

/-- A remediation whose query was answered is sound. -/
lemma IsSound.hear {w : World} (sound : p.IsSound w.desk.store) {query : Query}
    {next : query.Reply → Attempt Outcome} (rest : p.rest = .ask query next) :
    (p.hear query next (w.answer p.run query)).IsSound
      (w.answer p.run query).world.desk.store := by
  have grows : w.desk.store.Grows (w.answer p.run query).world.desk.store :=
    World.grows_answer query
  cases replied : (w.answer p.run query).progress.reply? with
  | none =>
    rw [Participant.hear, replied]
    exact ⟨sound.reaches, (sound.of_grows grows).vouched⟩
  | some reply =>
    rw [Participant.hear, replied]
    refine ⟨(rest ▸ sound.reaches).concat reply, fun resource read heard => ?_⟩
    rcases List.mem_append.mp heard with before | last
    · exact (sound.of_grows grows).vouched resource read before
    · cases List.mem_singleton.mp last
      exact ⟨w.desk.store, fetch_of_answer replied, grows⟩

end Participant

namespace Scene

variable {s : Scene}

/-- Every remediation in the scene is sound. -/
def IsSound (s : Scene) : Prop :=
  ∀ p ∈ s.participants, p.IsSound s.store

/-- A move makes the store grow and leaves every remediation sound. -/
lemma IsSound.move (sound : s.IsSound) (m : Move) :
    s.store.Grows (s.move m).store ∧ (s.move m).IsSound := by
  cases m with
  | setOut plan run =>
    refine ⟨Store.Grows.refl _, fun p mem => ?_⟩
    rcases List.mem_append.mp mem with old | new
    · exact sound p old
    · rw [List.mem_singleton.mp new]
      exact Participant.isSound_fresh plan run
  | act action =>
    have grows : s.store.Grows (s.world.act action).desk.store := by
      rw [World.store_act]
      exact action.grows_onStore _
    exact ⟨grows, fun p mem => (sound p mem).of_grows grows⟩
  | turn index =>
    cases found : s.participants[index]? with
    | none =>
      rw [Scene.move, found]
      exact ⟨Store.Grows.refl _, sound⟩
    | some p =>
      rw [Scene.move, found]
      cases rest : p.rest with
      | done result =>
        simp only [proceed, rest]
        exact ⟨Store.Grows.refl _, sound⟩
      | ask query next =>
        simp only [proceed, rest]
        have grows : s.store.Grows (s.world.answer p.run query).world.desk.store :=
          World.grows_answer query
        refine ⟨grows, fun q mem => ?_⟩
        rcases List.mem_or_eq_of_mem_set mem with old | rfl
        · exact (sound q old).of_grows grows
        · exact (sound p (List.mem_of_getElem? found)).hear rest

/-- Any number of moves make the store grow and leave every remediation sound. -/
lemma IsSound.play (sound : s.IsSound) (moves : List Move) :
    s.store.Grows (s.play moves).store ∧ (s.play moves).IsSound := by
  induction moves generalizing s with
  | nil => exact ⟨Store.Grows.refl _, sound⟩
  | cons m moves ih =>
    obtain ⟨grows, kept⟩ := sound.move m
    obtain ⟨grows', kept'⟩ := ih kept
    exact ⟨grows.trans grows', kept'⟩

@[simp]
lemma play_append (moves others : List Move) :
    s.play (moves ++ others) = (s.play moves).play others :=
  List.foldl_append

/-- In the opening scene there is nobody who could be wrong. -/
lemma isSound_opening (w : World) : (opening w).IsSound := by
  intro p mem
  cases mem

/-! ### Commits -/

/-- The next query of a remediation is a write, and the store is going to accept it. -/
structure Commits (s : Scene) (p : Participant) (write : RecordedWrite) : Prop where
  asked : p.rest.asked? = some (.write write.resource write.policy write.version)
  accepted : (s.world.deskWrite p.run write.resource write.policy write.version).2 = .ok ()

variable {p : Participant} {write : RecordedWrite}

/-- The store when a write is looked at; everybody who was to act before that has acted. -/
abbrev storeAtCheck (s : Scene) (write : RecordedWrite) : Store :=
  (s.world.atCheck write).desk.store

/-- A write that is accepted names the version that the policy has. -/
lemma Commits.version_eq (commits : s.Commits p write) :
    Store.version ((s.storeAtCheck write).stored write.resource).etag = write.version :=
  (World.deskWrite_of_accepted commits.accepted).1

/-- A write that is accepted gives the resource its policy, and that is all. -/
lemma Commits.store_turn (commits : s.Commits p write) {index : Nat}
    (present : s.participants[index]? = some p) :
    (s.move (.turn index)).store = (s.storeAtCheck write).put write.resource write.policy := by
  obtain ⟨next, rest⟩ := Dialogue.eq_ask_of_asked? commits.asked
  have world : (s.move (.turn index)).world =
      (s.world.deskWrite p.run write.resource write.policy write.version).1 := by
    simp only [move, present, proceed, rest]
    rfl
  rw [store, world, (World.deskWrite_of_accepted commits.accepted).2]
  rfl

/-- What a sound remediation has read last, purged and commits is what the store has when the write
is looked at. -/
lemma Commits.of_last_read (commits : s.Commits p write) (sound : p.IsSound s.store) :
    ∃ organization read, ∃ past : Store,
      ⟨.organization p.plan.organizationId, .ok organization⟩ ∈ p.heard ∧
      p.heard.calls.getLast? = some ⟨.policy write.resource, .ok read⟩ ∧
      write.version = read.version ∧
      write.policy = (read.policy.purge (p.plan.allowance organization)).policy ∧
      past.fetch write.resource = read ∧ past.Grows s.store := by
  obtain ⟨next, rest⟩ := Dialogue.eq_ask_of_asked? commits.asked
  have reaches := sound.reaches
  rw [rest] at reaches
  obtain ⟨-, -, -, organization, read, -, shown, last, -, version, policy, -⟩ :=
    reaches.asks_of_ensures (Remediation.ensures_orders p.plan) rfl
  have heard {exchange : Exchange} (call : exchange ∈ p.heard.calls) : exchange ∈ p.heard :=
    (List.mem_filter.mp call).1
  obtain ⟨past, fetched, grows⟩ :=
    sound.vouched _ _ (heard (List.mem_of_getLast? last))
  exact ⟨organization, read, past, heard (List.mem_of_head? shown), last, version, policy, fetched,
    grows⟩

/-- **No lost update.**  Whenever a remediation commits a policy, in whatever order it and others
have taken their turns and whatever else has happened, the policy is the purge of the one that it
replaces, under the next tag.  It was read last of all, and in every scene since then the resource
has had the very policy and tag that it has at the moment of the commit. -/
theorem commit_overwrites_no_change (w : World) (moves : List Move) (index : Nat) (p : Participant)
    (write : RecordedWrite)
    (present : ((opening w).play moves).participants[index]? = some p)
    (commits : ((opening w).play moves).Commits p write) :
    let before := ((opening w).play moves).storeAtCheck write
    let after := ((opening w).play (moves ++ [.turn index])).store
    ∃ organization read,
      ⟨.organization p.plan.organizationId, .ok organization⟩ ∈ p.heard ∧
      p.heard.calls.getLast? = some ⟨.policy write.resource, .ok read⟩ ∧
      read = before.fetch write.resource ∧
      write.policy =
        ((before.stored write.resource).policy.purge (p.plan.allowance organization)).policy ∧
      after.stored write.resource =
        ⟨write.policy, (before.stored write.resource).etag + 1⟩ ∧
      (∀ other, other ≠ write.resource → after.stored other = before.stored other) ∧
      ∀ earlier later, moves = earlier ++ later →
        ∀ q, ((opening w).play earlier).participants[index]? = some q →
          ⟨.policy write.resource, .ok read⟩ ∈ q.heard →
            ((opening w).play earlier).store.stored write.resource =
              before.stored write.resource := by
  intro before after
  have sound (moves : List Move) : ((opening w).play moves).IsSound :=
    ((isSound_opening w).play moves).2
  have mem := List.mem_of_getElem? present
  obtain ⟨organization, read, past, shown, last, version, policy, fetched, grows⟩ :=
    commits.of_last_read (sound moves p mem)
  have checked : ((opening w).play moves).store.Grows before := World.grows_atCheck write
  -- The version that was read is still the one of the policy.
  have current : Store.version (before.stored write.resource).etag = read.version :=
    commits.version_eq.trans version
  have unchanged {earlier : Store} (was : earlier.fetch write.resource = read)
      (since : earlier.Grows before) :
      before.stored write.resource = earlier.stored write.resource :=
    since.stored_eq_of_version (by rw [current, was])
  have same := unchanged fetched (grows.trans checked)
  have eq : read = before.fetch write.resource := by
    rw [Store.fetch, same, ← Store.fetch, fetched]
  have stored : after = before.put write.resource write.policy := by
    show ((opening w).play (moves ++ [.turn index])).store = _
    rw [play_append]
    exact commits.store_turn present
  refine ⟨organization, read, shown, last, eq, ?_, ?_, ?_, ?_⟩
  · rw [policy, eq]
    rfl
  · rw [stored, Store.stored_put]
  · intro other ne
    rw [stored, Store.stored_put_of_ne before write.policy ne.symm]
  · intro earlier later split q there heard
    obtain ⟨first, was, since⟩ :=
      (sound earlier q (List.mem_of_getElem? there)).vouched _ _ heard
    have onward : ((opening w).play earlier).store.Grows before := by
      refine Store.Grows.trans ?_ checked
      rw [split, play_append]
      exact ((sound earlier).play later).1
    exact since.stored_eq_between onward (unchanged was (since.trans onward))

/-! ### Two remediations and somebody else -/

/-- A policy that somebody else puts in the place of another one. -/
def foreignPolicy : Policy :=
  ⟨[⟨"owner", ["user:b@c", "user:b@d"], []⟩], []⟩

/-- A world with an open invocation and a policy, which somebody replaces before the first write. -/
def contestedWorld : World :=
  let store := Store.empty.addOrganization Remediation.plainOrganization
  { timeline := { now := 0, invocations := [⟨some 60000, 60000, none⟩] }
    desk :=
      { store := store.put Remediation.plainPlan.resource Remediation.mixedPolicy
        beforeWrite := [[.putPolicy Remediation.plainPlan.resource foreignPolicy]] } }

/-- Two remediations take turns until both have met a conflict and are about to write again. -/
def contestedMoves : List Move :=
  let setOut : Move := .setOut Remediation.plainPlan { number := 0, invocation := some 0 }
  [setOut, setOut] ++ (List.replicate 15 [.turn 0, .turn 1]).flatten

/-- The first of two remediations to commit after a conflict overwrites no change. -/
theorem commit_overwrites_no_change_contested :
    ∃ p write organization,
      ((opening contestedWorld).play contestedMoves).participants[0]? = some p ∧
      ((opening contestedWorld).play contestedMoves).Commits p write ∧
      write.policy = (foreignPolicy.purge (p.plan.allowance organization)).policy ∧
      ((opening contestedWorld).play (contestedMoves ++ [.turn 0])).store.stored write.resource =
        ⟨write.policy, 3⟩ := by
  let purged := foreignPolicy.purge (Remediation.plainPlan.allowance Remediation.plainOrganization)
  let write : RecordedWrite := ⟨Remediation.plainPlan.resource, purged.policy, "2"⟩
  obtain ⟨p, present, commits⟩ : ∃ p,
      ((opening contestedWorld).play contestedMoves).participants[0]? = some p ∧
        ((opening contestedWorld).play contestedMoves).Commits p write := by
    refine ⟨_, rfl, ?_, ?_⟩
    · rfl
    · decide +kernel
  obtain ⟨organization, read, -, -, -, policy, stored, -⟩ :=
    commit_overwrites_no_change contestedWorld contestedMoves 0 p write present commits
  exact ⟨p, write, organization, present, commits, policy, stored⟩

end Scene

end Rehearsal

end PolicyWarden
