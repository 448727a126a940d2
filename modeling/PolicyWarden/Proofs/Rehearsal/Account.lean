import Mathlib.Tactic.Common
import PolicyWarden.Proofs.Dialogue.History
import PolicyWarden.Proofs.Rehearsal.Desk
import PolicyWarden.Rehearsal.Step

/-!
# Accounts of single runs

While nobody else is awake or waiting, a run has the world to itself: other writers act only when a
query of it lets them.  An account says what such a run comes to, and keeps a list of the deeds that
changed the store, its own apart from those of others.  The world goes through a run exactly as the
account says (`follow_eq_alone`), the store is what the deeds make of it (`store_alone`), and the
run's own deeds are the writes that its history shows as accepted (`commits_alone`).
-/

namespace PolicyWarden

/-! ### Commits -/

/-- The resource and the policy of a write that was accepted. -/
def Exchange.commit? : Exchange → Option (Text × Policy)
  | ⟨.write resource policy _, .ok _⟩ => some (resource, policy)
  | _ => none

/-- The writes that were accepted. -/
def History.commits (h : History) : List (Text × Policy) :=
  h.filterMap Exchange.commit?

@[simp]
lemma History.commits_append (h k : History) : (h ++ k).commits = h.commits ++ k.commits :=
  List.filterMap_append

/-! ### Prompt dialogues -/

/-- A query that is never left waiting. -/
def Query.isPrompt : Query → Bool
  | .call _ _ | .errand _ => false
  | _ => true

namespace Dialogue

variable {α β : Type}

/-- A dialogue that asks no query that may be left waiting. -/
def IsPrompt : Dialogue α → Prop
  | done _ => True
  | ask query next => query.isPrompt = true ∧ ∀ reply, (next reply).IsPrompt

/-- A dialogue is prompt if each of its queries is, whatever else it ensures. -/
lemma isPrompt_of_ensures {d : Dialogue α} {ends : History → α → Prop} {h : History}
    (ensured : d.Ensures (fun _ query => query.isPrompt = true) ends h) : d.IsPrompt := by
  induction d generalizing h with
  | done value => trivial
  | ask query next ih => exact ⟨ensured.1, fun reply => ih reply (ensured.2 reply)⟩

/-- What follows a prompt dialogue may be prompt, too. -/
lemma IsPrompt.bind {d : Dialogue α} {next : α → Dialogue β} (prompt : d.IsPrompt)
    (onward : ∀ value, (next value).IsPrompt) : (d.bind next).IsPrompt := by
  induction d with
  | done value => exact onward value
  | ask query reply ih => exact ⟨prompt.1, fun r => ih r (prompt.2 r)⟩

/-- The value of a prompt dialogue may be waited for. -/
lemma IsPrompt.awaited {d : Dialogue α} (prompt : d.IsPrompt) : d.awaited.IsPrompt :=
  prompt.bind fun _ => ⟨rfl, fun _ => trivial⟩

/-- What follows a prompt attempt that succeeds may be prompt, too. -/
lemma IsPrompt.next {a : Attempt α} {f : α → Attempt β} (prompt : a.IsPrompt)
    (onward : ∀ value, (f value).IsPrompt) : (a.next f).IsPrompt := by
  refine prompt.bind fun result => ?_
  cases result with
  | ok value => exact onward value
  | error failure => trivial

/-- What a prompt dialogue asks, and what it goes on with, is prompt. -/
lemma IsPrompt.of_reaches {d e : Dialogue α} {h : History} (prompt : d.IsPrompt)
    (reach : d.Reaches h e) : e.IsPrompt ∧ ∀ exchange ∈ h, exchange.query.isPrompt = true := by
  induction reach with
  | here d => exact ⟨prompt, by simp⟩
  | ask reply rest ih =>
    obtain ⟨onward, others⟩ := ih (prompt.2 reply)
    exact ⟨onward, List.forall_mem_cons.mpr ⟨prompt.1, others⟩⟩

end Dialogue

namespace Rehearsal

/-- The resource and the policy of a write of the run itself. -/
def Deed.commit? : Deed → Option (Text × Policy)
  | others _ => none
  | own resource policy => some (resource, policy)

/-- The deeds of others contain no write of the run itself. -/
@[simp]
lemma Deed.filterMap_commit?_map_others (actions : List Action) :
    (actions.map others).filterMap commit? = [] := by
  induction actions with
  | nil => rfl
  | cons action actions ih => exact ih

/-- The reply that a query gets, now or later, unless it is left waiting. -/
def Progress.reply? {ρ : Type} : Progress ρ → Option ρ
  | .now reply | .soon reply | .later reply => some reply
  | .waits => none

/-! ### Accounts -/

/-- What a run comes to that has the world to itself: the world after it, what it has heard, what
was done, and the value that it reaches unless it is left waiting. -/
structure Account (α : Type) where
  world : World
  run : Run
  history : History
  deeds : List Deed
  value? : Option α

/-- The account of a run that has already heard something before. -/
def Account.after {α : Type} (a : Account α) (history : History) (deeds : List Deed) : Account α :=
  { a with history := history ++ a.history, deeds := deeds ++ a.deeds }

namespace World

variable {α β : Type} {w : World} {run : Run}

/-- The account of a run of a dialogue that has the world to itself. -/
def alone : Dialogue α → Run → World → Account α
  | .done value, run, w => ⟨w, run, [], [], some value⟩
  | .ask query next, run, w =>
      let answered := w.answer run query
      match answered.progress.reply? with
      | some reply =>
          (alone (next reply) answered.run answered.world).after [⟨query, reply⟩]
            (w.deeds run query)
      | none => ⟨answered.world, answered.run, [], w.deeds run query, none⟩

/-- A query that gets a reply is followed by what the dialogue goes on with. -/
lemma alone_ask {query : Query} {next : query.Reply → Dialogue α} {reply : query.Reply}
    (replied : (w.answer run query).progress.reply? = some reply) :
    alone (.ask query next) run w =
      (alone (next reply) (w.answer run query).run (w.answer run query).world).after
        [⟨query, reply⟩] (w.deeds run query) := by
  rw [alone, replied]

/-- A query that waits is the end of the account. -/
lemma alone_ask_of_waits {query : Query} {next : query.Reply → Dialogue α}
    (waits : (w.answer run query).progress.reply? = none) :
    alone (.ask query next) run w =
      ⟨(w.answer run query).world, (w.answer run query).run, [], w.deeds run query, none⟩ := by
  rw [alone, waits]

/-- What was heard and done before does not change the world that a run comes to. -/
@[simp]
lemma world_after (a : Account α) (history : History) (deeds : List Deed) :
    (a.after history deeds).world = a.world :=
  rfl

/-- A query whose reply does not matter leaves the world that it makes to what follows. -/
lemma world_alone_andThen {query : Query} {reply : query.Reply} {d : Dialogue α}
    (replied : (w.answer run query).progress.reply? = some reply) :
    (alone (.andThen query d) run w).world =
      (alone d (w.answer run query).run (w.answer run query).world).world := by
  rw [Dialogue.andThen, alone_ask replied, world_after]

/-- What follows a dialogue goes on where its account ends. -/
lemma alone_bind {d : Dialogue α} {next : α → Dialogue β} {value : α}
    (reached : (alone d run w).value? = some value) :
    alone (d.bind next) run w =
      (alone (next value) (alone d run w).run (alone d run w).world).after
        (alone d run w).history (alone d run w).deeds := by
  induction d generalizing run w with
  | done first =>
    obtain rfl : first = value := Option.some.inj reached
    rfl
  | ask query reply ih =>
    cases replied : (w.answer run query).progress.reply? with
    | none =>
      rw [alone_ask_of_waits replied] at reached
      cases reached
    | some r =>
      rw [alone_ask replied] at reached ⊢
      rw [Dialogue.bind_ask, alone_ask replied, ih r reached]
      simp [Account.after]

/-- The world after a dialogue that goes on with the value of another one. -/
lemma world_alone_bind {d : Dialogue α} {next : α → Dialogue β} {value : α}
    (reached : (alone d run w).value? = some value) :
    (alone (d.bind next) run w).world =
      (alone (next value) (alone d run w).run (alone d run w).world).world := by
  rw [alone_bind reached, world_after]

/-- The store is what the deeds make of it. -/
theorem store_alone (d : Dialogue α) :
    (alone d run w).world.desk.store = Deed.replay (alone d run w).deeds w.desk.store := by
  induction d generalizing run w with
  | done value => rfl
  | ask query next ih =>
    cases replied : (w.answer run query).progress.reply? with
    | none =>
      rw [alone_ask_of_waits replied]
      exact store_answer query
    | some reply =>
      rw [alone_ask replied, Account.after, Deed.replay_append, ← store_answer]
      exact ih reply

/-- What a dialogue has heard when it reaches a value. -/
theorem reaches_alone {d : Dialogue α} {value : α}
    (reached : (alone d run w).value? = some value) :
    d.Reaches (alone d run w).history (.done value) := by
  induction d generalizing run w with
  | done first =>
    obtain rfl : first = value := Option.some.inj reached
    exact .here _
  | ask query next ih =>
    cases replied : (w.answer run query).progress.reply? with
    | none =>
      rw [alone_ask_of_waits replied] at reached
      cases reached
    | some reply =>
      rw [alone_ask replied] at reached ⊢
      exact .ask reply (ih reply reached)

/-- A query brings about a write of the run itself exactly when it is a write that is accepted. -/
lemma commits_deeds {query : Query} {reply : query.Reply}
    (replied : (w.answer run query).progress.reply? = some reply) :
    (w.deeds run query).filterMap Deed.commit? = History.commits [⟨query, reply⟩] := by
  have scripted {σ : Type} (script : Option (Script σ)) :
      (scriptDeeds script).filterMap Deed.commit? = [] :=
    Deed.filterMap_commit?_map_others _
  cases query with
  | policy resource =>
    show (w.readingDeeds run resource).filterMap Deed.commit? = []
    unfold readingDeeds
    cases w.refusal? run .policy .fetchPolicy resource with
    | some failure => rfl
    | none => exact Deed.filterMap_commit?_map_others _
  | write resource policy version =>
    have told : (w.deskWrite run resource policy version).2 = reply := Option.some.inj replied
    show (w.writingDeeds run resource policy version).filterMap Deed.commit? = _
    unfold writingDeeds
    rcases deskWrite_cases w run resource policy version with
      ⟨failure, refused, eq⟩ | ⟨letIn, ⟨-, eq⟩ | ⟨-, eq⟩⟩
    · rw [eq] at told
      rw [refused, ← told]
      rfl
    · rw [eq] at told
      rw [letIn, eq, ← told, List.filterMap_append, Deed.filterMap_commit?_map_others]
      rfl
    · rw [eq] at told
      rw [letIn, eq, ← told, List.filterMap_append, Deed.filterMap_commit?_map_others]
      rfl
  | call call timeout => cases call <;> exact scripted _
  | errand timeout => exact scripted _
  | _ => rfl

/-- The writes of the run itself are those that its history shows as accepted. -/
theorem commits_alone {d : Dialogue α} {value : α}
    (reached : (alone d run w).value? = some value) :
    (alone d run w).deeds.filterMap Deed.commit? = (alone d run w).history.commits := by
  induction d generalizing run w with
  | done first => rfl
  | ask query next ih =>
    cases replied : (w.answer run query).progress.reply? with
    | none =>
      rw [alone_ask_of_waits replied] at reached
      cases reached
    | some reply =>
      rw [alone_ask replied] at reached ⊢
      rw [Account.after, List.filterMap_append, History.commits_append, ih reply reached,
        commits_deeds replied]

/-! ### Having the world to oneself -/

/-- Nobody is awake or waiting. -/
structure IsCalm (w : World) : Prop where
  awake : w.awake = []
  waiting : w.waiting = []

/-- Nobody wakes up where nobody waits. -/
lemma IsCalm.wake (calm : w.IsCalm) (chosen : Run → Bool)
    (reply? : (query : Query) → Option query.Reply) : (w.wake chosen reply?).IsCalm := by
  constructor
  · rw [World.wake, calm.awake, calm.waiting]
    rfl
  · rw [World.wake, calm.waiting]
    rfl

/-- A calm world stays calm whatever happens. -/
lemma IsCalm.act (calm : w.IsCalm) (action : Action) : (w.act action).IsCalm := by
  cases action with
  | advance millis =>
    have all (numbers : List Nat) {w : World} (calm : w.IsCalm) :
        (numbers.foldl (wakeInvocation timeoutReason) w).IsCalm := by
      induction numbers generalizing w with
      | nil => exact calm
      | cons number numbers ih => exact ih (calm.wake _ _)
    exact all _ ⟨calm.awake, calm.waiting⟩
  | abort reason =>
    show (w.abortNewest (abortReason reason)).IsCalm
    unfold abortNewest
    split
    · rename_i number _
      have raised : ({ w with timeline := w.timeline.abort number (abortReason reason) }).IsCalm :=
        ⟨calm.awake, calm.waiting⟩
      split
      · exact raised
      · exact raised.wake _ _
    · exact calm
  | _ => exact ⟨calm.awake, calm.waiting⟩

/-- A calm world stays calm whatever happens one after another. -/
lemma IsCalm.actAll (calm : w.IsCalm) (actions : List Action) : (w.actAll actions).IsCalm := by
  induction actions generalizing w with
  | nil => exact calm
  | cons action actions ih => exact ih (calm.act action)

/-- A calm world stays calm while a script is followed. -/
lemma IsCalm.perform (calm : w.IsCalm) {σ : Type} (script : Option (Script σ)) :
    (w.perform run script).world.IsCalm := by
  cases script with
  | none => exact calm
  | some script => exact calm.actAll script.during

/-- A calm world stays calm while a query is answered. -/
lemma IsCalm.answer (calm : w.IsCalm) (query : Query) : (w.answer run query).world.IsCalm := by
  have desk (d : StoreDesk) : ({ w with desk := d }).IsCalm := ⟨calm.awake, calm.waiting⟩
  cases query with
  | policy resource =>
    show (w.deskPolicy run resource).1.IsCalm
    rcases deskPolicy_cases w run resource with ⟨failure, -, eq⟩ | ⟨-, eq⟩ <;> rw [eq]
    · exact desk _
    · exact IsCalm.actAll (desk _) _
  | write resource policy version =>
    have check : (w.atCheck ⟨resource, policy, version⟩).IsCalm := IsCalm.actAll (desk _) _
    show (w.deskWrite run resource policy version).1.IsCalm
    rcases deskWrite_cases w run resource policy version with
      ⟨failure, -, eq⟩ | ⟨-, ⟨-, eq⟩ | ⟨-, eq⟩⟩ <;> rw [eq]
    · exact desk _
    · exact ⟨check.awake, check.waiting⟩
    · exact check
  | organization id =>
    show (w.deskOrganization run id).1.IsCalm
    rw [deskOrganization_fst]
    exact desk _
  | call call timeout =>
    have served (service : ServiceDesk) :
        ({ w.noteCall call timeout with service := service }).IsCalm :=
      ⟨calm.awake, calm.waiting⟩
    cases call <;> exact (served _).perform _
  | errand timeout =>
    have performed : (w.perform run run.errand).world.IsCalm := calm.perform _
    show (w.runErrand run).world.IsCalm
    unfold runErrand
    dsimp only
    split
    · exact performed
    · exact performed
    · exact ⟨performed.awake, performed.waiting⟩
  | invoke timeout =>
    show (w.invoke timeout).1.IsCalm
    unfold invoke
    split
    · exact ⟨calm.awake, calm.waiting⟩
    · exact calm
  | _ => exact ⟨calm.awake, calm.waiting⟩

/-- A run that has the world to itself leaves it calm. -/
lemma IsCalm.alone (calm : w.IsCalm) (d : Dialogue α) : (alone d run w).world.IsCalm := by
  induction d generalizing run w with
  | done value => exact calm
  | ask query next ih =>
    have answered : (w.answer run query).world.IsCalm := calm.answer query
    cases replied : (w.answer run query).progress.reply? with
    | none =>
      rw [alone_ask_of_waits replied]
      exact answered
    | some reply =>
      rw [alone_ask replied]
      exact ih reply answered

/-- A calm world goes through a run that reaches a report as the account says. -/
theorem follow_eq_alone (calm : w.IsCalm) {d : Dialogue Report} {report : Report}
    (reached : (World.alone d run w).value? = some report) :
    follow settle d run w = ((World.alone d run w).world, some report) := by
  induction d generalizing run w with
  | done first =>
    obtain rfl : first = report := Option.some.inj reached
    rfl
  | ask query next ih =>
    have answered : (w.answer run query).world.IsCalm := calm.answer query
    cases replied : (w.answer run query).progress.reply? with
    | none =>
      rw [alone_ask_of_waits replied] at reached
      cases reached
    | some reply =>
      rw [alone_ask replied] at reached ⊢
      have onward := ih reply answered reached
      -- Whenever the reply comes, nobody is there who could take a turn before.
      cases progress : (w.answer run query).progress with
      | now other =>
        rw [progress] at replied
        obtain rfl : other = reply := Option.some.inj replied
        rw [follow, progress]
        exact onward
      | soon other =>
        rw [progress] at replied
        obtain rfl : other = reply := Option.some.inj replied
        rw [follow, progress, turn_of_awake_eq_nil answered.awake]
        exact onward
      | later other =>
        rw [progress] at replied
        obtain rfl : other = reply := Option.some.inj replied
        rw [follow, progress, settle_of_awake_eq_nil answered.awake]
        exact onward
      | waits =>
        rw [progress] at replied
        cases replied

/-! ### Attempts that do not wait -/

/-- A prompt query gets a reply. -/
lemma exists_reply_answer {query : Query} (prompt : query.isPrompt = true) :
    ∃ reply, (w.answer run query).progress.reply? = some reply := by
  cases query with
  | call call timeout => cases prompt
  | errand timeout => cases prompt
  | _ => exact ⟨_, rfl⟩

/-- A prompt dialogue reaches a value. -/
lemma exists_value_alone {d : Dialogue α} (prompt : d.IsPrompt) :
    ∃ value, (World.alone d run w).value? = some value := by
  induction d generalizing run w with
  | done value => exact ⟨value, rfl⟩
  | ask query next ih =>
    obtain ⟨reply, replied⟩ : ∃ reply, (w.answer run query).progress.reply? = some reply :=
      exists_reply_answer prompt.1
    rw [alone_ask replied]
    exact ih reply (prompt.2 reply)

/-- The account of an attempt that is started under the newest invocation. -/
def solo (w : World) (a : Attempt α) : Account (Except Failure α) :=
  World.alone a { w.newRun with number := w.runs } { w with runs := w.runs + 1 }

/-- A run that is started in a calm world goes through it as the account says. -/
lemma start_eq_alone (calm : w.IsCalm) {d : Dialogue Report} {report : Report}
    (reached : (World.alone d { run with number := w.runs }
      { w with runs := w.runs + 1 }).value? = some report) :
    w.start run d =
      ((World.alone d { run with number := w.runs } { w with runs := w.runs + 1 }).world,
        some report) := by
  have started : ({ w with runs := w.runs + 1 }).IsCalm := ⟨calm.awake, calm.waiting⟩
  have ended : (World.alone d { run with number := w.runs }
      { w with runs := w.runs + 1 }).world.IsCalm := started.alone d
  unfold start
  dsimp only
  rw [follow_eq_alone started reached, settle_of_awake_eq_nil ended.awake]

/-- An attempt in a calm world is reported as the account says. -/
theorem attempt_eq_solo (calm : w.IsCalm) {a : Attempt α} {result : Except Failure α}
    (reached : (w.solo a).value? = some result) (give : α → Answer) :
    w.attempt a give = ((w.solo a).world, .reported (result.map give)) := by
  let d : Dialogue Report := Dialogue.map (fun result => result.map give) a
  have account : World.alone d { w.newRun with number := w.runs } { w with runs := w.runs + 1 } =
      { w.solo a with value? := some (result.map give) } := by
    refine (alone_bind reached).trans ?_
    simp [World.alone, Account.after, solo]
  have started := start_eq_alone calm (congrArg Account.value? account)
  rw [account] at started
  unfold attempt launch
  rw [started]

end World

end Rehearsal

end PolicyWarden
