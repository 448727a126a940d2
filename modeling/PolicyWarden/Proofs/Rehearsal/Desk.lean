import Mathlib.Tactic.Common
import PolicyWarden.Proofs.Store.Growth
import PolicyWarden.Rehearsal.Answering

/-!
# What happens at the desk

The desk of a world keeps the store together with the writers that act when a policy has been read
or is about to be written.  This file says once what becomes of the store when a query is answered:
an operation that is not let in leaves it alone, a reading lets the others act afterwards, and a
write lets them act before it is looked at, so that it is judged by the store that they leave.

`World.deeds` lists what a query brings about, the deeds of others apart from those of the run that
asks it.  The store after the query is what these deeds make of it (`store_answer`), and so it has
grown (`grows_answer`).
-/

namespace PolicyWarden

namespace Rehearsal

/-! ### Actions -/

/-- What an action makes of a store. -/
def Action.onStore : Action → Store → Store
  | .putPolicy resource policy, s => s.put resource policy
  | .addOrganization organization, s => s.addOrganization organization
  | .advance _, s | .stall _, s | .abort _, s | .breakDown _ _, s | .putFile _ _, s
  | .setEnvironment _, s | .clearConfigurations, s => s

/-- A store grows whatever happens. -/
lemma Action.grows_onStore (action : Action) (s : Store) : Store.Grows s (action.onStore s) := by
  cases action with
  | putPolicy resource policy => exact Store.grows_put s resource policy
  | addOrganization organization => exact Store.grows_addOrganization s organization
  | _ => exact Store.Grows.refl s

namespace World

variable {w : World}

/-- Waking runs up changes who waits and who is awake, and nothing else. -/
lemma exists_foldl_wakeInvocation (reason : Failure) (numbers : List Nat) (w : World) :
    ∃ waiting awake, numbers.foldl (wakeInvocation reason) w =
      { w with waiting := waiting, awake := awake } := by
  induction numbers generalizing w with
  | nil => exact ⟨_, _, rfl⟩
  | cons number numbers ih =>
    obtain ⟨waiting, awake, woken⟩ := ih (wakeInvocation reason w number)
    exact ⟨waiting, awake, woken⟩

/-- Time that passes changes the timeline, who waits and who is awake. -/
lemma exists_advance (w : World) (millis : Int) :
    ∃ waiting awake, w.advance millis =
      { w with timeline := w.timeline.advance millis, waiting := waiting, awake := awake } :=
  exists_foldl_wakeInvocation _ _ _

/-- An abort changes the timeline, who waits and who is awake. -/
lemma exists_abortNewest (w : World) (reason : Failure) :
    ∃ timeline waiting awake, w.abortNewest reason =
      { w with timeline := timeline, waiting := waiting, awake := awake } := by
  unfold abortNewest
  split
  · split <;> exact ⟨_, _, _, rfl⟩
  · exact ⟨_, _, _, rfl⟩

/-- While time passes the timers of the timeline fire. -/
lemma timeline_advance (w : World) (millis : Int) :
    (w.advance millis).timeline = w.timeline.advance millis := by
  obtain ⟨waiting, awake, later⟩ := w.exists_advance millis
  rw [later]

@[simp]
lemma desk_advance (millis : Int) : (w.advance millis).desk = w.desk := by
  obtain ⟨waiting, awake, later⟩ := w.exists_advance millis
  rw [later]

@[simp]
lemma desk_abortNewest (reason : Failure) : (w.abortNewest reason).desk = w.desk := by
  obtain ⟨timeline, waiting, awake, aborted⟩ := w.exists_abortNewest reason
  rw [aborted]

/-- The store after something happened. -/
lemma store_act (action : Action) : (w.act action).desk.store = action.onStore w.desk.store := by
  cases action <;> simp [act, Action.onStore, mapStore]

/-- The store after several things happened. -/
lemma store_actAll (actions : List Action) :
    (w.actAll actions).desk.store =
      actions.foldl (fun s action => action.onStore s) w.desk.store := by
  induction actions generalizing w with
  | nil => rfl
  | cons action actions ih =>
    rw [actAll, List.foldl_cons, List.foldl_cons, ← store_act]
    exact ih

/-! ### Operations of the store -/

/-- The world after an operation of the store was asked for. -/
def counted (w : World) (operation : Operation) : World :=
  { w with desk := { w.desk with calls := w.desk.calls ++ [operation] } }

/-- The world at the moment at which a write is looked at: it was asked for and noted, and the
others have acted. -/
def atCheck (w : World) (write : RecordedWrite) : World :=
  ((w.counted .write).noteWrite write).beforeWrite

/-- The failure with which an operation of the store is not let in, if there is one. -/
def refusal? (w : World) (run : Run) (operation : Operation) (stage : Stage) (resource : Text) :
    Option Failure :=
  match w.standing run with
  | .expired reason => some (Deadline.exceeded stage (some resource) reason)
  | .active _ => w.breakdown? operation

variable {run : Run} {resource version : Text} {policy : Policy}

/-- An operation is let in unless there is a refusal. -/
lemma enter_eq (operation : Operation) (stage : Stage) :
    w.enter run operation stage resource =
      (w.counted operation,
        match w.refusal? run operation stage resource with
        | some failure => .error failure
        | none => .ok ()) := by
  unfold enter refusal? counted
  cases w.standing run with
  | expired reason => rfl
  | active left => cases w.breakdown? operation <;> rfl

/-- What a store can do about a reading of a policy. -/
lemma deskPolicy_cases (w : World) (run : Run) (resource : Text) :
    (∃ failure, w.refusal? run .policy .fetchPolicy resource = some failure ∧
        w.deskPolicy run resource = (w.counted .policy, .error failure)) ∨
      w.refusal? run .policy .fetchPolicy resource = none ∧
        w.deskPolicy run resource =
          ((w.counted .policy).afterRead, .ok (w.desk.store.fetch resource)) := by
  rw [deskPolicy, enter_eq]
  cases w.refusal? run .policy .fetchPolicy resource with
  | some failure => exact .inl ⟨failure, rfl, rfl⟩
  | none => exact .inr ⟨rfl, rfl⟩

/-- What a store can do about a write: it does not let it in, it gives the resource the policy under
the next tag, or it finds another version than the one that was expected. -/
lemma deskWrite_cases (w : World) (run : Run) (resource : Text) (policy : Policy) (version : Text) :
    let check := w.atCheck ⟨resource, policy, version⟩
    (∃ failure, w.refusal? run .write .writePolicy resource = some failure ∧
        w.deskWrite run resource policy version = (w.counted .write, .error failure)) ∨
      w.refusal? run .write .writePolicy resource = none ∧
        (Store.version (check.desk.store.stored resource).etag = version ∧
            w.deskWrite run resource policy version =
              (check.mapStore fun s => s.put resource policy, .ok ()) ∨
          Store.version (check.desk.store.stored resource).etag ≠ version ∧
            w.deskWrite run resource policy version =
              (check, .error (.ofProblem (.concurrentModification resource)))) := by
  intro check
  rw [deskWrite, enter_eq]
  cases w.refusal? run .write .writePolicy resource with
  | some failure => exact .inl ⟨failure, rfl, rfl⟩
  | none =>
    refine .inr ⟨rfl, ?_⟩
    let ready := ((w.counted .write).noteWrite ⟨resource, policy, version⟩).beforeWrite
    dsimp only
    by_cases same : Store.version (check.desk.store.stored resource).etag = version
    · have accepted : ready.desk.store.write? resource policy version =
          some (check.desk.store.put resource policy) := if_pos same
      refine .inl ⟨same, ?_⟩
      rw [accepted]
      rfl
    · have declined : ready.desk.store.write? resource policy version = none := if_neg same
      refine .inr ⟨same, ?_⟩
      rw [declined]
      rfl

/-- A write that is accepted names the version that the policy has, and gives the resource its
policy. -/
lemma deskWrite_of_accepted (accepted : (w.deskWrite run resource policy version).2 = .ok ()) :
    let check := w.atCheck ⟨resource, policy, version⟩
    Store.version (check.desk.store.stored resource).etag = version ∧
      (w.deskWrite run resource policy version).1 =
        check.mapStore fun s => s.put resource policy := by
  rcases deskWrite_cases w run resource policy version with
    ⟨failure, -, eq⟩ | ⟨-, ⟨same, eq⟩ | ⟨-, eq⟩⟩
  · rw [eq] at accepted
    cases accepted
  · exact ⟨same, congrArg Prod.fst eq⟩
  · rw [eq] at accepted
    cases accepted

/-- What a store can do about a question for an organization. -/
lemma deskOrganization_cases (w : World) (run : Run) (id : Text) :
    let refusal? := w.refusal? run .organization .fetchOrganization (Organization.resourceName id)
    (∃ failure, refusal? = some failure ∧
        w.deskOrganization run id = (w.counted .organization, .error failure)) ∨
      refusal? = none ∧
        ((∃ organization, w.desk.store.organization? id = some organization ∧
            w.deskOrganization run id = (w.counted .organization, .ok organization)) ∨
          w.desk.store.organization? id = none ∧
            w.deskOrganization run id =
              (w.counted .organization, .error (unknownOrganization id))) := by
  intro refusal?
  rw [deskOrganization, enter_eq]
  cases refused :
      w.refusal? run .organization .fetchOrganization (Organization.resourceName id) with
  | some failure => exact .inl ⟨failure, refused, rfl⟩
  | none =>
    refine .inr ⟨refused, ?_⟩
    dsimp only
    cases found : (w.counted .organization).desk.store.organization? id with
    | some organization => exact .inl ⟨organization, found, rfl⟩
    | none => exact .inr ⟨found, rfl⟩

/-- Asking for an organization changes nothing but the list of what was asked for. -/
lemma deskOrganization_fst (w : World) (run : Run) (id : Text) :
    (w.deskOrganization run id).1 = w.counted .organization := by
  rcases deskOrganization_cases w run id with
    ⟨failure, -, eq⟩ | ⟨-, ⟨organization, -, eq⟩ | ⟨-, eq⟩⟩ <;> rw [eq]

/-- The others act on the store after a reading. -/
lemma store_afterRead :
    w.afterRead.desk.store =
      (w.desk.afterRead.headD []).foldl (fun s action => action.onStore s) w.desk.store :=
  store_actAll (w := { w with desk := { w.desk with afterRead := w.desk.afterRead.tail } }) _

/-- The others act on the store before a write is looked at. -/
lemma store_atCheck (write : RecordedWrite) :
    (w.atCheck write).desk.store =
      (w.desk.beforeWrite.headD []).foldl (fun s action => action.onStore s) w.desk.store := by
  let ready := (w.counted .write).noteWrite write
  exact store_actAll (w := { ready with
    desk := { ready.desk with beforeWrite := ready.desk.beforeWrite.tail } }) _

end World

/-! ### Deeds -/

/-- Something that is done while a query is answered: somebody else acts, or a write of the run that
asks the query is accepted. -/
inductive Deed where
  | others (action : Action)
  | own (resource : Text) (policy : Policy)
  deriving DecidableEq, Repr

namespace Deed

/-- What a deed makes of the store. -/
def onStore : Deed → Store → Store
  | others action, s => action.onStore s
  | own resource policy, s => s.put resource policy

/-- The store after some deeds. -/
def replay (deeds : List Deed) (s : Store) : Store :=
  deeds.foldl (fun s deed => deed.onStore s) s

@[simp]
lemma replay_append (deeds more : List Deed) (s : Store) :
    replay (deeds ++ more) s = replay more (replay deeds s) :=
  List.foldl_append

/-- The store after the deeds of others is the store after their actions. -/
@[simp]
lemma replay_map_others (actions : List Action) (s : Store) :
    replay (actions.map others) s = actions.foldl (fun s action => action.onStore s) s :=
  List.foldl_map

/-- A store grows whatever is done to it. -/
lemma grows_replay (deeds : List Deed) (s : Store) : Store.Grows s (replay deeds s) := by
  induction deeds generalizing s with
  | nil => exact Store.Grows.refl s
  | cons deed deeds ih =>
    refine Store.Grows.trans ?_ (ih _)
    cases deed with
    | others action => exact action.grows_onStore s
    | own resource policy => exact Store.grows_put s resource policy

end Deed

namespace World

variable {w : World} {run : Run}

/-- What is done when a policy is read. -/
def readingDeeds (w : World) (run : Run) (resource : Text) : List Deed :=
  match w.refusal? run .policy .fetchPolicy resource with
  | some _ => []
  | none => (w.desk.afterRead.headD []).map .others

/-- What is done when a policy is written. -/
def writingDeeds (w : World) (run : Run) (resource : Text) (policy : Policy) (version : Text) :
    List Deed :=
  match w.refusal? run .write .writePolicy resource with
  | some _ => []
  | none =>
      (w.desk.beforeWrite.headD []).map .others ++
        match (w.deskWrite run resource policy version).2 with
        | .ok _ => [.own resource policy]
        | .error _ => []

/-- What is done while a script is followed. -/
def scriptDeeds {α : Type} (script : Option (Script α)) : List Deed :=
  ((script.map Script.during).getD []).map .others

/-- What is done while a query of a run is answered. -/
def deeds (w : World) (run : Run) : Query → List Deed
  | .policy resource => w.readingDeeds run resource
  | .write resource policy version => w.writingDeeds run resource policy version
  | .call (.organization _) _ => scriptDeeds w.service.organizations.head?
  | .call (.policy _ _) _ => scriptDeeds w.service.policies.head?
  | .call (.write _) _ => scriptDeeds w.service.writes.head?
  | .errand _ => scriptDeeds run.errand
  | _ => []

/-- The store after a reading is what was done to it. -/
lemma store_deskPolicy (resource : Text) :
    (w.deskPolicy run resource).1.desk.store =
      Deed.replay (w.readingDeeds run resource) w.desk.store := by
  unfold readingDeeds
  rcases deskPolicy_cases w run resource with ⟨failure, refused, eq⟩ | ⟨letIn, eq⟩
  · rw [eq, refused]
    rfl
  · rw [eq, letIn, Deed.replay_map_others]
    exact store_afterRead

/-- The store after a write is what was done to it. -/
lemma store_deskWrite (resource : Text) (policy : Policy) (version : Text) :
    (w.deskWrite run resource policy version).1.desk.store =
      Deed.replay (w.writingDeeds run resource policy version) w.desk.store := by
  unfold writingDeeds
  rcases deskWrite_cases w run resource policy version with
    ⟨failure, refused, eq⟩ | ⟨letIn, ⟨-, eq⟩ | ⟨-, eq⟩⟩
  · rw [eq, refused]
    rfl
  · rw [eq, letIn, Deed.replay_append, Deed.replay_map_others]
    rw [← store_atCheck (w := w) ⟨resource, policy, version⟩]
    rfl
  · rw [eq, letIn, Deed.replay_append, Deed.replay_map_others]
    rw [← store_atCheck (w := w) ⟨resource, policy, version⟩]
    rfl

/-- The store after a script is what was done to it. -/
lemma store_perform {α : Type} (script : Option (Script α)) :
    (w.perform run script).world.desk.store =
      Deed.replay (scriptDeeds script) w.desk.store := by
  unfold scriptDeeds
  rw [Deed.replay_map_others]
  cases script with
  | none => rfl
  | some script => exact store_actAll script.during

/-- An errand leaves the desk as its script does. -/
lemma desk_runErrand : (w.runErrand run).world.desk = (w.perform run run.errand).world.desk := by
  unfold runErrand
  dsimp only
  split <;> rfl

/-- Opening an invocation leaves the desk alone. -/
lemma desk_invoke (timeout : Number) : (w.invoke timeout).1.desk = w.desk := by
  unfold invoke
  split <;> rfl

/-- The store after a query is what was done to it. -/
theorem store_answer (query : Query) :
    (w.answer run query).world.desk.store = Deed.replay (w.deeds run query) w.desk.store := by
  cases query with
  | policy resource => exact store_deskPolicy resource
  | write resource policy version => exact store_deskWrite resource policy version
  | organization id => exact congrArg (·.desk.store) (deskOrganization_fst w run id)
  | call call timeout =>
    have called (service : ServiceDesk) {α : Type} (script : Option (Script α)) :
        ({ w.noteCall call timeout with service := service }.perform run script).world.desk.store =
          Deed.replay (scriptDeeds script) w.desk.store :=
      store_perform (w := { w.noteCall call timeout with service := service }) script
    cases call with
    | organization id => exact called _ _
    | policy resource version => exact called _ _
    | write request => exact called _ _
  | errand timeout =>
    show (w.runErrand run).world.desk.store = _
    rw [desk_runErrand]
    exact store_perform _
  | invoke timeout => exact congrArg (·.store) (desk_invoke timeout)
  | _ => rfl

/-! ### Growth -/

/-- The store grows until a write is looked at. -/
lemma grows_atCheck (write : RecordedWrite) :
    Store.Grows w.desk.store (w.atCheck write).desk.store := by
  rw [store_atCheck, ← Deed.replay_map_others]
  exact Deed.grows_replay _ _

/-- The store grows while a query is answered, whoever asks it. -/
theorem grows_answer (query : Query) :
    Store.Grows w.desk.store (w.answer run query).world.desk.store := by
  rw [store_answer]
  exact Deed.grows_replay _ _

end World

end Rehearsal

end PolicyWarden
