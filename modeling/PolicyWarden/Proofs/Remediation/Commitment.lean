import Mathlib.Tactic.Common
import PolicyWarden.Proofs.Rehearsal.Interleaving

/-!
# All or nothing

A remediation commits a policy at most once, and the commit is the last thing that can go wrong:
what follows it are entries of the journal and the outcome `updated`.  Whatever else comes of a
remediation, it has committed nothing, and the store is what others alone have made of it.

`ensures_commitment` says this of the history of a remediation over any gateway; the main statement
carries it over to the store of a world that the remediation has to itself.
-/

namespace PolicyWarden

/-! ### Histories without a commit -/

namespace History

variable {h : History}

/-- An operation commits what its own reply says. -/
@[simp]
lemma commits_operated (query : Query) (reply : query.Reply) :
    (h.operated query reply).commits = h.commits ++ History.commits [⟨query, reply⟩] := by
  rw [operated, commits_append]
  rfl

/-- A reading commits nothing. -/
@[simp]
lemma commits_hasRead (resource : Text) (read : VersionedPolicy) :
    (h.hasRead resource read).commits = h.commits := by
  rw [hasRead, commits_operated]
  exact List.append_nil _

/-- A look at the invocation commits nothing. -/
@[simp]
lemma commits_cleared (left : Option Nat) : (h.cleared left).commits = h.commits := by
  rw [cleared, commits_append]
  exact List.append_nil _

/-- Entries of the journal commit nothing. -/
@[simp]
lemma commits_recorded (resource : Text) (removals : List Removal) :
    (recorded resource removals).commits = [] := by
  induction removals with
  | nil => rfl
  | cons removal removals ih => exact ih

end History

namespace Remediation

/-! ### What a remediation commits -/

/-- One policy was committed and the outcome says so, or none was and no outcome says so. -/
def Committed (h : History) (result : Except Failure Outcome) : Prop :=
  (∃ outcome, result = .ok outcome ∧ outcome.status = .updated ∧ h.commits.length = 1) ∨
    (∀ outcome, result = .ok outcome → outcome.status ≠ .updated) ∧ h.commits = []

/-- A failure after which nothing was committed. -/
lemma committed_error {h : History} (none : h.commits = []) (failure : Failure) :
    Committed h (.error failure) :=
  .inr ⟨fun _ eq => (nomatch eq), none⟩

/-- Nothing is committed before a round begins, and a round that commits is the last one. -/
lemma roundsKeep_commitment (plan : Plan) (organization : Organization) :
    RoundsKeep plan organization (fun _ query => query.isPrompt = true) Committed
      (fun _ h => h.commits = []) where
  pause _ := rfl
  reading _ := rfl
  unread failure none := committed_error (by rw [History.commits_operated, none]; rfl) _
  compliant none _ := by
    refine ⟨rfl, fun _ => .inr ⟨?_, ?_⟩⟩
    · rintro outcome ⟨⟩ updated
      cases updated
    · rw [History.commits_append, History.commits_hasRead, none]
      rfl
  standing _ _ := rfl
  expired reason none _ := by
    refine committed_error ?_ _
    rw [History.commits_append, History.commits_hasRead, none]
    rfl
  writing _ _ _ := rfl
  written left none _ := by
    refine ensures_recordRemovals (fun _ _ _ _ => rfl) (.inl ⟨_, rfl, rfl, ?_⟩)
    rw [History.commits_append, History.commits_operated, History.commits_cleared,
      History.commits_hasRead, none, History.commits_recorded]
    rfl
  lost left failure none _ _ := by
    refine committed_error ?_ _
    rw [History.commits_operated, History.commits_cleared, History.commits_hasRead, none]
    rfl
  conflict left failure none _ _ _ := by
    refine ⟨rfl, ?_⟩
    rw [History.commits_append, History.commits_operated, History.commits_cleared,
      History.commits_hasRead, none]
    rfl

/-- A remediation never waits, and it commits what its result says. -/
lemma ensures_commitment (plan : Plan) :
    (execute .direct plan).Ensures (fun _ query => query.isPrompt = true) Committed [] := by
  refine ensures_execute (fun _ => ?_) (fun _ => rfl) (fun _ failure => ?_) (fun _ _ => rfl)
    (roundsKeep_commitment plan)
  · refine ⟨rfl, fun _ => .inr ⟨?_, rfl⟩⟩
    rintro outcome ⟨⟩ updated
    cases updated
  · exact committed_error rfl _

/-- A remediation is never left waiting. -/
lemma isPrompt_execute (plan : Plan) : (execute .direct plan).IsPrompt :=
  Dialogue.isPrompt_of_ensures (ensures_commitment plan)

/-! ### What becomes of the store -/

open Rehearsal

/-- **All or nothing.**  A remediation that has the world to itself comes to an end, and its own
writes and the actions of others are all that has happened to the store.  At most one write of its
own was accepted, and one was exactly if the outcome is `updated`; in any other case the store is
what the actions of others make of it. -/
theorem execute_commits_all_or_nothing (w : World) (plan : Plan) (direct : w.gateway = .direct)
    (calm : w.IsCalm) :
    ∃ result : Except Failure Outcome,
      let account := w.solo (execute .direct plan)
      let own := account.deeds.filterMap Deed.commit?
      let others := account.deeds.filter fun deed => deed.commit?.isNone
      w.step (.execute plan) = (account.world, .reported (result.map .outcome)) ∧
        account.world.desk.store = Deed.replay account.deeds w.desk.store ∧
        own.length ≤ 1 ∧
        (own.length = 1 ↔ ∃ outcome, result = .ok outcome ∧ outcome.status = .updated) ∧
        ((∀ outcome, result = .ok outcome → outcome.status ≠ .updated) →
          account.world.desk.store = Deed.replay others w.desk.store) := by
  obtain ⟨result, reached⟩ :
      ∃ result, (w.solo (execute .direct plan)).value? = some result :=
    World.exists_value_alone (isPrompt_execute plan)
  refine ⟨result, ?_⟩
  intro account own others
  have step : w.step (.execute plan) = (account.world, .reported (result.map .outcome)) := by
    show w.attempt (execute w.gateway plan) .outcome = _
    rw [direct]
    exact World.attempt_eq_solo calm reached .outcome
  have store : account.world.desk.store = Deed.replay account.deeds w.desk.store :=
    World.store_alone _
  have commits : own = account.history.commits := World.commits_alone reached
  have committed : Committed account.history result :=
    (World.reaches_alone reached).ends_of_ensures (ensures_commitment plan)
  refine ⟨step, store, ?_⟩
  rcases committed with ⟨outcome, eq, updated, one⟩ | ⟨other, none⟩
  · have single : own.length = 1 := by rw [commits, one]
    exact ⟨Nat.le_of_eq single, ⟨fun _ => ⟨outcome, eq, updated⟩, fun _ => single⟩,
      fun other => absurd updated (other outcome eq)⟩
  · rw [none] at commits
    have foreign : others = account.deeds := by
      refine List.filter_eq_self.mpr fun deed mem => ?_
      have nothing : deed.commit? = Option.none :=
        List.filterMap_eq_nil_iff.mp commits deed mem
      rw [nothing]
      rfl
    have few : own.length = 0 := by rw [commits, List.length_nil]
    refine ⟨by omega, ⟨fun one => by omega, ?_⟩, fun _ => by rw [foreign, store]⟩
    rintro ⟨outcome, eq, updated⟩
    exact absurd updated (other outcome eq)

/-- With one attempt a remediation loses its only write to somebody else, has noted it and committed
nothing; with two it writes again, commits what it purged and says so. -/
theorem execute_commits_all_or_nothing_contested :
    let lone : Plan := { plainPlan with writeAttempts := some (.whole 1) }
    let again : Plan := { plainPlan with writeAttempts := some (.whole 2) }
    let own (plan : Plan) : Nat :=
      ((Scene.contestedWorld.solo (execute .direct plan)).deeds.filterMap Deed.commit?).length
    let desk (plan : Plan) : StoreDesk := (Scene.contestedWorld.step (.execute plan)).1.desk
    (∃ result : Except Failure Outcome,
      (Scene.contestedWorld.step (.execute lone)).2 = .reported (result.map .outcome) ∧
        own lone = 0 ∧ ¬ (∃ outcome, result = .ok outcome ∧ outcome.status = .updated) ∧
        (desk lone).writes.length = 1 ∧
        (desk lone).store.stored lone.resource = ⟨Scene.foreignPolicy, 2⟩) ∧
      ∃ result : Except Failure Outcome,
        (Scene.contestedWorld.step (.execute again)).2 = .reported (result.map .outcome) ∧
          own again = 1 ∧ (∃ outcome, result = .ok outcome ∧ outcome.status = .updated) ∧
          (desk again).writes.length = 2 ∧
          (desk again).store.stored again.resource =
            ⟨(Scene.foreignPolicy.purge (again.allowance plainOrganization)).policy, 3⟩ := by
  intro lone again own desk
  constructor
  · have none : own lone = 0 := by decide +kernel
    obtain ⟨result, step, -, -, updated, -⟩ :=
      execute_commits_all_or_nothing Scene.contestedWorld lone rfl ⟨rfl, rfl⟩
    refine ⟨result, congrArg Prod.snd step, none, fun committed => ?_, by decide +kernel,
      by decide +kernel⟩
    exact absurd (none.symm.trans (updated.mpr committed)) (by decide)
  · have one : own again = 1 := by decide +kernel
    obtain ⟨result, step, -, -, updated, -⟩ :=
      execute_commits_all_or_nothing Scene.contestedWorld again rfl ⟨rfl, rfl⟩
    exact ⟨result, congrArg Prod.snd step, one, updated.mp one, by decide +kernel,
      by decide +kernel⟩

end Remediation

end PolicyWarden
