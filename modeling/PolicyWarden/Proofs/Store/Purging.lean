import Mathlib.Tactic.Common
import PolicyWarden.Proofs.Policy.Compliance
import PolicyWarden.Store

/-!
# Purging a store

A purging gives a resource the purge of its policy, unless the policy complies already.  A second
purging under the same allowance finds a policy that complies, and purgings of different resources
do not meet.  So as long as each resource is only ever purged under one allowance, neither the order
nor the number of purgings matters: each resource that is purged at all is changed at most once
(`stored?_purgeAll_of_mem`).
-/

namespace PolicyWarden

/-! ### One resource -/

/-- What a purging makes of the policy of a resource. -/
def Stored.purged (a : Allowance) (stored? : Option Stored) : Option Stored :=
  let before := stored?.getD ⟨.empty, 0⟩
  if (before.policy.purge a).removals = [] then stored?
  else some ⟨(before.policy.purge a).policy, before.etag + 1⟩

/-- A second purging changes nothing. -/
lemma Stored.purged_purged (a : Allowance) (stored? : Option Stored) :
    purged a (purged a stored?) = purged a stored? := by
  unfold purged
  dsimp only
  by_cases clean : ((stored?.getD ⟨.empty, 0⟩).policy.purge a).removals = []
  · rw [if_pos clean, if_pos clean]
  · rw [if_neg clean]
    exact if_pos (Policy.removals_eq_nil_iff.mpr Policy.complies_purge)

namespace Store

variable {s : Store} {resource other : Text} {a : Allowance}

/-- A resource that was given a policy has that policy, and the others have what they had. -/
lemma stored?_put (s : Store) (resource other : Text) (policy : Policy) :
    (s.put resource policy).stored? other =
      if resource = other then some ⟨policy, (s.stored resource).etag + 1⟩
      else s.stored? other := by
  simp [stored?, put, find?_replace]

/-- The store after a purging of a resource. -/
def purgeAt (s : Store) (resource : Text) (a : Allowance) : Store :=
  let purge := (s.stored resource).policy.purge a
  if purge.removals = [] then s else s.put resource purge.policy

/-- A purging leaves a store alone in which the policy complies. -/
lemma purgeAt_of_complies (complies : (s.stored resource).policy.Complies a) :
    s.purgeAt resource a = s :=
  if_pos (Policy.removals_eq_nil_iff.mpr complies)

/-- A purging gives a resource whose policy does not comply the purge of it. -/
lemma purgeAt_of_not_complies (complies : ¬ (s.stored resource).policy.Complies a) :
    s.purgeAt resource a = s.put resource ((s.stored resource).policy.purge a).policy :=
  if_neg (mt Policy.removals_eq_nil_iff.mp complies)

/-- A purging changes its own resource only. -/
lemma stored?_purgeAt (s : Store) (resource other : Text) (a : Allowance) :
    (s.purgeAt resource a).stored? other =
      if resource = other then Stored.purged a (s.stored? other) else s.stored? other := by
  by_cases complies : (s.stored resource).policy.Complies a
  · rw [purgeAt_of_complies complies]
    by_cases same : resource = other
    · subst same
      rw [if_pos rfl]
      exact (if_pos (Policy.removals_eq_nil_iff.mpr complies)).symm
    · rw [if_neg same]
  · rw [purgeAt_of_not_complies complies, stored?_put]
    by_cases same : resource = other
    · subst same
      rw [if_pos rfl, if_pos rfl]
      exact (if_neg (mt Policy.removals_eq_nil_iff.mp complies)).symm
    · rw [if_neg same, if_neg same]

/-! ### Many purgings -/

/-- The store after several purgings. -/
def purgeAll (s : Store) (purgings : List (Text × Allowance)) : Store :=
  purgings.foldl (fun s purging => s.purgeAt purging.1 purging.2) s

lemma purgeAll_append (s : Store) (purgings more : List (Text × Allowance)) :
    s.purgeAll (purgings ++ more) = (s.purgeAll purgings).purgeAll more :=
  List.foldl_append

/-- Each resource is purged under one allowance only. -/
def Agree (purgings : List (Text × Allowance)) : Prop :=
  ∀ p ∈ purgings, ∀ q ∈ purgings, p.1 = q.1 → p.2 = q.2

/-- A resource that is not purged has what it had. -/
lemma stored?_purgeAll_of_not_mem {purgings : List (Text × Allowance)}
    (missing : ∀ p ∈ purgings, p.1 ≠ resource) :
    (s.purgeAll purgings).stored? resource = s.stored? resource := by
  induction purgings generalizing s with
  | nil => rfl
  | cons p rest ih =>
    rw [List.forall_mem_cons] at missing
    rw [purgeAll, List.foldl_cons, ← purgeAll, ih missing.2, stored?_purgeAt, if_neg missing.1]

/-- A resource that is purged at all has the purge of what it had, however often it is purged. -/
lemma stored?_purgeAll_of_mem {purgings : List (Text × Allowance)} (agree : Agree purgings)
    (mem : (resource, a) ∈ purgings) :
    (s.purgeAll purgings).stored? resource = Stored.purged a (s.stored? resource) := by
  induction purgings generalizing s with
  | nil => cases mem
  | cons p rest ih =>
    have agreeRest : Agree rest := fun q memq r memr =>
      agree q (List.mem_cons_of_mem p memq) r (List.mem_cons_of_mem p memr)
    have onto : p.1 = resource → p.2 = a := agree p List.mem_cons_self (resource, a) mem
    rw [purgeAll, List.foldl_cons, ← purgeAll]
    by_cases again : (resource, a) ∈ rest
    · rw [ih agreeRest again, stored?_purgeAt]
      by_cases same : p.1 = resource
      · rw [if_pos same, onto same, Stored.purged_purged]
      · rw [if_neg same]
    · have last : p = (resource, a) := (List.mem_cons.mp mem).resolve_right again |>.symm
      have missing : ∀ q ∈ rest, q.1 ≠ resource := by
        intro q memq same
        have allowance : q.2 = a :=
          agree q (List.mem_cons_of_mem p memq) (resource, a) mem same
        exact again (by rw [← same, ← allowance]; exact memq)
      rw [stored?_purgeAll_of_not_mem missing, stored?_purgeAt, last, if_pos rfl]

/-- Purgings that agree with each other may come in any order and any number. -/
lemma stored?_purgeAll_congr {purgings others : List (Text × Allowance)} (agree : Agree purgings)
    (same : ∀ p, p ∈ purgings ↔ p ∈ others) (resource : Text) :
    (s.purgeAll purgings).stored? resource = (s.purgeAll others).stored? resource := by
  have agreeOthers : Agree others := fun p memp q memq =>
    agree p ((same p).mpr memp) q ((same q).mpr memq)
  by_cases purged : ∃ a, (resource, a) ∈ purgings
  · obtain ⟨a, mem⟩ := purged
    rw [stored?_purgeAll_of_mem agree mem,
      stored?_purgeAll_of_mem agreeOthers ((same _).mp mem)]
  · have missing : ∀ p ∈ purgings, p.1 ≠ resource := by
      rintro ⟨r, a⟩ mem rfl
      exact purged ⟨a, mem⟩
    rw [stored?_purgeAll_of_not_mem missing,
      stored?_purgeAll_of_not_mem fun p mem => missing p ((same p).mpr mem)]

end Store

end PolicyWarden
