import PolicyWarden.Proofs.Json.Parts

/-!
# Repeated keys

A document may repeat a key inside an object.  When repetitions are settled, the key takes the value
of its last occurrence (`Json.last?_eq_some_iff`), itself settled (`Json.get?_unique`), and every key
is left once (`Json.nodup_keys_uniqueMembers`).  Where no key is repeated, what a key has does not
depend on the order of the members, so nothing changes when a record is walked
(`Json.lookup_inWalkOrder`).
-/

namespace PolicyWarden

namespace Json

variable {key : Text} {value v : Json} {members others done : Members}

/-! ### Finding a member -/

/-- A member is looked up as in any list of pairs. -/
lemma lookup_eq (key : Text) (members : Members) : lookup key members = members.lookup key := by
  induction members with
  | nil => rfl
  | cons member members ih =>
    obtain ⟨k, v⟩ := member
    rw [lookup, List.lookup_cons, ih]
    by_cases same : k = key
    · simp [same]
    · have other : (key == k) = false := beq_false_of_ne (Ne.symm same)
      rw [if_neg same, other]

/-- A key is not among the keys exactly if it differs from each of them. -/
lemma forall_bne_iff :
    (∀ member ∈ members, (key != member.1) = true) ↔ key ∉ members.map Prod.fst := by
  simp only [bne_iff_ne, List.mem_map, not_exists, not_and]
  exact forall₂_congr fun _ _ => ne_comm

/-- A key has no value exactly if it is not among the keys. -/
lemma lookup_eq_none_iff : lookup key members = none ↔ key ∉ members.map Prod.fst := by
  rw [lookup_eq, List.lookup_eq_none_iff, forall_bne_iff]

/-- Where no key is repeated, a key has the value of any of its members. -/
lemma lookup_eq_some_iff (distinct : (members.map Prod.fst).Nodup) :
    lookup key members = some value ↔ (key, value) ∈ members := by
  rw [lookup_eq, List.lookup_eq_some_iff]
  constructor
  · rintro ⟨before, after, rfl, -⟩
    exact List.mem_append_right before List.mem_cons_self
  · intro mem
    obtain ⟨before, after, rfl⟩ := List.append_of_mem mem
    refine ⟨before, after, rfl, fun member earlier => bne_iff_ne.mpr fun same => ?_⟩
    rw [List.map_append, List.map_cons] at distinct
    have apart := (List.nodup_append.mp distinct).2.2
    exact apart member.1 (List.mem_map_of_mem earlier) key List.mem_cons_self same.symm

/-- Where no key is repeated, a key has its value in any order of the members. -/
lemma lookup_eq_of_perm (distinct : (members.map Prod.fst).Nodup) (perm : members.Perm others) :
    lookup key members = lookup key others := by
  have distinct' : (others.map Prod.fst).Nodup := (perm.map Prod.fst).nodup_iff.mp distinct
  ext value
  rw [lookup_eq_some_iff distinct, lookup_eq_some_iff distinct', perm.mem_iff]

/-- A key has its value when a record is walked. -/
lemma lookup_inWalkOrder (distinct : (members.map Prod.fst).Nodup) :
    lookup key (inWalkOrder members) = lookup key members :=
  (lookup_eq_of_perm distinct (inWalkOrder_perm members).symm).symm

/-- If the members with one key are left out, all other keys keep what they have. -/
lemma lookup_filter_ne (other : Text) :
    lookup key (members.filter fun member => member.1 ≠ other)
      = if key = other then none else lookup key members := by
  induction members with
  | nil => simp [lookup]
  | cons member members ih =>
    obtain ⟨k, v⟩ := member
    by_cases left : k = other
    · rw [List.filter_cons_of_neg (by simp [left]), ih, lookup]
      split_ifs with same first
      · rfl
      · exact absurd (first.symm.trans left) same
      · rfl
    · rw [List.filter_cons_of_pos (by simp [left]), lookup, lookup, ih]
      split_ifs with first same
      · exact absurd (first.trans same) left
      · rfl
      · rfl
      · rfl

/-! ### The last member with a key -/

/-- The value of the last member with a key. -/
def last? (key : Text) (members : Members) : Option Json :=
  lookup key members.reverse

/-- Of two members with a key, the later one counts. -/
lemma last?_cons (k : Text) :
    last? key ((k, v) :: members) = (last? key members).or (if k = key then some v else none) := by
  rw [last?, List.reverse_cons, lookup_eq, List.lookup_append, ← lookup_eq, ← lookup_eq]
  rfl

/-- No member is the last one with a key exactly if the key is not among the keys. -/
lemma last?_eq_none_iff : last? key members = none ↔ key ∉ members.map Prod.fst := by
  rw [last?, lookup_eq_none_iff, List.map_reverse, List.mem_reverse]

/-- The last member with a key is one with this key behind which the key does not occur again. -/
theorem last?_eq_some_iff :
    last? key members = some value ↔
      ∃ before after, members = before ++ (key, value) :: after ∧ key ∉ after.map Prod.fst := by
  simp only [last?, lookup_eq, List.lookup_eq_some_iff, forall_bne_iff]
  constructor
  · rintro ⟨after, before, reversed, absent⟩
    refine ⟨before.reverse, after.reverse, ?_, ?_⟩
    · rw [← List.reverse_reverse members, reversed]
      simp
    · rwa [List.map_reverse, List.mem_reverse]
  · rintro ⟨before, after, rfl, absent⟩
    refine ⟨after.reverse, before.reverse, by simp, ?_⟩
    rwa [List.map_reverse, List.mem_reverse]

/-! ### Repetitions settled -/

/-- A key is among the keys after it was given a value, and so are the keys from before. -/
lemma mem_keys_put (other : Text) :
    other ∈ (put members key v).map Prod.fst ↔ other = key ∨ other ∈ members.map Prod.fst := by
  rw [← not_iff_not, not_or, ← lookup_eq_none_iff, ← lookup_eq_none_iff, lookup_put]
  split_ifs with same
  · simp [same]
  · simp [Ne.symm same]

/-- A key that is given a value is not repeated. -/
lemma nodup_keys_put (distinct : (members.map Prod.fst).Nodup) :
    ((put members key v).map Prod.fst).Nodup := by
  induction members with
  | nil => exact List.nodup_singleton key
  | cons member members ih =>
    obtain ⟨k, w⟩ := member
    obtain ⟨new, rest⟩ := List.nodup_cons.mp distinct
    rw [put]
    split_ifs with same
    · exact distinct
    · refine List.nodup_cons.mpr ⟨?_, ih rest⟩
      rw [mem_keys_put, not_or]
      exact ⟨same, new⟩

/-- Settled members have distinct keys. -/
lemma nodup_keys_uniqueMembers (distinct : (done.map Prod.fst).Nodup) :
    ((uniqueMembers done members).map Prod.fst).Nodup := by
  induction members generalizing done with
  | nil => exact distinct
  | cons member members ih => exact ih (nodup_keys_put distinct)

/-- A key has its last value, settled, and without one what it had before. -/
lemma lookup_uniqueMembers :
    lookup key (uniqueMembers done members)
      = ((last? key members).map unique).or (lookup key done) := by
  induction members generalizing done with
  | nil => rfl
  | cons member members ih =>
    obtain ⟨k, v⟩ := member
    rw [uniqueMembers, ih, lookup_put, last?_cons]
    cases last? key members with
    | some later => rfl
    | none => split_ifs <;> rfl

/-- The members of a settled value are the settled members of the value. -/
lemma members_unique : (unique v).members = uniqueMembers [] v.members := by
  cases v <;> rfl

/-- **The last one counts.**  A key of a settled value has the value of its last occurrence,
settled. -/
theorem get?_unique : (unique v).get? key = (last? key v.members).map unique := by
  rw [get?, members_unique, lookup_uniqueMembers]
  exact Option.or_none

end Json

end PolicyWarden
