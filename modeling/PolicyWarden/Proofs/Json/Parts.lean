import Mathlib.Tactic.Common
import Mathlib.Data.List.Nodup
import PolicyWarden.Json.Basic

/-!
# Parts of a value

Facts about values are proved by one induction (`Json.induct`), in which a fact about an array or an
object follows from the same fact about its items or its members.  `Json.numbers` and
`Json.keyLists` collect what stands anywhere inside a value, and `Json.mapNumbers` puts other values
in the place of its numbers.

A value has distinct keys if no object inside it has a key twice.  Such a value is not changed by
`Json.unique` (`Json.HasDistinctKeys.unique_eq`).  The order in which a record is walked is an order
of its members (`Json.inWalkOrder_perm`) that depends on its keys alone
(`Json.inWalkOrder_mapMembers`).
-/

namespace PolicyWarden

namespace Json

/-! ### Induction -/

/-- What holds of a value if it holds of its items and members holds of all values. -/
@[elab_as_elim]
theorem induct {motive : Json → Prop} (null : motive .null) (bool : ∀ b, motive (.bool b))
    (number : ∀ n, motive (.number n)) (text : ∀ t, motive (.text t))
    (array : ∀ items, (∀ v ∈ items, motive v) → motive (.array items))
    (object : ∀ members : Members, (∀ member ∈ members, motive member.2) →
      motive (.object members)) (v : Json) : motive v :=
  match v with
  | .null => null
  | .bool b => bool b
  | .number n => number n
  | .text t => text t
  | .array items => array items fun v _ => induct null bool number text array object v
  | .object members => object members fun member mem =>
      have : sizeOf member.2 < sizeOf members := by
        have inside := List.sizeOf_lt_of_mem mem
        have part : sizeOf member.2 < sizeOf member := by
          obtain ⟨key, value⟩ := member
          simp only [Prod.mk.sizeOf_spec]
          omega
        omega
      induct null bool number text array object member.2

/-! ### Numbers -/

mutual

/-- The value with other values in the place of its numbers. -/
def mapNumbers (f : Number → Json) : Json → Json
  | number n => f n
  | array items => array (mapItems f items)
  | object members => object (mapMembers f members)
  | v => v

/-- Items with other values in the place of their numbers. -/
def mapItems (f : Number → Json) : List Json → List Json
  | [] => []
  | v :: items => mapNumbers f v :: mapItems f items

/-- Members with other values in the place of their numbers. -/
def mapMembers (f : Number → Json) : List (Text × Json) → Members
  | [] => []
  | (k, v) :: members => (k, mapNumbers f v) :: mapMembers f members
end

mutual

/-- The numbers anywhere in a value. -/
def numbers : Json → List Number
  | number n => [n]
  | array items => numbersOfItems items
  | object members => numbersOfMembers members
  | _ => []

/-- The numbers anywhere in the items of an array. -/
def numbersOfItems : List Json → List Number
  | [] => []
  | v :: items => numbers v ++ numbersOfItems items

/-- The numbers anywhere in the members of an object. -/
def numbersOfMembers : List (Text × Json) → List Number
  | [] => []
  | (_, v) :: members => numbers v ++ numbersOfMembers members
end

mutual

/-- The keys of every object anywhere in a value. -/
def keyLists : Json → List (List Text)
  | array items => keyListsOfItems items
  | object members => members.map Prod.fst :: keyListsOfMembers members
  | _ => []

/-- The keys of every object anywhere in the items of an array. -/
def keyListsOfItems : List Json → List (List Text)
  | [] => []
  | v :: items => keyLists v ++ keyListsOfItems items

/-- The keys of every object anywhere in the members of an object. -/
def keyListsOfMembers : List (Text × Json) → List (List Text)
  | [] => []
  | (_, v) :: members => keyLists v ++ keyListsOfMembers members
end

variable {f g : Number → Json} {v : Json} {items : List Json} {members : Members}

/-- Items are mapped one by one. -/
lemma mapItems_eq_map (f : Number → Json) (items : List Json) :
    mapItems f items = items.map (mapNumbers f) := by
  induction items with
  | nil => rfl
  | cons v items ih => rw [mapItems, ih, List.map_cons]

/-- Members are mapped one by one and keep their keys. -/
lemma mapMembers_eq_map (f : Number → Json) (members : Members) :
    mapMembers f members = members.map fun member => (member.1, mapNumbers f member.2) := by
  induction members with
  | nil => rfl
  | cons member members ih => rw [mapMembers, ih, List.map_cons]

/-- The numbers of the items are those of each of them. -/
lemma numbersOfItems_eq_flatMap (items : List Json) :
    numbersOfItems items = items.flatMap numbers := by
  induction items with
  | nil => rfl
  | cons v items ih => rw [numbersOfItems, ih, List.flatMap_cons]

/-- The numbers of the members are those of each of them. -/
lemma numbersOfMembers_eq_flatMap (members : Members) :
    numbersOfMembers members = members.flatMap fun member => numbers member.2 := by
  induction members with
  | nil => rfl
  | cons member members ih => rw [numbersOfMembers, ih, List.flatMap_cons]

/-- The keys in the items are those in each of them. -/
lemma keyListsOfItems_eq_flatMap (items : List Json) :
    keyListsOfItems items = items.flatMap keyLists := by
  induction items with
  | nil => rfl
  | cons v items ih => rw [keyListsOfItems, ih, List.flatMap_cons]

/-- The keys in the members are those in each of them. -/
lemma keyListsOfMembers_eq_flatMap (members : Members) :
    keyListsOfMembers members = members.flatMap fun member => keyLists member.2 := by
  induction members with
  | nil => rfl
  | cons member members ih => rw [keyListsOfMembers, ih, List.flatMap_cons]

/-- What holds of the numbers of an array holds of those of its items. -/
lemma forall_numbers_array {p : Number → Prop} (all : ∀ n ∈ (array items).numbers, p n) :
    ∀ v ∈ items, ∀ n ∈ v.numbers, p n := by
  intro v mem n inside
  refine all n ?_
  rw [numbers, numbersOfItems_eq_flatMap, List.mem_flatMap]
  exact ⟨v, mem, inside⟩

/-- What holds of the numbers of an object holds of those of its members. -/
lemma forall_numbers_object {p : Number → Prop} (all : ∀ n ∈ (object members).numbers, p n) :
    ∀ member ∈ members, ∀ n ∈ member.2.numbers, p n := by
  intro member mem n inside
  refine all n ?_
  rw [numbers, numbersOfMembers_eq_flatMap, List.mem_flatMap]
  exact ⟨member, mem, inside⟩

/-- Only the numbers that occur in a value count. -/
lemma mapNumbers_congr (same : ∀ n ∈ v.numbers, f n = g n) : v.mapNumbers f = v.mapNumbers g := by
  induction v using induct with
  | null | bool | text => rfl
  | number n => exact same n (by simp [numbers])
  | array items ih =>
    rw [mapNumbers, mapNumbers, mapItems_eq_map, mapItems_eq_map]
    exact congrArg array (List.map_congr_left fun v mem =>
      ih v mem (forall_numbers_array same v mem))
  | object members ih =>
    rw [mapNumbers, mapNumbers, mapMembers_eq_map, mapMembers_eq_map]
    exact congrArg object (List.map_congr_left fun member mem =>
      congrArg (member.1, ·) (ih member mem (forall_numbers_object same member mem)))

/-! ### Keys -/

/-- No object inside the value has a key twice. -/
def HasDistinctKeys (v : Json) : Prop :=
  ∀ keys ∈ v.keyLists, keys.Nodup

instance (v : Json) : Decidable v.HasDistinctKeys :=
  inferInstanceAs (Decidable (∀ keys ∈ v.keyLists, keys.Nodup))

/-- The items of an array with distinct keys have distinct keys. -/
lemma HasDistinctKeys.of_array (distinct : (array items).HasDistinctKeys) :
    ∀ v ∈ items, v.HasDistinctKeys := by
  intro v mem keys inside
  refine distinct keys ?_
  rw [keyLists, keyListsOfItems_eq_flatMap, List.mem_flatMap]
  exact ⟨v, mem, inside⟩

/-- The members of an object with distinct keys have distinct keys. -/
lemma HasDistinctKeys.of_object (distinct : (object members).HasDistinctKeys) :
    (members.map Prod.fst).Nodup ∧ ∀ member ∈ members, member.2.HasDistinctKeys := by
  refine ⟨distinct _ (by rw [keyLists]; exact List.mem_cons_self), fun member mem keys inside => ?_⟩
  refine distinct keys ?_
  rw [keyLists, keyListsOfMembers_eq_flatMap]
  exact List.mem_cons_of_mem _ (List.mem_flatMap.mpr ⟨member, mem, inside⟩)

/-- A new key is put at the end. -/
lemma put_of_not_mem {key : Text} (new : key ∉ members.map Prod.fst) (v : Json) :
    put members key v = members ++ [(key, v)] := by
  induction members with
  | nil => rfl
  | cons member members ih =>
    obtain ⟨k, w⟩ := member
    rw [List.map_cons, List.mem_cons, not_or] at new
    rw [put, if_neg (Ne.symm new.1), ih new.2, List.cons_append]

/-- Members whose keys are new, and whose values are not changed, are put behind the others. -/
lemma uniqueMembers_eq_append {done : Members}
    (distinct : ((done ++ members).map Prod.fst).Nodup)
    (same : ∀ member ∈ members, unique member.2 = member.2) :
    uniqueMembers done members = done ++ members := by
  induction members generalizing done with
  | nil => simp [uniqueMembers]
  | cons member members ih =>
    obtain ⟨k, v⟩ := member
    obtain ⟨first, others⟩ := List.forall_mem_cons.mp same
    have new : k ∉ done.map Prod.fst := by
      rw [List.map_append, List.map_cons] at distinct
      exact fun mem => (List.nodup_append.mp distinct).2.2 k mem k List.mem_cons_self rfl
    have value : unique v = v := first
    rw [uniqueMembers, value, put_of_not_mem new, ih (by simpa using distinct) others,
      List.append_assoc, List.singleton_append]

/-- **Distinct keys stay.**  Where no key is repeated, nothing is settled. -/
lemma HasDistinctKeys.unique_eq (distinct : v.HasDistinctKeys) : unique v = v := by
  induction v using induct with
  | null | bool | number | text => rfl
  | array items ih =>
    have each : uniqueItems items = items := by
      have all := fun v mem => ih v mem (distinct.of_array v mem)
      clear ih distinct
      induction items with
      | nil => rfl
      | cons v items inner =>
        obtain ⟨first, others⟩ := List.forall_mem_cons.mp all
        rw [uniqueItems, first, inner others]
    rw [unique, each]
  | object members ih =>
    obtain ⟨keys, inside⟩ := distinct.of_object
    rw [unique, uniqueMembers_eq_append (by simpa using keys)
      fun member mem => ih member mem (inside member mem), List.nil_append]

/-- Values without objects in the place of numbers leave all keys as they are. -/
lemma keyLists_mapNumbers (plain : ∀ n, (f n).keyLists = []) :
    (v.mapNumbers f).keyLists = v.keyLists := by
  induction v using induct with
  | null | bool | text => rfl
  | number n => exact plain n
  | array items ih =>
    rw [mapNumbers, keyLists, keyLists, keyListsOfItems_eq_flatMap, keyListsOfItems_eq_flatMap,
      mapItems_eq_map, List.flatMap_map]
    exact List.flatMap_congr ih
  | object members ih =>
    rw [mapNumbers, keyLists, keyLists, keyListsOfMembers_eq_flatMap, keyListsOfMembers_eq_flatMap,
      mapMembers_eq_map, List.flatMap_map, List.map_map]
    exact congrArg₂ List.cons rfl (List.flatMap_congr ih)

/-- Distinct keys stay distinct when the numbers are mapped. -/
lemma HasDistinctKeys.mapNumbers (distinct : v.HasDistinctKeys)
    (plain : ∀ n, (f n).keyLists = []) : (v.mapNumbers f).HasDistinctKeys := by
  rw [HasDistinctKeys, keyLists_mapNumbers plain]
  exact distinct

/-! ### Walking a record -/

/-- A member is inserted once. -/
lemma insertIndexed_perm (index : Nat) (member : Text × Json) (done : List (Nat × (Text × Json))) :
    (insertIndexed index member done).Perm ((index, member) :: done) := by
  induction done with
  | nil => exact .refl _
  | cons entry done ih =>
    unfold insertIndexed
    split_ifs
    · exact .refl _
    · exact (ih.cons entry).trans (.swap _ _ _)

/-- The members with an index are the ones that are sorted. -/
lemma indexed_perm (members : Members) :
    ((indexed members).map Prod.snd).Perm
      (members.filter fun member => (index? member.1).isSome) := by
  induction members with
  | nil => exact .refl _
  | cons member members ih =>
    unfold indexed
    cases index : index? member.1 with
    | none => simpa [index] using ih
    | some n =>
      simpa [index] using ((insertIndexed_perm n member (indexed members)).map Prod.snd).trans
        (ih.cons member)

/-- A record is walked with each member once. -/
lemma inWalkOrder_perm (members : Members) : (inWalkOrder members).Perm members := by
  have apart := List.filter_append_perm (fun member => (index? member.1).isSome) members
  have others : members.filter (fun member => (index? member.1).isNone)
      = members.filter fun member => !(index? member.1).isSome :=
    List.filter_congr fun member _ => by cases index? member.1 <;> rfl
  rw [inWalkOrder, others]
  exact ((indexed_perm members).append_right _).trans apart

/-- Whether and where a member is sorted in depends on its key alone. -/
lemma indexed_mapMembers (f : Number → Json) (members : Members) :
    indexed (mapMembers f members)
      = (indexed members).map fun entry => (entry.1, entry.2.1, mapNumbers f entry.2.2) := by
  have insert (index : Nat) (member : Text × Json) (done : List (Nat × (Text × Json))) :
      insertIndexed index (member.1, mapNumbers f member.2)
          (done.map fun entry => (entry.1, entry.2.1, mapNumbers f entry.2.2))
        = (insertIndexed index member done).map
            fun entry => (entry.1, entry.2.1, mapNumbers f entry.2.2) := by
    induction done with
    | nil => rfl
    | cons entry done ih =>
      simp only [insertIndexed, List.map_cons]
      split_ifs
      · rfl
      · rw [ih, List.map_cons]
  induction members with
  | nil => rfl
  | cons member members ih =>
    simp only [mapMembers, indexed, ih]
    cases index? member.1 with
    | none => rfl
    | some index => exact insert index member (indexed members)

/-- The order in which a record is walked depends on its keys alone. -/
lemma inWalkOrder_mapMembers (f : Number → Json) (members : Members) :
    inWalkOrder (mapMembers f members) = mapMembers f (inWalkOrder members) := by
  rw [inWalkOrder, indexed_mapMembers, mapMembers_eq_map, mapMembers_eq_map, inWalkOrder,
    List.map_append, List.map_map, List.map_map, List.filter_map]
  rfl

/-! ### Finding a member -/

/-- A key has the mapped value where it had the value. -/
lemma lookup_mapMembers (f : Number → Json) (key : Text) (members : Members) :
    lookup key (mapMembers f members) = (lookup key members).map (mapNumbers f) := by
  induction members with
  | nil => rfl
  | cons member members ih =>
    simp only [mapMembers, lookup, ih]
    split_ifs <;> rfl

end Json

end PolicyWarden
