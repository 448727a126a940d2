import PolicyWarden.Number.Basic

/-!
# JSON values

An object is a list of members, in which a key may be repeated as in the text of a document.
`Json.unique` settles such repetitions everywhere inside a value: a key takes its last value and
keeps its first position.
-/

namespace PolicyWarden

/-- A JSON value. -/
inductive Json where
  | null
  | bool (value : Bool)
  | number (value : Number)
  | text (value : Text)
  | array (items : List Json)
  | object (members : List (Text × Json))
  deriving Inhabited, Repr

/-- The members of an object, each with its key. -/
abbrev Members := List (Text × Json)

namespace Json

/-! ### Equality -/

mutual

/-- Equality of values is decidable. -/
def decEq : (a b : Json) → Decidable (a = b)
  | null, null => isTrue rfl
  | bool a, bool b => decidable_of_iff (a = b) (by simp)
  | number a, number b => decidable_of_iff (a = b) (by simp)
  | text a, text b => decidable_of_iff (a = b) (by simp)
  | array a, array b =>
      match decEqItems a b with
      | isTrue h => isTrue (by rw [h])
      | isFalse h => isFalse (by simpa using h)
  | object a, object b =>
      match decEqMembers a b with
      | isTrue h => isTrue (by rw [h])
      | isFalse h => isFalse (by simpa using h)
  | null, bool _ | null, number _ | null, text _ | null, array _ | null, object _
  | bool _, null | bool _, number _ | bool _, text _ | bool _, array _ | bool _, object _
  | number _, null | number _, bool _ | number _, text _ | number _, array _ | number _, object _
  | text _, null | text _, bool _ | text _, number _ | text _, array _ | text _, object _
  | array _, null | array _, bool _ | array _, number _ | array _, text _ | array _, object _
  | object _, null | object _, bool _ | object _, number _ | object _, text _
  | object _, array _ => isFalse (by simp)

/-- Equality of the items of two arrays is decidable. -/
def decEqItems : (a b : List Json) → Decidable (a = b)
  | [], [] => isTrue rfl
  | [], _ :: _ | _ :: _, [] => isFalse (by simp)
  | a :: as, b :: bs =>
      match decEq a b, decEqItems as bs with
      | isTrue h, isTrue t => isTrue (by rw [h, t])
      | isFalse h, _ => isFalse (by simp [h])
      | _, isFalse t => isFalse (by simp [t])

/-- Equality of the members of two objects is decidable. -/
def decEqMembers : (a b : List (Text × Json)) → Decidable (a = b)
  | [], [] => isTrue rfl
  | [], _ :: _ | _ :: _, [] => isFalse (by simp)
  | (k, a) :: as, (l, b) :: bs =>
      match (inferInstance : Decidable (k = l)), decEq a b, decEqMembers as bs with
      | isTrue hk, isTrue h, isTrue t => isTrue (by rw [hk, h, t])
      | isFalse hk, _, _ => isFalse (by simp [hk])
      | _, isFalse h, _ => isFalse (by simp [h])
      | _, _, isFalse t => isFalse (by simp [t])
end

instance : DecidableEq Json :=
  decEq

/-! ### Members -/

/-- The value of the first member with a key. -/
def lookup (key : Text) : Members → Option Json
  | [] => none
  | (k, v) :: rest => if k = key then some v else lookup key rest

/-- Give a key a value: in place if the key is there, at the end if it is new. -/
def put (members : Members) (key : Text) (value : Json) : Members :=
  match members with
  | [] => [(key, value)]
  | (k, v) :: rest => if k = key then (k, value) :: rest else (k, v) :: put rest key value

/-- A key that was given a value has that value, and all other keys keep theirs. -/
theorem lookup_put (members : Members) (key other : Text) (value : Json) :
    lookup other (put members key value) =
      if key = other then some value else lookup other members := by
  induction members with
  | nil => simp [put, lookup]
  | cons member rest ih =>
    obtain ⟨k, v⟩ := member
    by_cases hk : k = key
    · subst hk
      by_cases h : k = other <;> simp [put, lookup, h]
    · by_cases h : k = other
      · subst h
        simp [put, lookup, hk, Ne.symm hk]
      · simp [put, lookup, hk, h, ih]

mutual

/-- The value with each key of an object only once, at all levels. -/
def unique : Json → Json
  | array items => array (uniqueItems items)
  | object members => object (uniqueMembers [] members)
  | v => v

/-- The items of an array with each key of an object only once. -/
def uniqueItems : List Json → List Json
  | [] => []
  | v :: rest => unique v :: uniqueItems rest

/-- Members with each key only once, put into the members so far. -/
def uniqueMembers (done : Members) : List (Text × Json) → Members
  | [] => done
  | (k, v) :: rest => uniqueMembers (put done k (unique v)) rest
end

/-- The members of an object; other values have none. -/
def members : Json → Members
  | object members => members
  | _ => []

/-- The value of a member of an object. -/
def get? (v : Json) (key : Text) : Option Json :=
  lookup key v.members

/-- The text that a value is, if it is one. -/
def text? : Json → Option Text
  | text t => some t
  | _ => none

/-- The value counts as true where a truth value is asked for. -/
def isTruthy : Json → Bool
  | null => false
  | bool b => b
  | number n => !n.isVoid
  | text t => !t.isEmpty
  | array _ | object _ => true

/-! ### Order of keys -/

/-- Keys from this one on are not indexes. -/
def indexBound : Nat :=
  4294967295

/-- The index that a key spells: decimal digits without a leading zero, below the bound. -/
def index? (key : Text) : Option Nat :=
  let n := Text.natValue key
  if Text.isDigits key && Text.ofNat n = key && n < indexBound then some n else none

/-- Insert a member before the first one with a larger index. -/
def insertIndexed (index : Nat) (member : Text × Json) : List (Nat × (Text × Json)) →
    List (Nat × (Text × Json))
  | [] => [(index, member)]
  | (i, m) :: rest =>
      if index < i then (index, member) :: (i, m) :: rest
      else (i, m) :: insertIndexed index member rest

/-- The members whose keys are indexes, in ascending order. -/
def indexed : Members → List (Nat × (Text × Json))
  | [] => []
  | member :: rest =>
      match index? member.1 with
      | some index => insertIndexed index member (indexed rest)
      | none => indexed rest

/-- The members in the order in which a record is walked: indexes first and ascending, then the
other keys as they came. -/
def inWalkOrder (members : Members) : Members :=
  (indexed members).map (·.2) ++ members.filter fun member => (index? member.1).isNone

end Json

end PolicyWarden
