import PolicyWarden.Dialogue.Query

/-!
# The policy store

The store keeps organizations and policies in memory.  Each policy has a tag that grows by one with
every change, and a write is accepted only if it names the tag that the policy still has, so that
nobody's change is overwritten unseen.
-/

namespace PolicyWarden

/-- A policy and its tag. -/
structure Stored where
  policy : Policy
  etag : Nat
  deriving DecidableEq, Repr

/-- Organizations, the last one added first, and policies by resource. -/
structure Store where
  organizations : List Organization
  policies : List (Text × Stored)
  deriving DecidableEq, Repr

namespace Store

/-- The store without anything. -/
def empty : Store :=
  ⟨[], []⟩

/-! ### Policies -/

/-- The policy of a resource with its tag. -/
def stored? (s : Store) (resource : Text) : Option Stored :=
  (s.policies.find? fun entry => entry.1 = resource).map (·.2)

/-- The policy of a resource with its tag; a resource without one has an empty policy at tag 0. -/
def stored (s : Store) (resource : Text) : Stored :=
  (s.stored? resource).getD ⟨.empty, 0⟩

/-- Replace the entry of a resource in place, or add one at the end. -/
def replace (resource : Text) (new : Stored) : List (Text × Stored) → List (Text × Stored)
  | [] => [(resource, new)]
  | (r, old) :: rest =>
      if r = resource then (r, new) :: rest else (r, old) :: replace resource new rest

/-- Give a resource a policy, whatever it had before. -/
def put (s : Store) (resource : Text) (policy : Policy) : Store :=
  { s with policies := replace resource ⟨policy, (s.stored resource).etag + 1⟩ s.policies }

/-- The look-up after a replacement finds the new entry there and the old ones elsewhere. -/
theorem find?_replace (resource other : Text) (new : Stored) (policies : List (Text × Stored)) :
    ((replace resource new policies).find? fun entry => entry.1 = other).map (·.2) =
      if resource = other then some new
      else (policies.find? fun entry => entry.1 = other).map (·.2) := by
  induction policies with
  | nil => by_cases h : resource = other <;> simp [replace, h]
  | cons entry rest ih =>
    obtain ⟨r, old⟩ := entry
    by_cases hr : r = resource
    · subst hr
      by_cases h : r = other <;> simp [replace, h]
    · by_cases h : r = other
      · subst h
        simp [replace, hr, Ne.symm hr]
      · simpa [replace, hr, h] using ih

/-- A resource that was given a policy has that policy, under the next tag. -/
@[simp]
theorem stored_put (s : Store) (resource : Text) (policy : Policy) :
    (s.put resource policy).stored resource = ⟨policy, (s.stored resource).etag + 1⟩ := by
  simp [stored, stored?, put, find?_replace]

/-- Giving one resource a policy leaves the others as they are. -/
theorem stored_put_of_ne (s : Store) {resource other : Text} (policy : Policy)
    (h : resource ≠ other) : (s.put resource policy).stored other = s.stored other := by
  simp [stored, stored?, put, find?_replace, h]

/-- The text form of a tag. -/
def version (etag : Nat) : Text :=
  .ofNat etag

/-- Read the policy of a resource. -/
def fetch (s : Store) (resource : Text) : VersionedPolicy :=
  ⟨(s.stored resource).policy, version (s.stored resource).etag⟩

/-- Write a policy if the tag is still the one of a version. -/
def write? (s : Store) (resource : Text) (policy : Policy) (expected : Text) : Option Store :=
  if version (s.stored resource).etag = expected then some (s.put resource policy) else none

/-! ### Organizations -/

/-- Add an organization; it takes the place of an earlier one with its id. -/
def addOrganization (s : Store) (organization : Organization) : Store :=
  { s with organizations := organization :: s.organizations }

/-- The organization with an id. -/
def organization? (s : Store) (id : Text) : Option Organization :=
  s.organizations.find? fun organization => organization.id = id

end Store

end PolicyWarden
