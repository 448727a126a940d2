import PolicyWarden.Finding.Property
import PolicyWarden.Proofs.Finding.Acceptance
import PolicyWarden.Proofs.Json.Reading
import PolicyWarden.Proofs.Json.Repetition

/-!
# Source properties as they were written

A finding has the source properties of the text that it was read from, and no others.  The text may
repeat keys at every level, so the properties are followed from the document as it is written
(`Notification.writtenProperties`): the last value of a key is the one that is asked for, whatever
its shape, and the key that is left out is missing like a key that does not occur
(`Finding.properties_as_written`).
-/

namespace PolicyWarden

namespace Notification

variable {document : Json}

/-- The source properties of a document as it is written, in which a key may occur more than once.
Of several findings and of several maps of properties the last one counts, and missing properties
are none. -/
def writtenProperties (document : Json) : Members :=
  (((Json.last? "finding" document.members).bind fun finding =>
    Json.last? "sourceProperties" finding.members).map Json.members).getD []

/-- What a settled document reports is the last thing that is written, settled. -/
lemma reported?_unique (key : Text) :
    reported? document.unique key =
      ((Json.last? "finding" document.members).bind fun finding =>
        Json.last? key finding.members).map Json.unique := by
  rw [reported?, Json.get?_unique]
  cases Json.last? "finding" document.members with
  | none => rfl
  | some finding => exact Json.get?_unique

/-- The source properties of a settled document are the written ones, settled. -/
lemma reportedProperties_unique :
    reportedProperties document.unique = Json.uniqueMembers [] (writtenProperties document) := by
  rw [reportedProperties, reported?_unique, writtenProperties]
  cases (Json.last? "finding" document.members).bind fun finding =>
      Json.last? "sourceProperties" finding.members with
  | none => rfl
  | some properties => exact Json.members_unique

end Notification

namespace Finding

open Notification (writtenProperties)

variable {expected t key : Text} {document value : Json} {f : Finding}

/-- A source property of a finding is the last one that is written under its key, settled; none is
written under the key that is left out. -/
lemma property?_of_isTakenFrom (taken : f.IsTakenFrom document.unique) (key : Text) :
    f.property? key =
      if key = Text.ofString "__proto__" then none
      else (Json.last? key (writtenProperties document)).map Json.unique := by
  have distinct : ((Json.uniqueMembers [] (writtenProperties document)).map Prod.fst).Nodup :=
    Json.nodup_keys_uniqueMembers List.nodup_nil
  rw [property?, taken.sourceProperties, Json.lookup_filter_ne,
    Notification.reportedProperties_unique, Json.lookup_inWalkOrder distinct,
    Json.lookup_uniqueMembers, Json.lookup, Option.or_none]

/-- A property that is there is returned as it is where any shape will do. -/
lemma require_any_of_some (present : f.property? key = some value) :
    f.require key .any = .ok value ∧ f.optional key .any = .ok (some value) := by
  have required : f.require key .any = .ok value := by
    simp [require, present, PropertyShape.check]
  refine ⟨required, ?_⟩
  simp [optional, present, required, Except.map]

/-- A property that is missing is a defect of the notification only where it is required. -/
lemma require_of_none (missing : f.property? key = none) (shape : PropertyShape) :
    f.require key shape
        = .error (.problem (.malformedPayload (.missingProperty f.name key)) .absent) ∧
      f.optional key shape = .ok none := by
  simp [require, optional, missing, Notification.malformed]

/-- **The properties are those of the text.**  A text that is read as a finding spells out one
document.  A key other than the one that is left out has the value of its last occurrence among the
source properties that are written there, with the keys inside that value settled in the same way;
a key that does not occur is missing, and so is the key that is left out. -/
theorem properties_as_written (reached : read expected t = .ok f) :
    (∃! document : Json, document.IsSpelledBy t) ∧
      ∀ document : Json, document.IsSpelledBy t → ∀ key : Text,
        (∀ before value after, writtenProperties document = before ++ (key, value) :: after →
          key ∉ after.map Prod.fst → key ≠ Text.ofString "__proto__" →
          f.require key .any = .ok value.unique ∧ f.optional key .any = .ok (some value.unique)) ∧
        (key ∉ (writtenProperties document).map Prod.fst ∨ key = Text.ofString "__proto__" →
          f.require key .any
              = .error (.problem (.malformedPayload (.missingProperty f.name key)) .absent) ∧
            f.optional key .any = .ok none) := by
  obtain ⟨settled, parsed, taken⟩ := isTakenFrom_of_read reached
  obtain ⟨document, scanned, rfl⟩ := Option.map_eq_some_iff.mp parsed
  have spelled : document.IsSpelledBy t := Json.scan?_eq_some_iff.mp scanned
  refine ⟨⟨document, spelled, fun other spells => spells.eq spelled⟩, fun other spells key => ?_⟩
  obtain rfl := spells.eq spelled
  have property := property?_of_isTakenFrom taken key
  constructor
  · intro before value after written last ordinary
    have found : Json.last? key (writtenProperties other) = some value :=
      Json.last?_eq_some_iff.mpr ⟨before, after, written, last⟩
    rw [if_neg ordinary, found] at property
    exact require_any_of_some property
  · intro absent
    have missing : f.property? key = none := by
      rw [property]
      split_ifs with reserved
      · rfl
      · rw [Json.last?_eq_none_iff.mpr (absent.resolve_right reserved), Option.map_none]
    exact require_of_none missing .any

/-- Source properties among which a key is repeated, at both levels. -/
def repeatedProperties : Members :=
  [("k", .null), ("__proto__", .bool true),
    ("k", .object [("inner", .null), ("inner", .bool true)])]

/-- A notification that repeats its finding and the source properties of its finding. -/
def repeatedSample : Json :=
  let first : Members := [("sourceProperties", .object [("k", .bool false), ("toString", .null)])]
  let last : Members := first ++ sampleFields repeatedProperties
  .object [("notificationConfigName", .text "n"), ("finding", .object first),
    ("finding", .object last)]

/-- The finding of this notification has one source property.  The key that is left out is missing,
and so is a key that only the source properties before the last ones have. -/
theorem properties_as_written_repeated :
    let t := repeatedSample.render
    let settled : Json := .object [("inner", .bool true)]
    let f := sampleFinding [("k", settled)]
    (read "c" t = .ok f ∧ repeatedSample.IsSpelledBy t) ∧
      f.require "k" .any = .ok settled ∧ f.optional "k" .any = .ok (some settled) ∧
      f.optional "__proto__" .any = .ok none ∧ f.optional "toString" .any = .ok none ∧
      f.require "constructor" .any
        = .error (.problem (.malformedPayload (.missingProperty "f" "constructor")) .absent) := by
  intro t settled f
  obtain ⟨reached, scanned⟩ : read "c" t = .ok f ∧ Json.scan? t = some repeatedSample := by
    decide +kernel
  have spelled : repeatedSample.IsSpelledBy t := Json.scan?_eq_some_iff.mp scanned
  have properties := (properties_as_written reached).2 repeatedSample spelled
  obtain ⟨required, offered⟩ := (properties "k").1 [("k", .null), ("__proto__", .bool true)]
    (.object [("inner", .null), ("inner", .bool true)]) [] rfl (by simp) (by decide)
  exact ⟨⟨reached, spelled⟩, required, offered, ((properties "__proto__").2 (.inr rfl)).2,
    ((properties "toString").2 (.inl (by decide))).2,
    ((properties "constructor").2 (.inl (by decide))).1⟩

end Finding

end PolicyWarden
