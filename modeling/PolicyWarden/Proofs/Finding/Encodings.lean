import PolicyWarden.Intake
import PolicyWarden.Proofs.Finding.Acceptance
import PolicyWarden.Proofs.Text.Base64

/-!
# Encodings of a notification

A notification may come as a text, as the bytes of this text, or inside an event as a base64 text of
the bytes.  If no surrogate of the text stands alone, all three are judged alike, whatever the text
holds (`Finding.readBytes_encode_eq_read`): the decoder of UTF-8 gives the text back from its bytes,
and the decoder of base64 gives the bytes back from either alphabet, for every length and with or
without padding.  The empty text is the one exception on the way through an event, since an event
with an empty text counts as one without data.
-/

namespace PolicyWarden

/-- An event whose data is a text that is not empty is judged by the bytes that this text holds. -/
lemma Intake.finding_of_base64 {event : Event} {data : Text} (carries : event.data = some (.text data))
    (ne : data ≠ []) :
    Intake.finding event = Finding.readBytes nonOrgMemberCategory (Base64.decode data) := by
  have truthy : Json.isTruthy (.text data) = true := by simp [Json.isTruthy, ne]
  have payload : event.payload = .ok (some (Base64.decode data)) := by
    rw [Event.payload, carries, Option.filter_some, if_pos truthy]
    rfl
  rw [Intake.finding, payload]

/-- A text without lone surrogates has no bytes only if it is empty. -/
lemma Utf8.encode_eq_nil_iff {t : Text} (whole : t.IsWhole) : Utf8.encode t = [] ↔ t = [] := by
  refine ⟨fun empty => ?_, fun empty => by rw [empty]; rfl⟩
  rw [← Utf8.decode_encode whole, empty]
  rfl

namespace Finding

/-- **Encodings make no difference.**  A text without lone surrogates is the text of a string, and
its bytes are those of the string.  For every category, what is read from these bytes is what is read
from the text, be it a finding or a failure; and so it is for the bytes that are read from base64, in
either alphabet and with or without padding.  An event that carries such a base64 text is judged as
the text is, unless the text is empty. -/
theorem readBytes_encode_eq_read (expected : Text) {t : Text} (paired : t.IsPaired) :
    (Text.ofString t.toString = t ∧ Utf8.encode t = t.toString.toUTF8.data.toList) ∧
      readBytes expected (Utf8.encode t) = read expected t ∧
      ∀ style : Base64.Style, style.IsKnown →
        readBytes expected (Base64.decode (Base64.encodeIn style (Utf8.encode t)))
            = read expected t ∧
          ∀ event : Event, t ≠ [] →
            event.data = some (.text (Base64.encodeIn style (Utf8.encode t))) →
            Intake.finding event = read nonOrgMemberCategory t := by
  have whole : t.IsWhole := Text.isWhole_iff_isPaired.mpr paired
  have bytes (category : Text) : readBytes category (Utf8.encode t) = read category t := by
    rw [readBytes, Utf8.decode_encode whole]
  refine ⟨⟨whole.ofString_toString, Utf8.encode_eq_toUTF8 t⟩, bytes expected, ?_⟩
  intro style known
  have base64 : Base64.decode (Base64.encodeIn style (Utf8.encode t)) = Utf8.encode t :=
    Base64.decode_encodeIn known _
  constructor
  · rw [base64]
    exact bytes expected
  · intro event ne carries
    have notEmpty : Base64.encodeIn style (Utf8.encode t) ≠ [] := by
      intro empty
      have none := (Base64.encodeIn_eq_nil_iff known).mp empty
      exact ne ((Utf8.encode_eq_nil_iff whole).mp none)
    rw [Intake.finding_of_base64 carries notEmpty, base64]
    exact bytes nonOrgMemberCategory

/-- A source property whose key and value have characters of two, three and four bytes. -/
def widespreadProperties : Members :=
  [("𝄞~ÿ", .text "€û>")]

/-- The text of the sample with this property is read from the URL-safe base64 of its bytes, which
ends in an incomplete group and has both digits by which the alphabets differ. -/
theorem readBytes_encode_eq_read_urlSafe :
    let t := (sample [] widespreadProperties).render
    let written := Base64.encodeIn Base64.urlSafe (Utf8.encode t)
    readBytes "c" (Utf8.encode t) = .ok (sampleFinding widespreadProperties) ∧
      readBytes "c" (Base64.decode written) = .ok (sampleFinding widespreadProperties) ∧
      Intake.finding ⟨none, some (.text written), none⟩
        = .error (.ofProblem (.unsupportedCategory "c" nonOrgMemberCategory)) ∧
      (written.length % 4 ≠ 0 ∧ CodeUnit.ofChar '-' ∈ written ∧ CodeUnit.ofChar '_' ∈ written) := by
  intro t written
  obtain ⟨read, other, ne, digits⟩ :
      Finding.read "c" t = .ok (sampleFinding widespreadProperties) ∧
      Finding.read nonOrgMemberCategory t
        = .error (.ofProblem (.unsupportedCategory "c" nonOrgMemberCategory)) ∧
      t ≠ [] ∧
      (written.length % 4 ≠ 0 ∧ CodeUnit.ofChar '-' ∈ written ∧
        CodeUnit.ofChar '_' ∈ written) := by
    decide +kernel
  have paired : t.IsPaired :=
    Text.isWhole_iff_isPaired.mp (Json.isWhole_render (by decide +kernel))
  obtain ⟨-, bytes, base64⟩ := readBytes_encode_eq_read "c" paired
  obtain ⟨decoded, carried⟩ := base64 Base64.urlSafe Base64.isKnown_urlSafe
  exact ⟨bytes.trans read, decoded.trans read, (carried _ ne rfl).trans other, digits⟩

end Finding

end PolicyWarden
