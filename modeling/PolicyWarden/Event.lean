import PolicyWarden.Failure.Basic
import PolicyWarden.Number.Numeral
import PolicyWarden.Text.Base64

/-!
# Events

An event of the message queue carries a notification in base64.  Nothing is promised about an
event: each of its fields holds any value or is missing.  An empty value counts as no data, a text
is read as base64, and a list as one byte for each item.  An object is read as a list if it has a
length or is the written form of a buffer; no other value can be read.

The values are the ones that can be written down.  An object that names a constructor of its own is
still said to be an instance of Object, and there is always room for as many bytes as are asked for.
-/

namespace PolicyWarden

/-- An event of the message queue. -/
structure Event where
  id : Option Json
  data : Option Json
  messageId : Option Json
  deriving DecidableEq, Repr

namespace Event

/-! ### Id -/

/-- The id that stands for a missing one. -/
def unknownId : Text :=
  "unknown"

/-- The id under which an event is recorded. -/
def recordedId (event : Event) : Json :=
  match event.id with
  | none | some .null => .text unknownId
  | some id => id

/-! ### Data -/

/-- What is said about a value that cannot be read as bytes. -/
def kindOf : Json → Text
  | .number n => ("type number (" : Text) ++ n.render ++ ")"
  | .bool b => ("type boolean (" : Text) ++ (if b then "true" else "false") ++ ")"
  | _ => "an instance of Object"

/-- Data cannot be read as bytes. -/
def unreadable (data : Json) : Failure :=
  .plainFault "TypeError"
    (("The first argument must be of type string or an instance of Buffer, ArrayBuffer, or " ++
      "Array or an Array-like Object. Received " : Text) ++ kindOf data)

/-- The byte that an item of a list stands for; an item without plain text is no number either. -/
def byteOf : Json → Except Failure UInt8
  | .number n => .ok n.byte
  | .bool b => .ok (if b then 1 else 0)
  | v =>
      match v.plain? with
      | some t => .ok (Number.ofText t).byte
      | none => .error .unprintable

/-- There is no room for that many bytes. -/
def noRoom : Failure :=
  .plainFault "RangeError" "Array buffer allocation failed"

/-- The bytes of an object that has a length, from what it has under the indices below that. -/
def bytesOfIndexed (members : Members) (length : Number) : Except Failure Bytes :=
  match length.size? with
  | some count =>
      (List.range count).mapM fun index =>
        match Json.lookup (Text.ofNat index) members with
        | some item => byteOf item
        | none => .ok 0
  | none => .error noRoom

/-- The value that an object claims to stand for cannot be asked for. -/
def noValue : Failure :=
  .plainFault "TypeError" "value.valueOf is not a function"

/-- The bytes of an object that claims no other value: it has a length, or it is the written form of
a buffer. -/
def bytesOfMembers (members : Members) : Except Failure Bytes :=
  match Json.lookup "length" members with
  | some (.number length) => bytesOfIndexed members length
  | some _ => .ok []
  | none =>
      match Json.lookup "type" members, Json.lookup "data" members with
      | some (.text kind), some (.array items) =>
          if kind = "Buffer" then items.mapM byteOf else .error (unreadable (.object members))
      | _, _ => .error (unreadable (.object members))

/-- The bytes that data stands for.  An object may claim to stand for another value, but nothing
that can be written down gives one, except the empty text. -/
def bytesOf : Json → Except Failure Bytes
  | .text t => .ok (Base64.decode t)
  | .array items => items.mapM byteOf
  | .object members =>
      match Json.lookup "valueOf" members with
      | some (.text []) => .ok []
      | some value => if value.isTruthy then .error noValue else bytesOfMembers members
      | none => bytesOfMembers members
  | data => .error (unreadable data)

/-- The bytes that an event carries, if it carries any data. -/
def payload (event : Event) : Except Failure (Option Bytes) :=
  match event.data.filter Json.isTruthy with
  | some data => (bytesOf data).map some
  | none => .ok none

end Event

end PolicyWarden
