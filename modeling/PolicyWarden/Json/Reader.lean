import PolicyWarden.Json.Basic
import PolicyWarden.Json.Numeral

/-!
# Reading JSON

`Json.read?` accepts exactly the texts of the JSON grammar.  Only space, tab, line feed and carriage
return are blank, nesting has no limit, and an escape may spell a surrogate without its partner.

The reader is a pushdown automaton.  Its mode says what may come next, its stack holds the arrays
and objects that are still open, and it reads one unit per step, so it is structural on the text
and what it does with a value does not depend on what stands around it.  `Json.scan?` keeps every
member as it is written; `Json.read?` then settles repeated keys.
-/

namespace PolicyWarden

namespace Json

/-! ### States -/

/-- An array or object that is still open. -/
inductive Frame where
  /-- An array with the items so far, the last one first. -/
  | list (items : List Json)
  /-- An object whose next key is awaited, with the members so far, the last one first. -/
  | record (members : Members)
  /-- An object whose value for a key is awaited, with the members so far, the last one first. -/
  | member (members : Members) (key : Text)

/-- What the reader is in the middle of. -/
inductive Mode where
  /-- A value must begin. -/
  | value
  /-- A value must begin, or an empty array end. -/
  | firstItem
  /-- A key must begin, or an empty object end. -/
  | firstKey
  /-- A key must begin. -/
  | key
  /-- A colon must come. -/
  | colon
  /-- A value is complete. -/
  | settled (value : Json)
  /-- The rest of a word must come. -/
  | word (rest : Text) (value : Json)
  /-- A string is open; its units so far, the last one first. -/
  | string (units : Text)
  /-- A backslash has been read inside a string. -/
  | escape (units : Text)
  /-- An escape by number has been begun, with the number of digits still awaited. -/
  | unitDigits (units : Text) (code awaited : Nat)
  /-- A numeral is open. -/
  | numeral (n : Numeral)

/-- A mode and the open arrays and objects, the innermost first. -/
structure Reading where
  mode : Mode
  stack : List Frame

/-! ### Steps -/

/-- The four units that may stand between tokens. -/
def isSpace (u : CodeUnit) : Bool :=
  u == 0x20 || u == 0x09 || u == 0x0A || u == 0x0D

/-- The mode after the first unit of a value, and the frame that it opens. -/
def beginValue? (u : CodeUnit) (stack : List Frame) : Option Reading :=
  if u = CodeUnit.ofChar '[' then some ⟨.firstItem, .list [] :: stack⟩
  else if u = CodeUnit.ofChar '{' then some ⟨.firstKey, .record [] :: stack⟩
  else if u = CodeUnit.ofChar '"' then some ⟨.string [], stack⟩
  else if u = CodeUnit.ofChar 'n' then some ⟨.word (Text.ofString "ull") null, stack⟩
  else if u = CodeUnit.ofChar 't' then some ⟨.word (Text.ofString "rue") (bool true), stack⟩
  else if u = CodeUnit.ofChar 'f' then some ⟨.word (Text.ofString "alse") (bool false), stack⟩
  else (Numeral.start? u).map fun n => ⟨.numeral n, stack⟩

/-- A closed string is a key where an object awaits one, and a value elsewhere. -/
def closeString (units : Text) : List Frame → Reading
  | .record members :: stack => ⟨.colon, .member members units.reverse :: stack⟩
  | stack => ⟨.settled (text units.reverse), stack⟩

/-- A unit after a complete value. -/
def afterValue? (v : Json) (u : CodeUnit) : List Frame → Option Reading
  | [] => none
  | .list items :: stack =>
      if u = CodeUnit.ofChar ',' then some ⟨.value, .list (v :: items) :: stack⟩
      else if u = CodeUnit.ofChar ']' then some ⟨.settled (array (v :: items).reverse), stack⟩
      else none
  | .member members key :: stack =>
      if u = CodeUnit.ofChar ',' then some ⟨.key, .record ((key, v) :: members) :: stack⟩
      else if u = CodeUnit.ofChar '}' then
        some ⟨.settled (object ((key, v) :: members).reverse), stack⟩
      else none
  | .record _ :: _ => none

/-- A unit, blank or not, after a complete value. -/
def settledStep? (v : Json) (u : CodeUnit) (stack : List Frame) : Option Reading :=
  if isSpace u then some ⟨.settled v, stack⟩ else afterValue? v u stack

/-- The unit that a letter after a backslash stands for. -/
def escaped? (u : CodeUnit) : Option CodeUnit :=
  if u = CodeUnit.ofChar '"' || u = CodeUnit.ofChar '\\' || u = CodeUnit.ofChar '/' then some u
  else if u = CodeUnit.ofChar 'b' then some 0x08
  else if u = CodeUnit.ofChar 'f' then some 0x0C
  else if u = CodeUnit.ofChar 'n' then some 0x0A
  else if u = CodeUnit.ofChar 'r' then some 0x0D
  else if u = CodeUnit.ofChar 't' then some 0x09
  else none

/-- A unit inside a string. -/
def stringStep? (units : Text) (u : CodeUnit) (stack : List Frame) : Option Reading :=
  if u = CodeUnit.ofChar '"' then some (closeString units stack)
  else if u = CodeUnit.ofChar '\\' then some ⟨.escape units, stack⟩
  else if u < 0x20 then none
  else some ⟨.string (u :: units), stack⟩

/-- A unit after a backslash. -/
def escapeStep? (units : Text) (u : CodeUnit) (stack : List Frame) : Option Reading :=
  if u = CodeUnit.ofChar 'u' then some ⟨.unitDigits units 0 4, stack⟩
  else (escaped? u).map fun e => ⟨.string (e :: units), stack⟩

/-- A hexadecimal digit of an escape; the last one completes a unit. -/
def unitDigitStep? (units : Text) (code awaited : Nat) (u : CodeUnit) (stack : List Frame) :
    Option Reading :=
  (CodeUnit.hexValue? u).map fun digit =>
    if awaited ≤ 1 then ⟨.string ((code * 16 + digit).toUInt16 :: units), stack⟩
    else ⟨.unitDigits units (code * 16 + digit) (awaited - 1), stack⟩

/-- A unit inside a numeral, or the first one behind it. -/
def numeralStep? (n : Numeral) (u : CodeUnit) (stack : List Frame) : Option Reading :=
  match n.extend? u with
  | some longer => some ⟨.numeral longer, stack⟩
  | none => n.number?.bind fun x => settledStep? (number x) u stack

/-- A unit inside a word. -/
def wordStep? (rest : Text) (v : Json) (u : CodeUnit) (stack : List Frame) : Option Reading :=
  match rest with
  | [] => settledStep? v u stack
  | expected :: rest =>
      if u ≠ expected then none
      else
        match rest with
        | [] => some ⟨.settled v, stack⟩
        | _ => some ⟨.word rest v, stack⟩

/-- A unit in a mode that awaits a token. -/
def tokenStep? (mode : Mode) (u : CodeUnit) (stack : List Frame) : Option Reading :=
  if isSpace u then some ⟨mode, stack⟩
  else
    match mode, stack with
    | .value, stack => beginValue? u stack
    | .firstItem, .list items :: stack =>
        if u = CodeUnit.ofChar ']' then some ⟨.settled (array items.reverse), stack⟩
        else beginValue? u (.list items :: stack)
    | .firstKey, .record members :: stack =>
        if u = CodeUnit.ofChar '}' then some ⟨.settled (object members.reverse), stack⟩
        else if u = CodeUnit.ofChar '"' then some ⟨.string [], .record members :: stack⟩
        else none
    | .key, stack => if u = CodeUnit.ofChar '"' then some ⟨.string [], stack⟩ else none
    | .colon, stack => if u = CodeUnit.ofChar ':' then some ⟨.value, stack⟩ else none
    | _, _ => none

/-- Read one unit. -/
def Reading.step? (r : Reading) (u : CodeUnit) : Option Reading :=
  match r.mode with
  | .settled v => settledStep? v u r.stack
  | .word rest v => wordStep? rest v u r.stack
  | .string units => stringStep? units u r.stack
  | .escape units => escapeStep? units u r.stack
  | .unitDigits units code awaited => unitDigitStep? units code awaited u r.stack
  | .numeral n => numeralStep? n u r.stack
  | mode => tokenStep? mode u r.stack

/-! ### Texts -/

/-- The value that is complete when the text ends. -/
def Reading.finish? (r : Reading) : Option Json :=
  match r.mode, r.stack with
  | .settled v, [] => some v
  | .numeral n, [] => n.number?.map number
  | _, _ => none

/-- Read the rest of a text. -/
def Reading.run? (r : Reading) : Text → Option Json
  | [] => r.finish?
  | u :: rest =>
      match r.step? u with
      | some next => next.run? rest
      | none => none

/-- The value that a text spells out, with all members in the order of the text. -/
def scan? (t : Text) : Option Json :=
  Reading.run? ⟨.value, []⟩ t

/-- The value that a text denotes. -/
def read? (t : Text) : Option Json :=
  (scan? t).map unique

end Json

end PolicyWarden
