import RegistryPublisher.Json.Numeral
import RegistryPublisher.Json.Sequence

/-!
# Reading JSON values

- `readValue depth` reads a value in which at most `depth` brackets are open at a time;
- `Json.parse` reads a whole text, with 127 open brackets at most.
-/

namespace RegistryPublisher.Json

/-- The largest number of brackets that may be open at a time. -/
def maxDepth : Nat := 127

/-- The first byte of a number. -/
def startsNumber (c : UInt8) : Bool := c == 0x2d || isDigit c

/-- A value that is no array or object, from its first byte. -/
def scalar (c : UInt8) (r : Bytes) : Except Fault (Json × Bytes) :=
  if c = 0x6e then do return (null, ← word (Utf8.encode "ull") r)
  else if c = 0x74 then do return (bool true, ← word (Utf8.encode "rue") r)
  else if c = 0x66 then do return (bool false, ← word (Utf8.encode "alse") r)
  else if c = 0x22 then do
    let (s, rest) ← readString r
    return (.string s, rest)
  else if startsNumber c then do
    let (n, rest) ← readNumber (c :: r)
    return (.number n, rest)
  else stopAt .expectedValue (c :: r)

/-- A value, read with the readers of its items and values when brackets may still be opened. -/
def valueWith (inner : Option (Reader Json)) : Reader Json := fun bs =>
  match skipBlanks bs with
  | [] => stop .endInValue []
  | c :: r =>
    if c = 0x5b then
      match inner with
      | none => stopAt .tooDeep (c :: r)
      | some item => do
        let (vs, rest) ← readItems item r
        return (.array vs, rest)
    else if c = 0x7b then
      match inner with
      | none => stopAt .tooDeep (c :: r)
      | some item => do
        let (ms, rest) ← readMembers item r
        return (.object (Members.ofList ms), rest)
    else scalar c r

/-- A value in which at most `depth` brackets are open at a time. -/
def readValue : Nat → Reader Json
  | 0 => valueWith none
  | depth + 1 => valueWith (some (readValue depth))

/-- The value of a whole text. -/
def parse (text : Bytes) : Except Error Json := decode (readValue maxDepth) text

end RegistryPublisher.Json
