import RegistryPublisher.Json.Document

/-!
# Values of a wanted shape

Readers that accept one shape of value and say what they found instead.

- `readText`, `readFlag`, `readTextOrNull` and `readList` accept strings, booleans, strings or `null`, and arrays;
- `readName` accepts a string, or an object whose one key is the name and whose value is `null`.
-/

namespace RegistryPublisher.Json

/-- What a scalar is, in the words of a message. -/
def Found.ofScalar : Json → Found
  | .null => .null
  | .bool b => .boolean b
  | .number (.integer i) => .integer i
  | .number (.float x) => .float x.written
  | .string s => .string s
  | .array _ => .sequence
  | .object _ => .map

/-- Refuses a value of another shape: after it when it is a scalar, before its bracket when it has one. -/
def mismatch {α : Type} (wanted : String) (c : UInt8) (r : Bytes) : Except Fault α :=
  if c = 0x5b then stop (.wrongType .sequence wanted) (c :: r)
  else if c = 0x7b then stop (.wrongType .map wanted) (c :: r)
  else do
    let (v, rest) ← scalar c r
    stop (.wrongType (Found.ofScalar v) wanted) rest

/-- A string, described as `wanted` when it is missing. -/
def readTextAs (wanted : String) : Reader String := fun bs =>
  match skipBlanks bs with
  | [] => stop .endInValue []
  | c :: r => if c = 0x22 then readString r else mismatch wanted c r

/-- A string. -/
def readText : Reader String := readTextAs "a string"

/-- A string; `null` counts as the empty one. -/
def readTextOrNull : Reader String := fun bs =>
  match skipBlanks bs with
  | 0x6e :: r => do return ("", ← word (Utf8.encode "ull") r)
  | bs => readText bs

/-- A boolean. -/
def readFlag : Reader Bool := fun bs =>
  match skipBlanks bs with
  | [] => stop .endInValue []
  | c :: r =>
    if c = 0x74 then do return (true, ← word (Utf8.encode "rue") r)
    else if c = 0x66 then do return (false, ← word (Utf8.encode "alse") r)
    else mismatch "a boolean" c r

/-- An array whose items are read with one open bracket less. -/
def readList {α : Type} (item : Nat → Reader α) (depth : Nat) : Reader (List α) := fun bs =>
  match skipBlanks bs with
  | [] => stop .endInValue []
  | c :: r =>
    if c = 0x5b then
      match depth with
      | 0 => stopAt .tooDeep (c :: r)
      | depth + 1 => readItems (item depth) r
    else mismatch "a sequence" c r

/-- The value `null`. -/
def readUnit (bs : Bytes) : Except Fault Bytes :=
  match skipBlanks bs with
  | [] => stop .endInValue []
  | c :: r => if c = 0x6e then word (Utf8.encode "ull") r else mismatch "unit" c r

/-- The bracket after the one member of an object. -/
def closeName (bs : Bytes) : Except Fault Bytes :=
  match skipBlanks bs with
  | [] => stop .endInObject []
  | c :: r => if c = 0x7d then .ok r else stop .expectedValue (c :: r)

/-- A name: a string, or the key of an object with the value `null`. -/
def readName (depth : Nat) : Reader String := fun bs =>
  match skipBlanks bs with
  | [] => stop .endInValue []
  | c :: r =>
    if c = 0x22 then readString r
    else if c = 0x7b then
      match depth with
      | 0 => stopAt .tooDeep (c :: r)
      | _ + 1 => do
        let (name, rest) ← readTextAs "variant identifier" r
        return (name, ← closeName (← readUnit (← colon rest)))
    else stopAt .expectedValue (c :: r)

/-- Any value; `null` counts as none. -/
def readOptional (depth : Nat) : Reader (Option Json) := fun bs => do
  let (v, rest) ← readValue depth bs
  match v with
  | null => return (none, rest)
  | v => return (some v, rest)

end RegistryPublisher.Json
