import RegistryPublisher.Json.Expect
import RegistryPublisher.Json.Skip

/-!
# Records

A record is read from an object whose known keys are its fields, and where its shape allows it from an array with the
fields in order.

- `Shape` lists the fields of a record and says what happens to other keys;
- `Shape.read` reads a record: no field may come twice, and required fields may not be missing.
-/

namespace RegistryPublisher.Json

/-- A field: its key, whether it has to be there, and how its value is read and put into the record. -/
structure Field (α : Type) where
  name : String
  required : Bool
  read : Nat → Reader (α → α)

/-- What a record looks like. -/
structure Shape (α : Type) where
  /-- The name in messages. -/
  name : String
  fields : List (Field α)
  /-- Whether an array of the fields in order is accepted. -/
  positional : Bool
  /-- Reads the value of any other key. -/
  other : String → Nat → Reader (α → α)
  /-- The record before any field is put in. -/
  blank : α

/-- A record that is being read, and the fields that came. -/
structure Filling (α : Type) where
  record : α
  seen : List String

variable {α β : Type}

/-- A field whose value is put into the record by `put`. -/
def Field.of (name : String) (required : Bool) (read : Nat → Reader β) (put : β → α → α) : Field α :=
  ⟨name, required, fun depth bs => do
    let (v, rest) ← read depth bs
    return (put v, rest)⟩

/-- Other keys are passed over. -/
def ignoreOther : String → Nat → Reader (α → α) := fun _ _ bs => do return (id, ← skip bs)

/-- Where a repeated field is reported: after the blanks behind its key, and after a bracket that closes the object. -/
def afterKey (bs : Bytes) : Bytes :=
  match skipBlanks bs with
  | [] => []
  | c :: r => if c = 0x7d then r else c :: r

/-- The bracket after the last field of an array. -/
def closeFields (bs : Bytes) : Except Fault Bytes :=
  match skipBlanks bs with
  | [] => stop .endInList []
  | c :: r =>
    if c = 0x5d then .ok r
    else if c = 0x2c then
      match skipBlanks r with
      | [] => stopAt .trailingCharacters []
      | d :: r' => stopAt (if d = 0x5d then .trailingComma else .trailingCharacters) (d :: r')
    else stopAt .trailingCharacters (c :: r)

namespace Shape

/-- Reads what follows a key. -/
def readMember (s : Shape α) (depth : Nat) (key : String) (f : Filling α) : Reader (Filling α) := fun bs =>
  match s.fields.find? (·.name == key) with
  | some field =>
    if key ∈ f.seen then stop (.duplicateField key) (afterKey bs)
    else do
      let (put, rest) ← field.read depth (← colon bs)
      return (⟨put f.record, key :: f.seen⟩, rest)
  | none => do
    let (put, rest) ← s.other key depth (← colon bs)
    return (⟨put f.record, f.seen⟩, rest)

/-- At most `fuel` members. -/
def readMembersFrom (s : Shape α) (depth : Nat) : Nat → Bool → Filling α → Reader (Filling α)
  | 0, _, _ => fun bs => stop .endInObject bs
  | fuel + 1, first, f => fun bs => do
    match ← nextKey first bs with
    | .close rest => return (f, rest)
    | .more rest => do
      let (key, rest) ← readString rest
      let (f, rest) ← s.readMember depth key f rest
      s.readMembersFrom depth fuel false f rest

/-- A record from the members of an object, after its opening bracket. -/
def readObject (s : Shape α) (depth : Nat) : Reader α := fun bs => do
  let (f, rest) ← s.readMembersFrom depth (bs.length + 1) true ⟨s.blank, []⟩ bs
  match s.fields.find? fun field => field.required && !(f.seen.contains field.name) with
  | some field => stop (.missingField field.name) rest
  | none => return (f.record, rest)

/-- Reads the fields that are left from the items of an array. -/
def readFields (s : Shape α) (depth : Nat) : List (Field α) → Bool → α → Reader α
  | [], _, record => fun bs => do return (record, ← closeFields bs)
  | field :: left, first, record => fun bs => do
    match ← nextItem first bs with
    | .close rest =>
      match (field :: left).findIdx? (·.required) with
      | some i => stop (.wrongLength (s.fields.length - (left.length + 1) + i) s.name s.fields.length) rest
      | none => return (record, rest)
    | .more rest => do
      let (put, rest) ← field.read depth rest
      s.readFields depth left false (put record) rest

/-- A record with at most `depth` open brackets at a time. -/
def read (s : Shape α) (depth : Nat) : Reader α := fun bs =>
  match skipBlanks bs with
  | [] => stop .endInValue []
  | c :: r =>
    if c = 0x7b || (c = 0x5b && s.positional) then
      match depth with
      | 0 => stopAt .tooDeep (c :: r)
      | depth + 1 => if c = 0x7b then s.readObject depth r else s.readFields depth s.fields true s.blank r
    else mismatch ("struct " ++ s.name) c r

/-- The record of a whole text. -/
def decode (s : Shape α) (text : Bytes) : Except Error α := Json.decode (s.read maxDepth) text

end Shape

end RegistryPublisher.Json
