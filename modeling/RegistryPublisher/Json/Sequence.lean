import RegistryPublisher.Json.StringToken

/-!
# Items and members

What stands between the brackets of arrays and objects, for any reader of the items or values.

- `readItems` reads the items of an array after its opening bracket;
- `readMembers` reads the members of an object; the reader of a value is chosen by its key.
-/

namespace RegistryPublisher.Json

/-- What comes next between brackets: the closing one, with the bytes after it, or an item or key. -/
inductive Next where
  | close (rest : Bytes)
  | more (rest : Bytes)
  deriving DecidableEq, Repr

/-- What comes next in an array. -/
def nextItem (first : Bool) (bs : Bytes) : Except Fault Next :=
  match skipBlanks bs with
  | [] => stop .endInList []
  | c :: r =>
    if c = 0x5d then .ok (.close r)
    else if first then .ok (.more (c :: r))
    else if c = 0x2c then
      match skipBlanks r with
      | [] => stop .endInValue []
      | d :: r' => if d = 0x5d then stopAt .trailingComma (d :: r') else .ok (.more (d :: r'))
    else stopAt .expectedCommaOrBracket (c :: r)

/-- The start of a key: its opening quote is passed. -/
def openKey (c : UInt8) (r : Bytes) : Except Fault Next :=
  if c = 0x22 then .ok (.more r) else stopAt .keyMustBeString (c :: r)

/-- What comes next in an object. -/
def nextKey (first : Bool) (bs : Bytes) : Except Fault Next :=
  match skipBlanks bs with
  | [] => stop .endInObject []
  | c :: r =>
    if c = 0x7d then .ok (.close r)
    else if first then openKey c r
    else if c = 0x2c then
      match skipBlanks r with
      | [] => stop .endInValue []
      | d :: r' => if d = 0x7d then stopAt .trailingComma (d :: r') else openKey d r'
    else stopAt .expectedCommaOrBrace (c :: r)

/-- Passes the colon after a key. -/
def colon (bs : Bytes) : Except Fault Bytes :=
  match skipBlanks bs with
  | [] => stop .endInObject []
  | c :: r => if c = 0x3a then .ok r else stopAt .expectedColon (c :: r)

variable {α : Type}

/-- At most `fuel` items. -/
def itemsFrom (item : Reader α) : Nat → Bool → Reader (List α)
  | 0, _ => fun bs => stop .endInList bs
  | fuel + 1, first => fun bs => do
    match ← nextItem first bs with
    | .close rest => return ([], rest)
    | .more rest => do
      let (v, rest) ← item rest
      let (vs, rest) ← itemsFrom item fuel false rest
      return (v :: vs, rest)

/-- The items of an array after its opening bracket. There are no more items than bytes. -/
def readItems (item : Reader α) : Reader (List α) := fun bs => itemsFrom item (bs.length + 1) true bs

/-- At most `fuel` members. -/
def membersFrom (value : Reader α) : Nat → Bool → Reader (List (String × α))
  | 0, _ => fun bs => stop .endInObject bs
  | fuel + 1, first => fun bs => do
    match ← nextKey first bs with
    | .close rest => return ([], rest)
    | .more rest => do
      let (k, rest) ← readString rest
      let rest ← colon rest
      let (v, rest) ← value rest
      let (ms, rest) ← membersFrom value fuel false rest
      return ((k, v) :: ms, rest)

/-- The members of an object after its opening bracket, in the order of the text. -/
def readMembers (value : Reader α) : Reader (List (String × α)) := fun bs => membersFrom value (bs.length + 1) true bs

end RegistryPublisher.Json
