import RegistryPublisher.Members
import RegistryPublisher.Number.Shortest

/-!
# JSON values

- `Json` is a JSON value whose objects keep their members in key order;
- `Json.render` writes a value without white space; `Json.renderString` and `Number.render` write its leaves.
-/

namespace RegistryPublisher

/-- A JSON number: an integer of at most 64 bits, or a double. -/
inductive Number where
  | integer (i : Int)
  | float (x : Binary64)
  deriving DecidableEq, Repr

/-- A JSON value. -/
inductive Json where
  | null
  | bool (b : Bool)
  | number (n : Number)
  | string (s : String)
  | array (items : List Json)
  | object (members : List (String × Json))
  deriving BEq, Repr, Inhabited

/-! ## Writing -/

/-- A number in the shortest form that reads back. -/
def Number.render : Number → Bytes
  | .integer (.ofNat n) => Number.decimal n
  | .integer (.negSucc n) => 0x2d :: Number.decimal (n + 1)
  | .float x => Utf8.encode x.written

namespace Json

/-- A hexadecimal digit in lower case. -/
def hexDigit (n : Nat) : UInt8 := UInt8.ofNat (if n < 10 then 0x30 + n else 0x57 + n)

/-- One character inside a string: quotes, backslashes and controls are escaped, all else stands for itself. -/
def renderChar (c : Char) : Bytes :=
  if c.toNat = 0x22 then [0x5c, 0x22]
  else if c.toNat = 0x5c then [0x5c, 0x5c]
  else if c.toNat = 0x08 then [0x5c, 0x62]
  else if c.toNat = 0x0c then [0x5c, 0x66]
  else if c.toNat = 0x0a then [0x5c, 0x6e]
  else if c.toNat = 0x0d then [0x5c, 0x72]
  else if c.toNat = 0x09 then [0x5c, 0x74]
  else if c.toNat < 0x20 then [0x5c, 0x75, 0x30, 0x30, hexDigit (c.toNat / 16), hexDigit (c.toNat % 16)]
  else String.utf8EncodeChar c

/-- A string with its quotes. -/
def renderString (s : String) : Bytes := 0x22 :: (s.toList.flatMap renderChar ++ [0x22])

/-- The bytes of `true` and `false`. -/
def renderBool (b : Bool) : Bytes := Utf8.encode (if b then "true" else "false")

/-- A comma before all items but the first. -/
def separated : List Bytes → Bytes
  | [] => []
  | [b] => b
  | b :: bs => b ++ 0x2c :: separated bs

mutual

/-- A value without white space. -/
def render : Json → Bytes
  | null => Utf8.encode "null"
  | bool b => renderBool b
  | number n => n.render
  | string s => renderString s
  | array items => 0x5b :: (separated (renderItems items) ++ [0x5d])
  | object members => 0x7b :: (separated (renderMembers members) ++ [0x7d])

/-- The items of an array. -/
def renderItems : List Json → List Bytes
  | [] => []
  | v :: vs => render v :: renderItems vs

/-- The members of an object, each a key, a colon and a value. -/
def renderMembers : List (String × Json) → List Bytes
  | [] => []
  | (k, v) :: ms => (renderString k ++ 0x3a :: render v) :: renderMembers ms

end

/-- The text of an object with the given members, already written. -/
def renderObject (members : List Bytes) : Bytes := 0x7b :: (separated members ++ [0x7d])

/-- One written member. -/
def renderMember (key : String) (value : Bytes) : Bytes := renderString key ++ 0x3a :: value

end Json

end RegistryPublisher
