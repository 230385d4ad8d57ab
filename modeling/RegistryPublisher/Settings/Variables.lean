import RegistryPublisher.Settings.Value
import RegistryPublisher.Text.Blank
import RegistryPublisher.Text.Escaped
import RegistryPublisher.Text.Split
import RegistryPublisher.World.Environment

/-!
# Settings in environment variables

- `Variables.path?` gives the keys that the name of a variable stands for;
- `Variables.value` reads the value of a variable: booleans, numbers, lists and tables in a short notation, and any
  other text as it is;
- `Variables.layer` is the layer of all variables.
-/

namespace RegistryPublisher.Settings.Variables

open RegistryPublisher.Text

/-! ## Names -/

/-- What the names of settings begin with, in any case. -/
def nameStart : String := "MCP_PUBLISHER_"

/-- The rest of a name after its beginning, in any case. -/
def afterStart? : List Char → List Char → Option (List Char)
  | [], cs => some cs
  | _ :: _, [] => none
  | b :: bs, c :: cs => if b.toUpper = c.toUpper then afterStart? bs cs else none

/-- Two underscores stand for a point. -/
def pointed : List Char → List Char
  | '_' :: '_' :: cs => '.' :: pointed cs
  | c :: cs => c :: pointed cs
  | [] => []

/-- The keys that a name stands for, in lower case; none when it is no name of a setting or a key is empty. -/
def path? (name : String) : Option (List String) := do
  let rest ← afterStart? nameStart.toList (trim name).toList
  let keys := splitAt '.' (trim (String.ofList (pointed rest)))
  if keys.any (·.isEmpty) then none
  else return keys.map fun k => String.ofList (k.toList.map Char.toLower)

/-! ## Values -/

/-- The blanks around values. -/
def isSpace (c : Char) : Bool := c = ' ' || c = '\t' || c = '\n' || c = '\r' || c.toNat = 0x0c

/-- A character that belongs to no bracket or comma. -/
def isScalarChar (c : Char) : Bool := !(['\x2c', '\x5b', '\x5d', '\x7b', '\x7d'].contains c)

/-- A character of a key without quotes. -/
def isKeyChar (c : Char) : Bool := c.isAlphanum || c = '_' || c = '-'

/-- The number of a text of digits. -/
def digits? (cs : List Char) : Option Nat :=
  if !cs.isEmpty && cs.all Char.isDigit then some (Number.ofDigits (Extended.digitValues cs)) else none

/-- The number of digits that may have a plus before them, up to 64 bits. -/
def unsigned? (cs : List Char) : Option Nat :=
  (digits? (match cs with
    | '+' :: ds => ds
    | ds => ds)).filter (· < Number.pow2 64)

/-- The number of digits with a minus before them, down to the least of 64 bits. -/
def negative? : List Char → Option Int
  | '-' :: ds => ((digits? ds).filter (· ≤ Number.pow2 63)).map fun n => -(n : Int)
  | _ => none

/-- The value of a text without brackets and quotes. -/
def scalar (cs : List Char) : Value :=
  match (if cs.contains '.' then Extended.ofText? cs else none) with
  | some x => .float x
  | none =>
    match unsigned? cs, negative? cs with
    | some n, _ => .unsigned n
    | none, some i => .signed i
    | none, none => .string (String.ofList cs)

/-- Items up to a closing bracket, with commas between them; there may be one before the bracket. -/
def listFrom {α : Type} (close : Char) (item : Scan α) : Nat → Scan (List α)
  | 0 => failure
  | fuel + 1 =>
    (do
      Scan.char close
      return []) <|>
    (do
      let a ← item
      (do
        Scan.char ','
        return a :: (← listFrom close item fuel)) <|>
      (do
        Scan.char close
        return [a]))

/-- Items up to a closing bracket. -/
def list {α : Type} (close : Char) (item : Scan α) : Scan (List α) := fun cs => listFrom close item (cs.length + 1) cs

/-- A key, with or without quotes. -/
def key : Scan String := do
  if ((← Scan.peek).map Char.toNat) = some 0x22 then Scan.quoted
  else return String.ofList (← Scan.span1 isKeyChar)

/-- A key and its value. -/
def member (value : Scan Value) : Scan (String × Value) := do
  Scan.skip isSpace
  let k ← key
  Scan.skip isSpace
  Scan.char '='
  Scan.skip isSpace
  let v ← value
  Scan.skip isSpace
  return (k, v)

/-- A character between single quotes. -/
def single : Scan Value := do
  let _ ← Scan.oneOf fun c => c.toNat = 0x27
  let c ← Scan.next
  let _ ← Scan.oneOf fun c => c.toNat = 0x27
  return .string c.toString

/-- A value that begins with the given character. -/
def bracketed (value : Scan Value) (c : Option Char) : Scan Value :=
  match c.map Char.toNat with
  | some 0x7b => do
    let _ ← Scan.next
    return .table (Members.ofList (← list '\x7d' (member value)))
  | some 0x5b => do
    let _ ← Scan.next
    return .array (← list ']' value)
  | some 0x22 => .string <$> Scan.quoted
  | some 0x27 => single
  | _ => do return scalar (trim (String.ofList (← Scan.span isScalarChar))).toList

/-- A value with at most `depth` brackets around anything in it. -/
def valueFrom : Nat → Scan Value
  | 0 => failure
  | depth + 1 => do
    Scan.skip isSpace
    let v ←
      (do
        Scan.word "true"
        return Value.bool true) <|>
      (do
        Scan.word "false"
        return Value.bool false) <|>
      (do bracketed (valueFrom depth) (← Scan.peek))
    Scan.skip isSpace
    return v

/-- The value of a variable; a text that is no value in the short notation stands for itself. -/
def value (s : String) : Value := ((valueFrom (s.length + 1)).all s).getD (.string s)

/-! ## The layer -/

/-- The settings of all variables. -/
def layer (env : Environment) : Value :=
  (env.filterMap fun (name, s) => (path? name).map fun keys => Value.nest keys (value s)).foldl Value.merge (.table [])

end RegistryPublisher.Settings.Variables
