import RegistryPublisher.Text.Scan

/-!
# Text between double quotes with escapes

- `Scan.escaped` takes an escape and gives the character it stands for;
- `Scan.quoted` takes a text on one line between double quotes.
-/

namespace RegistryPublisher.Text

/-- The value of a hexadecimal digit. -/
def hexDigit? (c : Char) : Option Nat :=
  if '0' ≤ c ∧ c ≤ '9' then some (c.toNat - 0x30)
  else if 'a' ≤ c ∧ c ≤ 'f' then some (c.toNat - 0x57)
  else if 'A' ≤ c ∧ c ≤ 'F' then some (c.toNat - 0x37)
  else none

/-- The character that a one-letter escape stands for. -/
def letterEscape? (c : Char) : Option Char :=
  if c.toNat = 0x22 ∨ c.toNat = 0x5c then some c
  else if c = 'b' then some (Char.ofNat 0x08)
  else if c = 'f' then some (Char.ofNat 0x0c)
  else if c = 'n' then some '\n'
  else if c = 'r' then some '\r'
  else if c = 't' then some '\t'
  else none

/-- A character that stands for itself between double quotes. -/
def isPlainQuoted (c : Char) : Bool :=
  c = '\t' || (0x20 ≤ c.toNat && c.toNat != 0x7f && c.toNat != 0x22 && c.toNat != 0x5c)

namespace Scan

/-- Takes `n` hexadecimal digits and appends them to a number. -/
def hexDigits : Nat → Nat → Scan Nat
  | 0, value => return value
  | n + 1, value => do
    match hexDigit? (← next) with
    | some d => hexDigits n (value * 16 + d)
    | none => failure

/-- The character of a number, if there is one. -/
def scalar (n : Nat) : Scan Char := if n.isValidChar then return Char.ofNat n else failure

/-- What follows the backslash of an escape. -/
def escape : Scan Char := do
  let c ← next
  match letterEscape? c with
  | some e => return e
  | none =>
    if c = 'u' then scalar (← hexDigits 4 0)
    else if c = 'U' then scalar (← hexDigits 8 0)
    else failure

/-- Takes an escape. -/
def escaped : Scan Char := do
  let _ ← oneOf fun c => c.toNat = 0x5c
  escape

/-- Takes a double quote. -/
def quote : Scan Unit := do
  let _ ← oneOf fun c => c.toNat = 0x22

/-- Takes a text between double quotes. -/
def quoted : Scan String := do
  quote
  let cs ← many (escaped <|> oneOf isPlainQuoted)
  quote
  return String.ofList cs

end Scan

end RegistryPublisher.Text
