import RegistryPublisher.Settings.Value
import RegistryPublisher.Toml.Strings

/-!
# Numbers and times of TOML

- `Toml.number` reads an integer of 64 bits, a double, or a date or time, which becomes a table with its text.
-/

namespace RegistryPublisher.Toml

open RegistryPublisher.Text
open RegistryPublisher.Settings (Value)

/-! ## Digits -/

/-- Digits of a class, with single underscores between them; the underscores are left out. -/
def digitRun (p : Char → Bool) : Scan (List Char) := do
  let c ← Scan.oneOf p
  return c :: (← Scan.many (Scan.oneOf p <|> do
    Scan.char '_'
    Scan.oneOf p))

/-- A sign, if there is one. -/
def sign : Scan (List Char) := (do return [← Scan.oneOf fun c => c = '+' || c = '-']) <|> return []

/-- Decimal digits without a zero before others. -/
def wholeDigits : Scan (List Char) := do
  if (← Scan.peek) = some '0' then return [← Scan.next] else digitRun Char.isDigit

/-- The number of digits in a base. -/
def inBase (base : Nat) (cs : List Char) : Nat := cs.foldl (fun n c => n * base + (hexDigit? c).getD 0) 0

/-- An integer of 64 bits. -/
def bounded (i : Int) : Scan Value :=
  if -(Number.pow2 63 : Int) ≤ i ∧ i < (Number.pow2 63 : Int) then return .signed i else failure

/-- An integer in another base than ten. -/
def based (opening : String) (base : Nat) (p : Char → Bool) : Scan Value := do
  Scan.word opening
  bounded (inBase base (← digitRun p))

/-- An integer. -/
def integer : Scan Value :=
  based "0x" 16 (fun c => (hexDigit? c).isSome) <|> based "0o" 8 (fun c => '0' ≤ c && c ≤ '7')
    <|> based "0b" 2 (fun c => c = '0' || c = '1')
    <|> (do
      let s ← sign
      let n := inBase 10 (← wholeDigits)
      bounded (if s = ['-'] then -(n : Int) else n))

/-! ## Doubles -/

/-- The fraction of a double. -/
def fraction : Scan (List Char) := do
  Scan.char '.'
  return '.' :: (← digitRun Char.isDigit)

/-- The exponent of a double. -/
def exponent : Scan (List Char) := do
  let _ ← Scan.oneOf fun c => c = 'e' || c = 'E'
  let s ← sign
  return 'e' :: (s ++ (← digitRun Char.isDigit))

/-- What makes a number a double. -/
def doubleTail : Scan (List Char) :=
  (do
    let f ← fraction
    return f ++ (← exponent <|> return [])) <|> exponent

/-- A double from digits. It may not be too large. -/
def decimal : Scan Value := do
  let s ← sign
  let whole ← wholeDigits
  match Extended.ofText? (s ++ whole ++ (← doubleTail)) with
  | none | some (.infinite false) => failure
  | some x => return .float x

/-- Infinity, or what is not a number. -/
def special : Scan Value := do
  let s ← sign
  (do
    Scan.word "inf"
    return Value.float (.infinite (s = ['-']))) <|>
  (do
    Scan.word "nan"
    return Value.float .notANumber)

/-! ## Dates and times -/

/-- A number of exactly `n` digits between two bounds, with its text. -/
def fixed (n low high : Nat) : Scan (Nat × List Char) := do
  let cs ← get
  let ds := cs.take n
  let value := inBase 10 ds
  if ds.length = n ∧ ds.all Char.isDigit ∧ low ≤ value ∧ value ≤ high then
    set (cs.drop n)
    return (value, ds)
  else failure

/-- The number of days of a month. -/
def daysOf (year month : Nat) : Nat :=
  if month = 2 then (if year % 4 = 0 ∧ (year % 100 ≠ 0 ∨ year % 400 = 0) then 29 else 28)
  else if month = 4 ∨ month = 6 ∨ month = 9 ∨ month = 11 then 30
  else 31

/-- A date. -/
def date : Scan (List Char) := do
  let (y, year) ← fixed 4 0 9999
  Scan.char '-'
  let (m, month) ← fixed 2 1 12
  Scan.char '-'
  let (_, day) ← fixed 2 1 (daysOf y m)
  return year ++ '-' :: month ++ '-' :: day

/-- A time of day. -/
def time : Scan (List Char) := do
  let (_, hour) ← fixed 2 0 23
  Scan.char ':'
  let (_, minute) ← fixed 2 0 59
  Scan.char ':'
  let (_, second) ← fixed 2 0 60
  let part ← (do
    Scan.char '.'
    return '.' :: (← Scan.span1 Char.isDigit)) <|> return []
  return hour ++ ':' :: minute ++ ':' :: second ++ part

/-- The distance of a time from universal time. -/
def offset : Scan (List Char) :=
  (do
    let _ ← Scan.oneOf fun c => c = 'Z' || c = 'z'
    return ['Z']) <|>
  (do
    let s ← Scan.oneOf fun c => c = '+' || c = '-'
    let (_, hour) ← fixed 2 0 23
    Scan.char ':'
    let (_, minute) ← fixed 2 0 59
    return s :: hour ++ ':' :: minute)

/-- The time after a date. -/
def timeAfterDate : Scan (List Char) := do
  let _ ← Scan.oneOf fun c => c = 'T' || c = 't' || c = ' '
  let t ← time
  return 'T' :: t ++ (← offset <|> return [])

/-- The key under which a table holds the text of a date or time. -/
def momentKey : String := "$__toml_private_datetime"

/-- A date, a time of day, or both. -/
def moment : Scan Value := do
  let cs ←
    (do
      let d ← date
      return d ++ (← timeAfterDate <|> return [])) <|> time
  return .table [(momentKey, .string (String.ofList cs))]

/-- A number, a date or a time. -/
def number : Scan Value := moment <|> decimal <|> special <|> integer

end RegistryPublisher.Toml
