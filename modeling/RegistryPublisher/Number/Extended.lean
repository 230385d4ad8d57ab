import RegistryPublisher.Number.Digits
import RegistryPublisher.Number.Shortest

/-!
# Doubles in text

- `Extended.ofText?` reads a decimal with a point or an exponent as the nearest double; what is too large is infinite;
- `Extended.plain` writes a number without an exponent.
-/

namespace RegistryPublisher

/-- A double, with those that are not finite. -/
inductive Extended where
  | finite (x : Binary64)
  | infinite (negative : Bool)
  | notANumber
  deriving DecidableEq, Repr

namespace Extended

/-- The number in the shortest form, without an exponent. -/
def plain : Extended → String
  | finite x => x.plain
  | infinite negative => if negative then "-inf" else "inf"
  | notANumber => "NaN"

/-- The double nearest to `n · 10^e`. Far from all doubles the powers need not be computed. -/
def nearestDecimal (n : Nat) (e : Int) : Option Magnitude :=
  let size := e + (Number.digits n).length
  if n = 0 ∨ size < -330 then some .zero
  else if 310 < size then none
  else Magnitude.nearest (n * Number.pow10 e.toNat) (Number.pow10 (-e).toNat)

/-- The number `n · 10^e` with a sign. -/
def ofDecimal (negative : Bool) (n : Nat) (e : Int) : Extended :=
  match nearestDecimal n e with
  | some x => finite ⟨negative, x⟩
  | none => infinite negative

/-- The values of decimal digits. -/
def digitValues (cs : List Char) : List Nat := cs.map fun c => c.toNat - 0x30

/-- A sign, if there is one. -/
def splitSign : List Char → Bool × List Char
  | '-' :: cs => (true, cs)
  | '+' :: cs => (false, cs)
  | cs => (false, cs)

/-- The exponent that a text is, if it is one; the empty text is zero. -/
def exponent? : List Char → Option Int
  | [] => some 0
  | c :: cs =>
    let (negative, ds) := splitSign cs
    if (c == 'e' || c == 'E') && !ds.isEmpty && ds.all Char.isDigit then
      let n := (Number.ofDigits (digitValues ds) : Int)
      some (if negative then -n else n)
    else none

/-- The fraction digits at the beginning of a text, and what follows them. -/
def splitFraction : List Char → List Char × List Char
  | '.' :: cs => (cs.takeWhile Char.isDigit, cs.dropWhile Char.isDigit)
  | cs => ([], cs)

/-- The number of a text: digits with a point among them or at an end, and perhaps an exponent. -/
def ofText? (cs : List Char) : Option Extended := do
  let (negative, cs) := splitSign cs
  let whole := cs.takeWhile Char.isDigit
  let (fraction, rest) := splitFraction (cs.dropWhile Char.isDigit)
  if whole.isEmpty && fraction.isEmpty then none
  let e ← exponent? rest
  return ofDecimal negative (Number.ofDigits (digitValues (whole ++ fraction))) (e - fraction.length)

end Extended

end RegistryPublisher
