import RegistryPublisher.Number.Digits
import RegistryPublisher.Number.Binary64

/-!
# The shortest decimal of a double

- `Magnitude.shortest` is the decimal with the fewest digits among those that round to a double, and of these the
  nearest to it, ties to the even last digit;
- `Decimal.plain` writes a decimal without an exponent, `Decimal.written` the way JSON documents have it.
-/

namespace RegistryPublisher

/-- The number `digits · 10^exponent`. -/
structure Decimal where
  digits : Nat
  exponent : Int
  deriving DecidableEq, Repr

namespace Magnitude

/-! ## Search -/

/-- The least `j` with `units · 10^j` at least one, that is `2^1074` units. -/
def lift : Nat → Nat → Nat
  | 0, _ => 0
  | fuel + 1, units => if Number.pow2 1074 ≤ units then 0 else lift fuel (units * 10) + 1

/-- The power of ten of the first digit of a positive number. -/
def leadingPower (units : Nat) : Int :=
  if Number.pow2 1074 ≤ units then (Number.digits (units / Number.pow2 1074)).length - 1 else -(lift 400 units : Nat)

/-- The numbers that round to a double, in quarter units: the ends, and whether they belong to it. -/
structure Interval where
  low : Nat
  high : Nat
  closed : Bool

/-- The numbers that round to `x`. Below a power of two the doubles lie twice as close. -/
def interval (x : Magnitude) : Interval :=
  let u := Number.pow2 x.exponent
  let below := if x.significand = Number.pow2 52 ∧ 0 < x.exponent then u else 2 * u
  ⟨4 * x.units - below, 4 * x.units + 2 * u, x.significand % 2 == 0⟩

/-- Whether `c · unit` lies in the interval whose ends are multiplied by `k`. -/
def Interval.has (i : Interval) (k unit c : Nat) : Bool :=
  if i.closed then i.low * k ≤ c * unit && c * unit ≤ i.high * k else i.low * k < c * unit && c * unit < i.high * k

/-- The nearest multiple of `10^p` among the two neighbours of `x` that rounds to `x`, as a count of `10^p`. -/
def onGrid? (x : Magnitude) (p : Int) : Option Nat :=
  let k := Number.pow10 (-p).toNat
  let unit := Number.pow10 p.toNat * Number.pow2 1076
  let v := 4 * x.units * k
  let c := v / unit
  let r := v % unit
  match x.interval.has k unit c, x.interval.has k unit (c + 1) with
  | false, false => none
  | true, false => some c
  | false, true => some (c + 1)
  | true, true => some (if 2 * r < unit ∨ (2 * r = unit ∧ c % 2 = 0) then c else c + 1)

/-- The first grid from `power` down that has a point rounding to `x`. -/
def firstGrid (x : Magnitude) : Nat → Int → Decimal
  | 0, power => ⟨4 * x.units * Number.pow10 (-power).toNat / (Number.pow10 power.toNat * Number.pow2 1076), power⟩
  | fuel + 1, power =>
    match x.onGrid? power with
    | some c => ⟨c, power⟩
    | none => firstGrid x fuel (power - 1)

/-- The shortest decimal that rounds to `x`, and of several the nearest. Seventeen digits always suffice. -/
def shortest (x : Magnitude) : Decimal :=
  if x.significand = 0 then ⟨0, 0⟩ else firstGrid x 17 (leadingPower x.units)

end Magnitude

namespace Decimal

/-- A decimal point after `n` of the digits, with zeros where there are none. -/
def pointAfter (ds : List Nat) (n : Int) : List Nat × List Nat :=
  if n ≤ 0 then ([0], List.replicate (-n).toNat 0 ++ ds)
  else (ds.take n.toNat ++ List.replicate (n.toNat - ds.length) 0, ds.drop n.toNat)

/-- The digits without zeros at the end. -/
def significant (d : Decimal) : List Nat := ((Number.digits d.digits).reverse.dropWhile (· == 0)).reverse

/-- The power of ten of the first digit. -/
def leading (d : Decimal) : Int := d.exponent + (Number.digits d.digits).length - 1

/-- The text of a digit list. -/
def text (ds : List Nat) : String := String.ofList (ds.map fun d => Char.ofNat (0x30 + d))

/-- All digits, and no point when the number is whole. -/
def plain (d : Decimal) : String :=
  if d.digits = 0 then "0"
  else
    let (whole, fraction) := pointAfter d.significant (d.leading + 1)
    if fraction.isEmpty then text whole else text whole ++ "." ++ text fraction

/-- One digit before the point, then the power of ten with its sign. -/
def scientific (d : Decimal) : String :=
  let mantissa := match d.significant with
    | [] => "0"
    | [a] => text [a]
    | a :: r => text [a] ++ "." ++ text r
  let sign := if d.leading < 0 then "-" else "+"
  mantissa ++ "e" ++ sign ++ text (Number.digits d.leading.natAbs)

/-- With a point and at least one digit after it when the first digit stands between `10^-5` and `10^15`, and with a
power of ten otherwise. -/
def written (d : Decimal) : String :=
  if d.digits = 0 then "0.0"
  else if -5 ≤ d.leading ∧ d.leading ≤ 15 then
    let (whole, fraction) := pointAfter d.significant (d.leading + 1)
    text whole ++ "." ++ (if fraction.isEmpty then "0" else text fraction)
  else d.scientific

end Decimal

namespace Binary64

/-- A double as JSON documents have it. -/
def written (x : Binary64) : String := (if x.negative then "-" else "") ++ x.magnitude.shortest.written

/-- A double without an exponent. -/
def plain (x : Binary64) : String := (if x.negative then "-" else "") ++ x.magnitude.shortest.plain

end Binary64

end RegistryPublisher
