import RegistryPublisher.Number.Power

/-!
# Double-precision numbers, exactly

A finite double is a whole number of units `2^-1074`, so rounding and arithmetic are computed on natural numbers.

- `Magnitude.nearest` rounds a quotient of natural numbers to the nearest double, ties to the even significand;
- `Magnitude.mul` and `Magnitude.div` are the exact results, rounded once;
- `Magnitude.ofDecimal` is the double that a significand and a power of ten make in floating-point arithmetic.
-/

namespace RegistryPublisher

/-- A finite double without its sign: `significand · 2^exponent` units of `2^-1074`. -/
structure Magnitude where
  significand : Nat
  exponent : Nat
  deriving DecidableEq, Repr

/-- A finite double. -/
structure Binary64 where
  negative : Bool
  magnitude : Magnitude
  deriving DecidableEq, Repr

namespace Magnitude

/-- Zero. -/
def zero : Magnitude := ⟨0, 0⟩

/-- How many units of `2^-1074` the number is. -/
def units (x : Magnitude) : Nat := x.significand * Number.pow2 x.exponent

/-- A quotient rounded to a whole number, ties to even. -/
def roundHalfEven (num den : Nat) : Nat :=
  let q := num / den
  let r := num % den
  if 2 * r < den ∨ (2 * r = den ∧ q % 2 = 0) then q else q + 1

/-- The double nearest to `num / den`; none when that is beyond the largest double. -/
def nearest (num den : Nat) : Option Magnitude :=
  let n := num * Number.pow2 1074
  let e := (Nat.log2 (n / den) + 1) - 53
  let m := roundHalfEven n (den * Number.pow2 e)
  let x : Magnitude := if m = Number.pow2 53 then ⟨Number.pow2 52, e + 1⟩ else ⟨m, e⟩
  if x.exponent ≤ 2045 then some x else none

/-- The double nearest to a natural number. -/
def ofNat (n : Nat) : Option Magnitude := nearest n 1

/-- The product, rounded once. -/
def mul (x y : Magnitude) : Option Magnitude := nearest (x.units * y.units) (Number.pow2 2148)

/-- The quotient, rounded once. -/
def div (x y : Magnitude) : Option Magnitude := nearest x.units y.units

/-- The double that `n · 10^e` gives in double arithmetic: `n` and the power of ten are rounded first, then multiplied;
none when the result is beyond the largest double. -/
def ofDecimalUp (n e : Nat) : Option Magnitude :=
  if n = 0 then some zero
  else if 308 < e then none
  else do mul (← ofNat n) (← ofNat (Number.pow10 e))

/-- Divides by `10^e` in double arithmetic: by `10^308` as long as `e` is larger than that, then by the rest; each
quotient is rounded. -/
def divPowTen (x : Magnitude) (e : Nat) : Option Magnitude :=
  if h : 308 < e then
    if x.significand = 0 then some x
    else do divPowTen (← x.div (← ofNat (Number.pow10 308))) (e - 308)
  else do x.div (← ofNat (Number.pow10 e))
  termination_by e
  decreasing_by omega

/-- The double that `n · 10^e` gives in double arithmetic; none when it is beyond the largest double. -/
def ofDecimal (n : Nat) : Int → Option Magnitude
  | .ofNat e => ofDecimalUp n e
  | .negSucc e => do divPowTen (← ofNat n) (e + 1)

end Magnitude

end RegistryPublisher
