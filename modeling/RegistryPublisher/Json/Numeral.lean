import RegistryPublisher.Json.Reader
import RegistryPublisher.Json.Value

/-!
# Numerals

- `readNumeral` reads the spelling of a number, `Numeral.value` gives the number;
- a numeral without a fraction or an exponent that fits 64 bits is an integer (`Numeral.integer?`), any other a double.
-/

namespace RegistryPublisher.Json

/-! ## Spelling -/

/-- The spelling of a number, as decimal digits. -/
structure Numeral where
  negative : Bool
  whole : List Nat
  fraction : Option (List Nat)
  /-- Whether the exponent is negative, and its digits. -/
  exponent : Option (Bool × List Nat)
  deriving DecidableEq, Repr

/-- The digits that come next. -/
def digitRun (bs : Bytes) : List Nat × Bytes :=
  ((bs.takeWhile isDigit).map fun b => b.toNat - 0x30, bs.dropWhile isDigit)

/-- The digits before the point: a zero stands alone. -/
def wholePart (atEnd : Cause) : Reader (List Nat)
  | [] => stop atEnd []
  | c :: r =>
    if c = 0x30 then
      match r with
      | d :: r' => if isDigit d then stopAt .invalidNumber (d :: r') else .ok ([0], r)
      | [] => .ok ([0], [])
    else if isDigit c then .ok (digitRun (c :: r))
    else stop .invalidNumber r

/-- The digits after a point, if there is a point. -/
def fractionPart (atEnd : Cause) : Reader (Option (List Nat))
  | [] => .ok (none, [])
  | c :: r =>
    if c = 0x2e then
      match r with
      | [] => stop atEnd []
      | d :: r' =>
        if isDigit d then
          let (ds, rest) := digitRun (d :: r')
          .ok (some ds, rest)
        else stopAt .invalidNumber (d :: r')
    else .ok (none, c :: r)

/-- The sign of an exponent, and the bytes after it. -/
def exponentSign : Bytes → Bool × Bytes
  | [] => (false, [])
  | c :: r => if c = 0x2d then (true, r) else if c = 0x2b then (false, r) else (false, c :: r)

/-- The exponent, if there is one. -/
def exponentPart (atEnd : Cause) : Reader (Option (Bool × List Nat))
  | [] => .ok (none, [])
  | c :: r =>
    if c = 0x65 || c = 0x45 then
      let (negative, r₁) := exponentSign r
      match r₁ with
      | [] => stop atEnd []
      | d :: r₂ =>
        if isDigit d then
          let (ds, rest) := digitRun (d :: r₂)
          .ok (some (negative, ds), rest)
        else stop .invalidNumber r₂
    else .ok (none, c :: r)

/-- A numeral. A text that ends inside it is reported as `atEnd`. -/
def readNumeral (atEnd : Cause) : Reader Numeral := fun bs => do
  let (negative, bs) := match bs with
    | 0x2d :: r => (true, r)
    | _ => (false, bs)
  let (whole, bs) ← wholePart atEnd bs
  let (fraction, bs) ← fractionPart atEnd bs
  let (exponent, bs) ← exponentPart atEnd bs
  return (⟨negative, whole, fraction, exponent⟩, bs)

/-! ## Value -/

/-- The largest integer of 64 bits. -/
def maxInteger : Nat := Number.pow2 64 - 1

/-- Appends digits to a number as long as it fits 64 bits; the digits from the first that does not are only counted. -/
def absorb (n : Nat) : List Nat → Nat × Nat
  | [] => (n, 0)
  | d :: ds => if n * 10 + d ≤ maxInteger then absorb (n * 10 + d) ds else (n, ds.length + 1)

/-- The largest exponent. -/
def maxExponent : Nat := Number.pow2 31 - 1

/-- How many digits follow the one with which a number exceeds the largest exponent. -/
def digitsBeyond? (n : Nat) : List Nat → Option Nat
  | [] => none
  | d :: ds => if n * 10 + d ≤ maxExponent then digitsBeyond? (n * 10 + d) ds else some ds.length

namespace Numeral

/-- The digits as one number and a power of ten, the exponent left out. -/
def scaled (n : Numeral) : Nat × Int :=
  let (m, left) := absorb 0 n.whole
  match n.fraction with
  | none => (m, left)
  | some ds =>
    let (m, ignored) := absorb m ds
    (m, left - ((ds.length - ignored : Nat) : Int))

/-- The integer, when the numeral is a plain one and fits; a negative zero does not. -/
def integer? (n : Numeral) : Option Int :=
  match n.fraction, n.exponent, absorb 0 n.whole with
  | none, none, (m, 0) =>
    if n.negative then (if 0 < m ∧ m ≤ Number.pow2 63 then some (-(m : Int)) else none) else some m
  | _, _, _ => none

/-- The double, or how many digits follow the place where the numeral is found to be out of range. -/
def double (n : Numeral) : Except Nat Binary64 :=
  let (m, e) := n.scaled
  let finish (e : Int) : Except Nat Binary64 :=
    match Magnitude.ofDecimal m e with
    | some x => .ok ⟨n.negative, x⟩
    | none => .error 0
  match n.exponent with
  | none => finish e
  | some (negative, ds) =>
    match digitsBeyond? 0 ds with
    | some k => if m = 0 || negative then .ok ⟨n.negative, .zero⟩ else .error k
    | none => finish (if negative then e - Number.ofDigits ds else e + Number.ofDigits ds)

/-- The number that a numeral denotes. -/
def value (n : Numeral) : Except Nat Number :=
  match n.integer? with
  | some i => .ok (.integer i)
  | none => n.double.map .float

end Numeral

/-- A number. -/
def readNumber : Reader Number := fun bs => do
  let (n, rest) ← readNumeral .endInValue bs
  match n.value with
  | .ok v => .ok (v, rest)
  | .error k => .error ⟨.numberOutOfRange, rest.length + k⟩

end RegistryPublisher.Json
