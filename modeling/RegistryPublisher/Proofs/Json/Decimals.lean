import Mathlib.Algebra.Field.Rat
import Mathlib.Data.List.Induction
import Mathlib.Tactic.NormNum
import Mathlib.Tactic.Ring
import RegistryPublisher.Proofs.Json.Ends
import RegistryPublisher.Proofs.Json.NumeralText

/-!
# What written numbers denote

- `Numeral.rat`: the number that a numeral denotes, exactly;
- `Decimal.numeral`: the numeral that a decimal is written as (`Decimal.written_spelled`), which denotes it
  (`Decimal.numeral_rat`);
- `Number.render_spelled`, `Number.numeral_integer` and `Number.numeral_float`: so for the numbers that are held.
-/

namespace RegistryPublisher

namespace Number

theorem ofDigits_append (ds es : List Nat) : ofDigits (ds ++ es) = ofDigits ds * 10 ^ es.length + ofDigits es := by
  induction es using List.reverseRecOn with
  | nil => simp [ofDigits]
  | append_singleton es e ih =>
    rw [← List.append_assoc, ofDigits_append_singleton, ofDigits_append_singleton, ih, List.length_append,
      List.length_singleton]
    ring

theorem ofDigits_zeros (k : Nat) : ofDigits (List.replicate k 0) = 0 := by
  induction k with
  | zero => rfl
  | succ k ih => rw [List.replicate_succ', ofDigits_append_singleton, ih]

theorem ofDigits_append_zeros (ds : List Nat) (k : Nat) :
    ofDigits (ds ++ List.replicate k 0) = ofDigits ds * 10 ^ k := by
  rw [ofDigits_append, ofDigits_zeros, List.length_replicate, Nat.add_zero]

theorem ofDigits_zeros_append (k : Nat) (ds : List Nat) : ofDigits (List.replicate k 0 ++ ds) = ofDigits ds := by
  rw [ofDigits_append, ofDigits_zeros, Nat.zero_mul, Nat.zero_add]

end Number

namespace Json.Numeral

/-- The digits, without the point. -/
def digits (n : Numeral) : List Nat := n.whole ++ n.fraction.getD []

/-- The exponent that is written. -/
def scale (n : Numeral) : Int :=
  match n.exponent with
  | none => 0
  | some (negative, ds) => if negative then -(Number.ofDigits ds : Int) else Number.ofDigits ds

/-- The power of ten of the last digit. -/
def power (n : Numeral) : Int := n.scale - (n.fraction.getD []).length

/-- The sign as a factor. -/
def sign (negative : Bool) : ℚ := if negative then -1 else 1

/-- The number that a numeral denotes. -/
def rat (n : Numeral) : ℚ := sign n.negative * (Number.ofDigits n.digits * 10 ^ n.power)

/-- A numeral without a fraction or an exponent. -/
def IsInteger (n : Numeral) : Prop := n.fraction = none ∧ n.exponent = none

/-- Such a numeral denotes an integer. -/
theorem IsInteger.rat_eq {n : Numeral} (h : n.IsInteger) : n.rat = n.int := by
  obtain ⟨negative, whole, fraction, exponent⟩ := n
  obtain ⟨rfl, rfl⟩ := h
  cases negative <;> simp [rat, sign, digits, power, scale, int]

end Json.Numeral

open Json (Numeral NumeralText DigitsText WholeText FractionText ExponentText SignText)

/-! ## Decimals -/

namespace Decimal

/-- The number that a decimal is. -/
def rat (d : Decimal) : ℚ := d.digits * 10 ^ d.exponent

/-- The digits after a first one, if there are any. -/
def tail? (ds : List Nat) : Option (List Nat) := if ds.isEmpty then none else some ds

/-- The numeral that a decimal is written as. -/
def numeral (d : Decimal) : Numeral :=
  if d.digits = 0 then ⟨false, [0], some [0], none⟩
  else if -5 ≤ d.leading ∧ d.leading ≤ 15 then
    let (whole, fraction) := pointAfter d.significant (d.leading + 1)
    ⟨false, whole, some (if fraction.isEmpty then [0] else fraction), none⟩
  else
    ⟨false, d.significant.take 1, tail? (d.significant.drop 1),
      some (decide (d.leading < 0), Number.digits d.leading.natAbs)⟩

/-! ### Digits -/

/-- Digits are those without zeros at the end, and these zeros. -/
theorem exists_zeros (ds : List Nat) :
    ∃ k, ds = (ds.reverse.dropWhile (· == 0)).reverse ++ List.replicate k 0 := by
  have hzeros : ds.reverse.takeWhile (· == 0) = List.replicate (ds.reverse.takeWhile (· == 0)).length 0 :=
    List.eq_replicate_of_mem fun b hb => by simpa using List.mem_takeWhile_imp hb
  have hsplit := congrArg List.reverse (List.takeWhile_append_dropWhile (p := (· == 0)) (l := ds.reverse))
  rw [List.reverse_append, List.reverse_reverse, hzeros, List.reverse_replicate] at hsplit
  exact ⟨_, hsplit.symm⟩

/-- A decimal that is not zero is its significant digits, and the power of ten of the first one. -/
theorem exists_significant {d : Decimal} (h : d.digits ≠ 0) : ∃ a r, d.significant = a :: r ∧ 0 < a ∧
    d.rat = Number.ofDigits (a :: r) * 10 ^ (d.leading - r.length) := by
  obtain ⟨a, s, hs, ha⟩ := Number.exists_digits_cons d.digits (Nat.pos_of_ne_zero h)
  obtain ⟨k, hk⟩ : ∃ k, Number.digits d.digits = d.significant ++ List.replicate k 0 := exists_zeros _
  -- the first digit is not among the zeros
  obtain ⟨b, r, hbr⟩ : ∃ b r, d.significant = b :: r := by
    refine List.exists_cons_of_ne_nil fun hnil => ?_
    have hzero : a ∈ List.replicate k 0 := by
      rw [← List.nil_append (List.replicate k 0), ← hnil, ← hk, hs]
      exact List.mem_cons_self
    exact absurd (List.eq_of_mem_replicate hzero) (Nat.ne_of_gt ha)
  have hab : b = a := by
    rw [hs, hbr] at hk
    exact (List.cons.inj hk).1.symm
  have hdigits : d.digits = Number.ofDigits (b :: r) * 10 ^ k := by
    rw [← hbr, ← Number.ofDigits_append_zeros, ← hk, Number.ofDigits_digits]
  have hleading : d.leading - r.length = d.exponent + k := by
    rw [leading, hk, hbr, List.length_append, List.length_cons, List.length_replicate]
    push_cast
    ring
  refine ⟨b, r, hbr, hab ▸ ha, ?_⟩
  rw [rat, hleading, hdigits, zpow_add₀ (by norm_num), zpow_natCast]
  push_cast
  ring

theorem encode_text {ds : List Nat} (h : ∀ d ∈ ds, d < 10) : Utf8.encode (text ds) = ds.map Number.digitByte := by
  have hdigit : ∀ d : Fin 10, String.utf8EncodeChar (Char.ofNat (0x30 + d)) = [Number.digitByte d] := by decide
  rw [Utf8.encode, text, String.toList_ofList]
  induction ds with
  | nil => rfl
  | cons d ds ih =>
    obtain ⟨hd, hds⟩ := List.forall_mem_cons.1 h
    rw [List.map_cons, List.flatMap_cons, ih hds, List.map_cons, hdigit ⟨d, hd⟩]
    rfl

/-! ### With a point -/

theorem rat_point (whole fraction : List Nat) : Numeral.rat ⟨false, whole, some fraction, none⟩ =
    Number.ofDigits (whole ++ fraction) * 10 ^ (-(fraction.length : Int)) := by
  simp [Numeral.rat, Numeral.sign, Numeral.digits, Numeral.power, Numeral.scale]

/-- Digits around a point, with zeros where there are none, denote what they do with a power of ten. -/
theorem pointAfter_rat {ds : List Nat} (hds : ds ≠ []) (n : Int) : Numeral.rat ⟨false, (pointAfter ds n).1,
      some (if (pointAfter ds n).2.isEmpty then [0] else (pointAfter ds n).2), none⟩ =
    Number.ofDigits ds * 10 ^ (n - ds.length) := by
  rw [rat_point, pointAfter]
  split
  · next hn =>
    have hlen : ((-n).toNat : Int) = -n := Int.toNat_of_nonneg (by omega)
    have hfull : (List.replicate (-n).toNat 0 ++ ds).isEmpty = false := by simp [hds]
    have hzero : Number.ofDigits ([0] ++ (List.replicate (-n).toNat 0 ++ ds)) = Number.ofDigits ds := by
      rw [← List.append_assoc]
      exact Number.ofDigits_zeros_append ((-n).toNat + 1) ds
    simp only [hfull, Bool.false_eq_true, if_false, hzero, List.length_append, List.length_replicate]
    congr 2
    push_cast
    omega
  · next hn =>
    have hlen : (n.toNat : Int) = n := Int.toNat_of_nonneg (by omega)
    rcases Nat.lt_or_ge n.toNat ds.length with hlt | hge
    · have hfull : (ds.drop n.toNat).isEmpty = false := by simpa using hlt
      have hnone : n.toNat - ds.length = 0 := by omega
      simp only [hfull, Bool.false_eq_true, if_false, hnone, List.replicate_zero, List.append_nil,
        List.take_append_drop, List.length_drop]
      congr 2
      omega
    · -- all digits stand before the point, and a zero behind it
      simp only [List.drop_of_length_le hge, List.take_of_length_le hge, List.isEmpty_nil, if_true,
        Number.ofDigits_append_singleton, Number.ofDigits_append_zeros, List.length_singleton]
      have hpow : (10 : ℚ) ^ (n - ds.length) = 10 ^ (n.toNat - ds.length) := by
        rw [← zpow_natCast, Nat.cast_sub hge, hlen]
      rw [hpow]
      push_cast
      norm_num
      ring

theorem whole_spelled {a : Nat} {r : List Nat} (h : ∀ d ∈ a :: r, d < 10) (ha : 0 < a) (n : Int) :
    WholeText (pointAfter (a :: r) n).1 ((pointAfter (a :: r) n).1.map Number.digitByte) := by
  have hlt := (pointAfter_lt h n).1
  unfold pointAfter at hlt ⊢
  split
  · exact .zero
  · next hn =>
    obtain ⟨m, hm⟩ := Nat.exists_eq_succ_of_ne_zero (show n.toNat ≠ 0 by omega)
    rw [if_neg hn] at hlt
    simp only [hm, List.take_succ_cons, List.cons_append] at hlt ⊢
    exact .positive ha ⟨List.cons_ne_nil _ _, hlt, rfl⟩

/-- A digit stands behind the point. -/
theorem fraction_spelled {ds : List Nat} (h : ∀ d ∈ ds, d < 10) :
    DigitsText (if ds.isEmpty then [0] else ds) (Utf8.encode (if ds.isEmpty then "0" else text ds)) := by
  split
  · exact ⟨List.cons_ne_nil _ _, by simp, rfl⟩
  · next hne => exact ⟨by simpa using hne, h, encode_text h⟩

/-! ### With an exponent -/

theorem getD_tail? (ds : List Nat) : (tail? ds).getD [] = ds := by
  cases ds <;> rfl

/-- A numeral with one digit before the point and an exponent. -/
theorem rat_scientific (a : Nat) (r : List Nat) (n : Int) :
    Numeral.rat ⟨false, [a], tail? r, some (decide (n < 0), Number.digits n.natAbs)⟩ =
      Number.ofDigits (a :: r) * 10 ^ (n - r.length) := by
  have hscale : (if decide (n < 0) then -(Number.ofDigits (Number.digits n.natAbs) : Int)
      else Number.ofDigits (Number.digits n.natAbs)) = n := by
    rw [Number.ofDigits_digits]
    by_cases hn : n < 0
    · rw [if_pos (by simpa using hn)]
      omega
    · rw [if_neg (by simpa using hn)]
      omega
  simp only [Numeral.rat, Numeral.sign, Numeral.digits, Numeral.power, Numeral.scale, getD_tail?, hscale,
    List.singleton_append, Bool.false_eq_true, if_false, one_mul]

theorem tail_spelled {ds : List Nat} (h : ∀ d ∈ ds, d < 10) :
    FractionText (tail? ds) (if ds.isEmpty then [] else 0x2e :: ds.map Number.digitByte) := by
  cases ds with
  | nil => exact .none
  | cons d ds => exact .some ⟨List.cons_ne_nil d ds, h, rfl⟩

theorem exponent_spelled (n : Int) : ExponentText (some (decide (n < 0), Number.digits n.natAbs))
    (0x65 :: (Utf8.encode (if n < 0 then "-" else "+") ++ (Number.digits n.natAbs).map Number.digitByte)) := by
  have hdigits : DigitsText (Number.digits n.natAbs) ((Number.digits n.natAbs).map Number.digitByte) :=
    ⟨List.ne_nil_of_length_pos (Number.digits_length_pos _), Number.digits_lt _, rfl⟩
  by_cases hn : n < 0
  · rw [if_pos hn, decide_eq_true hn]
    exact .some (Or.inl rfl) .minus hdigits
  · rw [if_neg hn, decide_eq_false hn]
    exact .some (Or.inl rfl) .plus hdigits

/-- A first digit, a point if there are others, and the exponent. -/
theorem encode_scientific {d : Decimal} {a : Nat} {r : List Nat} (h : d.significant = a :: r) :
    Utf8.encode d.scientific = [a].map Number.digitByte ++
      ((if r.isEmpty then [] else 0x2e :: r.map Number.digitByte) ++
        0x65 :: (Utf8.encode (if d.leading < 0 then "-" else "+") ++
          (Number.digits d.leading.natAbs).map Number.digitByte)) := by
  have hlt : ∀ d ∈ a :: r, d < 10 := h ▸ d.significant_lt
  obtain ⟨ha, hr⟩ := List.forall_mem_cons.1 hlt
  have hfirst : Utf8.encode (text [a]) = [a].map Number.digitByte := encode_text (List.forall_mem_singleton.2 ha)
  have hexponent := encode_text (Number.digits_lt d.leading.natAbs)
  unfold scientific
  rw [h]
  cases r with
  | nil =>
    simp only [Utf8.encode_append, hfirst, hexponent, List.append_assoc]
    rfl
  | cons b r =>
    simp only [Utf8.encode_append, hfirst, encode_text hr, hexponent, List.append_assoc]
    rfl

/-! ### All decimals -/

/-- The numeral of a decimal denotes it. -/
theorem numeral_rat (d : Decimal) : d.numeral.rat = d.rat := by
  unfold numeral
  split
  · next h => simp [rat_point, rat, h, Number.ofDigits]
  next h =>
  obtain ⟨a, r, hs, -, hrat⟩ := exists_significant h
  split
  · refine (pointAfter_rat (by rw [hs]; exact List.cons_ne_nil a r) _).trans ?_
    rw [hrat, hs, List.length_cons]
    congr 2
    push_cast
    ring
  · rw [hrat, hs]
    exact rat_scientific a r _

/-- A decimal is written as its numeral. -/
theorem written_spelled (d : Decimal) : NumeralText d.numeral (Utf8.encode d.written) := by
  unfold numeral written
  split
  · exact .of_parts .zero (.some ⟨List.cons_ne_nil 0 [], by decide, rfl⟩) .none rfl
  next h =>
  obtain ⟨a, r, hs, ha, -⟩ := exists_significant h
  have hlt : ∀ d ∈ a :: r, d < 10 := hs ▸ d.significant_lt
  split
  · have hparts := pointAfter_lt hlt (d.leading + 1)
    rw [hs]
    refine .of_parts (whole_spelled hlt ha (d.leading + 1)) (.some (fraction_spelled hparts.2)) .none ?_
    rw [Utf8.encode_append, Utf8.encode_append, encode_text hparts.1]
    simp
    rfl
  · have hfirst : ∀ d ∈ [a], d < 10 := List.forall_mem_singleton.2 (List.forall_mem_cons.1 hlt).1
    rw [encode_scientific hs, hs]
    exact .of_parts (.positive ha ⟨List.cons_ne_nil a [], hfirst, rfl⟩) (tail_spelled (List.forall_mem_cons.1 hlt).2)
      (exponent_spelled d.leading) rfl

end Decimal

/-! ## Numbers that are held -/

/-- The shortest decimal that reads back as a finite double, which is what the double is written as. -/
def Binary64.shortestRat (x : Binary64) : ℚ := Numeral.sign x.negative * x.magnitude.shortest.rat

namespace Number

/-- The numeral that a number is written as. -/
def numeral : Number → Numeral
  | .integer i => Numeral.ofInt i
  | .float x => { x.magnitude.shortest.numeral with negative := x.negative }

theorem decimal_spelled (n : Nat) : WholeText (digits n) (decimal n) := by
  rcases Nat.eq_zero_or_pos n with rfl | hn
  · have h : digits 0 = [0] := by rw [digits]; rfl
    rw [decimal, h]
    exact .zero
  · obtain ⟨d, ds, h, hd⟩ := exists_digits_cons n hn
    have hlt := digits_lt n
    rw [decimal]
    rw [h] at hlt ⊢
    exact .positive hd ⟨List.cons_ne_nil d ds, hlt, rfl⟩

theorem negative_numeral (d : Decimal) : d.numeral.negative = false := by
  unfold Decimal.numeral
  split
  · rfl
  split <;> rfl

/-- A number is written as its numeral. -/
theorem render_spelled (x : Number) : NumeralText x.numeral x.render := by
  cases x with
  | integer i =>
    cases i with
    | ofNat n => exact .of_parts (decimal_spelled n) .none .none (List.append_nil _).symm
    | negSucc n =>
      exact .of_parts (decimal_spelled (n + 1)) .none .none (congrArg (0x2d :: ·) (List.append_nil _).symm)
  | float x =>
    have hsign : render (.float x) = Json.minusBytes x.negative ++ Utf8.encode x.magnitude.shortest.written := by
      rw [render, Binary64.written, Utf8.encode_append]
      cases x.negative <;> rfl
    rw [hsign]
    exact x.magnitude.shortest.written_spelled.signed (negative_numeral _) x.negative

theorem numeral_integer (i : Int) : (numeral (.integer i)).rat = i := by
  have hplain : (Numeral.ofInt i).IsInteger := by cases i <;> exact ⟨rfl, rfl⟩
  rw [numeral, hplain.rat_eq, Numeral.int_ofInt]

theorem numeral_float (x : Binary64) : (numeral (.float x)).rat = x.shortestRat := by
  have hrat := x.magnitude.shortest.numeral_rat
  rw [Numeral.rat, negative_numeral, Numeral.sign, if_neg Bool.false_ne_true, one_mul] at hrat
  rw [Binary64.shortestRat, ← hrat]
  rfl

end Number

end RegistryPublisher
