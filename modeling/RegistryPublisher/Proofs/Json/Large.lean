import Mathlib.Tactic.Linarith
import RegistryPublisher.Proofs.Json.Decimals
import RegistryPublisher.Proofs.Json.Representable

/-!
# Integers of any size

- `Magnitude.nearest_ge`, `Magnitude.ofDecimalUp_ge`: a double is not much smaller than what it stands for;
- `Magnitude.shortest_exponent`: from `10^18` on, the shortest decimal of a double ends in a zero;
- `Numeral.IsInteger.held`: an integer that fits 64 bits is held as itself, and any other one as a multiple of ten.
-/

namespace RegistryPublisher

open Number (pow2 pow10 pow2_succ pow2_pos)

namespace Number

theorem pow2_add (m n : Nat) : pow2 (m + n) = pow2 m * pow2 n := Nat.pow_add 2 m n

/-- A number has as many digits as it needs. -/
theorem lt_pow_length (n : Nat) : n < 10 ^ (digits n).length := by
  fun_induction digits n with
  | case1 n h => simpa using h
  | case2 n h ih =>
    rw [List.length_append, List.length_singleton, Nat.pow_succ]
    omega

end Number

namespace Magnitude

/-! ## Rounding -/

theorem roundHalfEven_ge (num den : Nat) : num / den ≤ roundHalfEven num den := by
  unfold roundHalfEven
  dsimp only
  split
  · exact Nat.le_refl _
  · exact Nat.le_succ _

/-- The number of units when a significand of 53 bits is rounded up to one of 54. -/
theorem units_carry (m e : Nat) :
    units (if m = pow2 53 then ⟨pow2 52, e + 1⟩ else ⟨m, e⟩) = m * pow2 e := by
  split
  · next h =>
    subst h
    rw [units, pow2_succ e, pow2_succ 52]
    ring
  · rfl

/-- What is left when bits behind the first 53 are dropped is at least half of the number. -/
theorem le_two_mul_of_bits {n m e : Nat} (he : Nat.log2 n + 1 - 53 = e) (hm : n / pow2 e ≤ m) :
    n ≤ 2 * (m * pow2 e) := by
  have hmul : n / pow2 e * pow2 e ≤ m * pow2 e := Nat.mul_le_mul_right _ hm
  have hmod := Nat.div_add_mod' n (pow2 e)
  have hlt := Nat.mod_lt n (pow2_pos e)
  rcases Nat.eq_zero_or_pos e with rfl | hpos
  · have hone : pow2 0 = 1 := rfl
    omega
  · -- the last bit that is kept is far from the first one
    have hlog : Nat.log2 n = e + 1 + 51 := by omega
    have hne : n ≠ 0 := by
      rintro rfl
      rw [Nat.log2_zero] at hlog
      omega
    have hself : pow2 (e + 1) * pow2 51 ≤ n := by
      rw [← Number.pow2_add, ← hlog]
      exact Nat.log2_self_le hne
    have hle : pow2 (e + 1) ≤ n := (Nat.le_mul_of_pos_right _ (pow2_pos 51)).trans hself
    rw [pow2_succ] at hle
    omega

/-- The nearest double is at least half of what is rounded. -/
theorem nearest_ge {num den : Nat} {x : Magnitude} (h : nearest num den = some x) :
    num * pow2 1074 / den ≤ 2 * x.units := by
  unfold nearest at h
  dsimp only at h
  generalize num * pow2 1074 = n at h ⊢
  generalize he : (Nat.log2 (n / den) + 1) - 53 = e at h
  have hunits := units_carry (roundHalfEven n (den * pow2 e)) e
  generalize (if roundHalfEven n (den * pow2 e) = pow2 53 then _ else _ : Magnitude) = y at h hunits
  obtain rfl : y = x := by
    split at h
    · exact Option.some.inj h
    · cases h
  have hround := roundHalfEven_ge n (den * pow2 e)
  rw [← Nat.div_div_eq_div_mul] at hround
  rw [hunits]
  exact le_two_mul_of_bits he hround

/-- The product of two rounded numbers, rounded once more, has at least an eighth of the exact product. -/
theorem mul_ge {a b x : Magnitude} {m n : Nat} (ha : m * pow2 1074 ≤ 2 * a.units) (hb : n * pow2 1074 ≤ 2 * b.units)
    (h : mul a b = some x) : m * n * pow2 1074 ≤ 8 * x.units := by
  have hx := nearest_ge h
  have hp : pow2 1074 = 4 * pow2 1072 := by
    rw [pow2_succ, pow2_succ]
    ring
  have hpp : pow2 2148 = pow2 1074 * pow2 1074 := Number.pow2_add 1074 1074
  have hdiv : m * n * pow2 1072 ≤ a.units * b.units * pow2 1074 / pow2 2148 := by
    rw [Nat.le_div_iff_mul_le (pow2_pos 2148), hpp]
    calc m * n * pow2 1072 * (pow2 1074 * pow2 1074)
        = (m * pow2 1074) * (n * pow2 1074) * pow2 1072 := by ring
      _ ≤ (2 * a.units) * (2 * b.units) * pow2 1072 := Nat.mul_le_mul_right _ (Nat.mul_le_mul ha hb)
      _ = a.units * b.units * (4 * pow2 1072) := by ring
      _ = a.units * b.units * pow2 1074 := by rw [hp]
  calc m * n * pow2 1074 = 4 * (m * n * pow2 1072) := by rw [hp]; ring
    _ ≤ 4 * (2 * x.units) := Nat.mul_le_mul_left 4 (hdiv.trans hx)
    _ = 8 * x.units := by ring

/-- In double arithmetic a decimal does not lose more than three bits. -/
theorem ofDecimalUp_ge {n e : Nat} {x : Magnitude} (h : ofDecimalUp n e = some x) :
    n * 10 ^ e * pow2 1074 ≤ 8 * x.units := by
  unfold ofDecimalUp at h
  split at h
  · next h0 => simp [h0]
  split at h
  · cases h
  obtain ⟨a, ha, h⟩ := Option.bind_eq_some_iff.1 h
  obtain ⟨b, hb, h⟩ := Option.bind_eq_some_iff.1 h
  have ha := nearest_ge ha
  have hb := nearest_ge hb
  rw [Nat.div_one] at ha hb
  exact mul_ge ha hb h

/-! ## Shortest decimals -/

theorem firstGrid_exponent (x : Magnitude) (fuel : Nat) : ∀ power : Int,
    power - fuel ≤ (x.firstGrid fuel power).exponent := by
  induction fuel with
  | zero => exact fun power => by simp [firstGrid]
  | succ fuel ih =>
    intro power
    rw [firstGrid]
    split
    · simp only
      omega
    · have := ih (power - 1)
      push_cast
      omega

/-- The shortest decimal of a large double ends in a zero. -/
theorem shortest_exponent {x : Magnitude} (h : 10 ^ 18 * pow2 1074 ≤ x.units) : 1 ≤ x.shortest.exponent := by
  have hpos := pow2_pos 1074
  have hone : pow2 1074 ≤ x.units := le_trans (Nat.le_mul_of_pos_left _ (by norm_num)) h
  have hne : x.significand ≠ 0 := by
    intro h0
    rw [units, h0, Nat.zero_mul] at hone
    omega
  have hlength : 18 < (Number.digits (x.units / pow2 1074)).length := by
    have hlt := Number.lt_pow_length (x.units / pow2 1074)
    have hge := (Nat.le_div_iff_mul_le hpos).2 h
    exact (Nat.pow_lt_pow_iff_right (by norm_num)).1 (hge.trans_lt hlt)
  have hgrid := firstGrid_exponent x 17 (leadingPower x.units)
  rw [shortest, if_neg hne]
  rw [leadingPower, if_pos hone] at hgrid ⊢
  omega

end Magnitude

theorem Decimal.exists_ten {d : Decimal} (h : 1 ≤ d.exponent) : ∃ m : ℤ, d.rat = 10 * m := by
  obtain ⟨k, hk⟩ := Int.le.dest h
  refine ⟨d.digits * 10 ^ k, ?_⟩
  rw [rat, ← hk, zpow_add₀ (by norm_num), zpow_one, zpow_natCast]
  push_cast
  ring

/-! ## Numerals -/

namespace Json

/-- Either all digits are taken, or the first one that is not would make too large a number. -/
theorem absorb_cases (ds : List Nat) : ∀ n : Nat,
    absorb n ds = (ds.foldl (fun n d => n * 10 + d) n, 0) ∨
      ∃ d ∈ ds, maxInteger < (absorb n ds).1 * 10 + d ∧ 0 < (absorb n ds).2 := by
  induction ds with
  | nil => exact fun n => Or.inl rfl
  | cons d ds ih =>
    intro n
    rw [absorb]
    split
    · rcases ih (n * 10 + d) with h | ⟨c, hc, h⟩
      · exact Or.inl h
      · exact Or.inr ⟨c, List.mem_cons_of_mem d hc, h⟩
    · next h => exact Or.inr ⟨d, List.mem_cons_self, by simpa using h, Nat.succ_pos _⟩

namespace Numeral

variable {n : Numeral}

/-- What is done with an integer: it is held when all digits are taken and the sign allows it, and otherwise the double
is made. -/
theorem IsInteger.value_eq (h : n.IsInteger) : n.value =
    if (absorb 0 n.whole).2 = 0 ∧ (n.negative = true → 0 < (absorb 0 n.whole).1 ∧ (absorb 0 n.whole).1 ≤ pow2 63) then
      .ok (.integer (if n.negative then -((absorb 0 n.whole).1 : Int) else (absorb 0 n.whole).1))
    else n.double.map .float := by
  obtain ⟨negative, whole, fraction, exponent⟩ := n
  obtain ⟨rfl, rfl⟩ := h
  rw [value, integer?]
  rcases hm : absorb 0 whole with ⟨m, _ | k⟩
  · cases negative with
    | false => simp
    | true =>
      by_cases hb : 0 < m ∧ m ≤ pow2 63 <;> simp [hb]
  · simp

theorem IsInteger.double_eq_ok {y : Binary64} (h : n.IsInteger) (hy : n.double = .ok y) : y.negative = n.negative ∧
    Magnitude.ofDecimalUp (absorb 0 n.whole).1 (absorb 0 n.whole).2 = some y.magnitude := by
  obtain ⟨negative, whole, fraction, exponent⟩ := n
  obtain ⟨rfl, rfl⟩ := h
  rw [double, scaled] at hy
  rcases hm : absorb 0 whole with ⟨m, k⟩
  have hup : Magnitude.ofDecimal m (k : Int) = Magnitude.ofDecimalUp m k := rfl
  simp only [hm, hup] at hy ⊢
  split at hy
  · next x hx =>
    cases hy
    exact ⟨rfl, hx⟩
  · cases hy

theorem exists_float {r : Except Nat Binary64} {x : Number} (h : r.map Number.float = .ok x) :
    ∃ y, r = .ok y ∧ x = .float y := by
  cases r with
  | ok y =>
    cases h
    exact ⟨y, rfl, rfl⟩
  | error k => cases h

/-- A negative zero is held as a zero. -/
theorem IsInteger.held_zero {x : Number} (h : n.IsInteger) (hn : n.negative = true) (hzero : n.int = 0)
    (hx : n.value = .ok x) : x.numeral.rat = 0 := by
  have hdigits : Number.ofDigits n.whole = 0 := by
    rw [int, if_pos hn] at hzero
    omega
  have habsorb : absorb 0 n.whole = (0, 0) := by
    have hle : Number.ofDigits n.whole ≤ maxInteger := hdigits ▸ Nat.zero_le _
    exact (absorb_eq hle).trans (congrArg (·, 0) hdigits)
  rw [h.value_eq, habsorb, if_neg (by simp [hn])] at hx
  obtain ⟨y, hy, rfl⟩ := exists_float hx
  obtain ⟨-, hmagnitude⟩ := h.double_eq_ok hy
  rw [habsorb] at hmagnitude
  rw [Number.numeral_float, Binary64.shortestRat, ← Option.some.inj hmagnitude]
  simp [Decimal.rat, Magnitude.shortest, Magnitude.zero]

/-- An integer that fits 64 bits is held as itself. -/
theorem IsInteger.held {x : Number} (h : n.IsInteger) (hholds : Number.Holds n.int) (hx : n.value = .ok x) :
    x.numeral.rat = n.int := by
  by_cases hzero : n.negative = true ∧ n.int = 0
  · rw [h.held_zero hzero.1 hzero.2 hx, hzero.2, Int.cast_zero]
  · have hplain : n.IsPlain := ⟨h.1, h.2, fun hn h0 => hzero ⟨hn, h0⟩, hholds⟩
    rw [hplain.value_eq] at hx
    cases hx
    exact Number.numeral_integer n.int

/-- What is taken of an integer that does not fit 64 bits. -/
theorem absorb_of_large (hlt : ∀ d ∈ n.whole, d < 10) (h : ¬Number.Holds n.int) :
    pow2 63 ≤ (absorb 0 n.whole).1 * 10 ^ (absorb 0 n.whole).2 ∧
      ¬((absorb 0 n.whole).2 = 0 ∧
        (n.negative = true → 0 < (absorb 0 n.whole).1 ∧ (absorb 0 n.whole).1 ≤ pow2 63)) := by
  have h63 : pow2 63 = 9223372036854775808 := rfl
  have h64 : pow2 64 = 18446744073709551616 := rfl
  have hmax : maxInteger = 18446744073709551615 := rfl
  rcases absorb_cases n.whole 0 with heq | ⟨d, hd, hbeyond, hk⟩
  · have hle : (absorb 0 n.whole).1 ≤ maxInteger := absorb_le (Nat.zero_le _)
    rw [heq] at hle ⊢
    change Number.ofDigits n.whole ≤ _ at hle
    change pow2 63 ≤ Number.ofDigits n.whole * 10 ^ 0 ∧ ¬(0 = 0 ∧ (n.negative = true →
      0 < Number.ofDigits n.whole ∧ Number.ofDigits n.whole ≤ pow2 63))
    unfold Number.Holds int at h
    cases hn : n.negative <;> simp [hn] at h ⊢ <;> omega
  · have hd := hlt d hd
    obtain ⟨k, hk⟩ := Nat.exists_eq_succ_of_ne_zero (Nat.ne_of_gt hk)
    have hpow : 1 ≤ 10 ^ k := Nat.one_le_pow _ _ (by decide)
    have hmul : (absorb 0 n.whole).1 * 10 ≤ (absorb 0 n.whole).1 * 10 ^ (absorb 0 n.whole).2 := by
      rw [hk, Nat.pow_succ]
      exact Nat.mul_le_mul_left _ (by omega)
    exact ⟨by omega, fun h0 => by omega⟩

/-- An integer that does not fit 64 bits is held as a double, and then written as a multiple of ten. -/
theorem IsInteger.held_large {x : Number} (h : n.IsInteger) (hlt : ∀ d ∈ n.whole, d < 10)
    (hlarge : ¬Number.Holds n.int) (hx : n.value = .ok x) :
    ∃ y, n.double = .ok y ∧ x.numeral.rat = y.shortestRat ∧ ∃ m : ℤ, y.shortestRat = 10 * m := by
  obtain ⟨hge, hnot⟩ := absorb_of_large hlt hlarge
  rw [h.value_eq, if_neg hnot] at hx
  obtain ⟨y, hy, rfl⟩ := exists_float hx
  refine ⟨y, hy, Number.numeral_float y, ?_⟩
  obtain ⟨-, hmagnitude⟩ := h.double_eq_ok hy
  have hunits : 10 ^ 18 * pow2 1074 ≤ y.magnitude.units := by
    have h8 := Magnitude.ofDecimalUp_ge hmagnitude
    have h63 : 8 * 10 ^ 18 ≤ pow2 63 := by decide
    have hmul := Nat.mul_le_mul_right (pow2 1074) (h63.trans hge)
    linarith
  obtain ⟨m, hm⟩ := Decimal.exists_ten (Magnitude.shortest_exponent hunits)
  refine ⟨if y.negative then -m else m, ?_⟩
  rw [Binary64.shortestRat, hm, sign]
  cases y.negative <;> simp

end Numeral

end Json

end RegistryPublisher
