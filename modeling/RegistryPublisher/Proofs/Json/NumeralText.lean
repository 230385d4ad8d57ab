import Mathlib.Data.List.TakeWhile
import RegistryPublisher.Proofs.Json.TreeForm

/-!
# How numbers are spelled

The grammar of numbers, apart from any reader.

- `NumeralText n w`: the bytes `w` spell the numeral `n`, as a sign, `WholeText`, `FractionText` and `ExponentText`;
- `NumeralText.read`: a spelled numeral is read wherever no byte follows that would continue it;
- `exists_numeralText`: what is read as a numeral is spelled.
-/

namespace RegistryPublisher.Json

/-! ## The grammar -/

/-- Decimal digits, at least one, with a byte for each. -/
structure DigitsText (ds : List Nat) (w : Bytes) : Prop where
  ne_nil : ds ≠ []
  lt : ∀ d ∈ ds, d < 10
  bytes : w = ds.map Number.digitByte

/-- The digits before the point: a zero stands alone. -/
inductive WholeText : List Nat → Bytes → Prop
  | zero : WholeText [0] [0x30]
  | positive {d : Nat} {ds : List Nat} {w : Bytes} (h : 0 < d) (text : DigitsText (d :: ds) w) : WholeText (d :: ds) w

/-- The digits after the point, if there is a point. -/
inductive FractionText : Option (List Nat) → Bytes → Prop
  | none : FractionText none []
  | some {ds : List Nat} {w : Bytes} (text : DigitsText ds w) : FractionText (some ds) (0x2e :: w)

/-- The sign of an exponent, which may be left out. -/
inductive SignText : Bool → Bytes → Prop
  | none : SignText false []
  | plus : SignText false [0x2b]
  | minus : SignText true [0x2d]

/-- The exponent, if there is one, after an `e` in either case. -/
inductive ExponentText : Option (Bool × List Nat) → Bytes → Prop
  | none : ExponentText none []
  | some {negative : Bool} {ds : List Nat} {e : UInt8} {s w : Bytes} (letter : e = 0x65 ∨ e = 0x45)
      (sign : SignText negative s) (text : DigitsText ds w) : ExponentText (some (negative, ds)) (e :: (s ++ w))

/-- The sign of a number: only a minus is written. -/
def minusBytes (negative : Bool) : Bytes := if negative then [0x2d] else []

/-- A number. -/
inductive NumeralText (n : Numeral) : Bytes → Prop
  | mk {w f e : Bytes} (whole : WholeText n.whole w) (fraction : FractionText n.fraction f)
      (exponent : ExponentText n.exponent e) : NumeralText n (minusBytes n.negative ++ (w ++ (f ++ e)))

theorem NumeralText.of_parts {n : Numeral} {w f e text : Bytes} (whole : WholeText n.whole w)
    (fraction : FractionText n.fraction f) (exponent : ExponentText n.exponent e)
    (h : text = minusBytes n.negative ++ (w ++ (f ++ e))) : NumeralText n text :=
  h ▸ .mk whole fraction exponent

/-- A minus may be put before a numeral without a sign. -/
theorem NumeralText.signed {n : Numeral} {text : Bytes} (h : NumeralText n text) (hn : n.negative = false)
    (negative : Bool) : NumeralText { n with negative } (minusBytes negative ++ text) := by
  obtain ⟨hw, hf, he⟩ := h
  exact .of_parts hw hf he (by rw [hn]; rfl)

theorem WholeText.lt {ds : List Nat} {w : Bytes} (h : WholeText ds w) : ∀ d ∈ ds, d < 10 := by
  cases h with
  | zero => simp
  | positive _ text => exact text.lt

theorem NumeralText.whole_lt {n : Numeral} {w : Bytes} (h : NumeralText n w) : ∀ d ∈ n.whole, d < 10 := by
  obtain ⟨hw, -, -⟩ := h
  exact hw.lt

/-! ## Digits -/

/-- A rest that does not continue digits. -/
def EndsDigits (rest : Bytes) : Prop := ∀ b r, rest = b :: r → isDigit b = false

theorem DigitsText.isDigit {ds : List Nat} {w : Bytes} (h : DigitsText ds w) : ∀ b ∈ w, isDigit b = true := by
  rw [h.bytes]
  intro b hb
  obtain ⟨d, hd, rfl⟩ := List.mem_map.1 hb
  exact Number.isDigit_digitByte (h.lt d hd)

theorem DigitsText.exists_cons {ds : List Nat} {w : Bytes} (h : DigitsText ds w) :
    ∃ b r, w = b :: r ∧ Json.isDigit b = true := by
  have hne : w ≠ [] := by
    rw [h.bytes]
    exact mt List.map_eq_nil_iff.1 h.ne_nil
  obtain ⟨b, r, rfl⟩ := List.exists_cons_of_ne_nil hne
  exact ⟨b, r, rfl, h.isDigit b List.mem_cons_self⟩

theorem DigitsText.run {ds : List Nat} {w rest : Bytes} (h : DigitsText ds w) (hrest : EndsDigits rest) :
    digitRun (w ++ rest) = (ds, rest) := by
  have hstop : rest.takeWhile Json.isDigit = [] ∧ rest.dropWhile Json.isDigit = rest := by
    cases rest with
    | nil => exact ⟨rfl, rfl⟩
    | cons b r =>
      have hb := hrest b r rfl
      exact ⟨by rw [List.takeWhile_cons, hb]; rfl, by rw [List.dropWhile_cons, hb]; rfl⟩
  rw [digitRun, List.takeWhile_append_of_pos h.isDigit, List.dropWhile_append_of_pos h.isDigit, hstop.1, hstop.2,
    List.append_nil, h.bytes, List.map_map]
  congr 1
  refine (List.map_congr_left fun d hd => ?_).trans (List.map_id _)
  have := Number.digitByte_toNat (h.lt d hd)
  simp [this]

/-- Digits that come next are spelled. -/
theorem exists_digitsText {b : UInt8} {r rest : Bytes} {ds : List Nat} (hb : isDigit b = true)
    (h : digitRun (b :: r) = (ds, rest)) : ∃ w, b :: r = w ++ rest ∧ DigitsText ds w := by
  obtain ⟨hds, hrest⟩ := Prod.mk.inj h
  have hdigit : ∀ c ∈ (b :: r).takeWhile isDigit, Number.digitByte (c.toNat - 0x30) = c ∧ c.toNat - 0x30 < 10 := by
    intro c hc
    have hc := List.mem_takeWhile_imp hc
    simp only [isDigit, Bool.and_eq_true, decide_eq_true_eq, UInt8.le_iff_toNat_le] at hc
    have hc : 0x30 ≤ c.toNat ∧ c.toNat ≤ 0x39 := hc
    exact ⟨Utf8.ofNat_toNat (by omega), by omega⟩
  refine ⟨(b :: r).takeWhile isDigit, ?_, ?_, ?_, ?_⟩
  · rw [← hrest, List.takeWhile_append_dropWhile]
  · rw [← hds, List.takeWhile_cons, if_pos hb]
    exact List.cons_ne_nil _ _
  · rw [← hds]
    intro d hd
    obtain ⟨c, hc, rfl⟩ := List.mem_map.1 hd
    exact (hdigit c hc).2
  · rw [← hds, List.map_map]
    exact ((List.map_congr_left fun c hc => (hdigit c hc).1).trans (List.map_id _)).symm

/-! ## Parts of a number -/

section Read

variable {rest : Bytes} {atEnd : Cause}

theorem WholeText.read {ds : List Nat} {w : Bytes} (h : WholeText ds w) (hrest : EndsDigits rest) :
    wholePart atEnd (w ++ rest) = .ok (ds, rest) := by
  cases h with
  | zero =>
    cases rest with
    | nil => rfl
    | cons b r =>
      have hb := hrest b r rfl
      change (if isDigit b then _ else _) = _
      rw [hb]
      rfl
  | @positive d ds w hd text =>
    have hrun := text.run hrest
    have hb := text.lt d List.mem_cons_self
    have hbyte := Number.digitByte_toNat hb
    have hne : Number.digitByte d ≠ 0x30 := ne_of_toNat_ne (n := 0x30) (by omega) (by decide)
    rw [text.bytes, List.map_cons, List.cons_append] at hrun ⊢
    rw [wholePart.eq_def]
    simp only [if_neg hne, if_pos (Number.isDigit_digitByte hb), hrun]

theorem FractionText.read {ds : Option (List Nat)} {w : Bytes} (h : FractionText ds w) (hrest : EndsDigits rest)
    (hpoint : ∀ r, rest ≠ 0x2e :: r) : fractionPart atEnd (w ++ rest) = .ok (ds, rest) := by
  cases h with
  | none =>
    cases rest with
    | nil => rfl
    | cons b r => exact if_neg fun hb => hpoint r (by rw [hb])
  | some text =>
    have hrun := text.run hrest
    obtain ⟨b, r, rfl, hb⟩ := text.exists_cons
    rw [List.cons_append] at hrun
    rw [List.cons_append, List.cons_append, fractionPart.eq_def]
    simp only [if_true, if_pos hb, hrun]

theorem SignText.read {negative : Bool} {s : Bytes} (h : SignText negative s) {b : UInt8} (hb : isDigit b = true)
    (r : Bytes) : exponentSign (s ++ b :: r) = (negative, b :: r) := by
  cases h with
  | none =>
    have hne : ∀ c, isDigit c = false → b ≠ c := by
      rintro c hc rfl
      exact absurd (hb.symm.trans hc) (by decide)
    rw [List.nil_append, exponentSign, if_neg (hne 0x2d rfl), if_neg (hne 0x2b rfl)]
  | plus => rfl
  | minus => rfl

theorem ExponentText.read {e : Option (Bool × List Nat)} {w : Bytes} (h : ExponentText e w) (hrest : Delimited rest) :
    exponentPart atEnd (w ++ rest) = .ok (e, rest) := by
  cases h with
  | none => exact exponentPart_delimited hrest atEnd
  | some letter sign text =>
    have hrun := text.run fun b r h => (hrest b r h).1
    obtain ⟨b, r, rfl, hb⟩ := text.exists_cons
    have hsign := sign.read hb (r ++ rest)
    rw [List.cons_append] at hrun
    rw [List.cons_append, List.append_assoc, List.cons_append, exponentPart, if_pos (by simpa using letter), hsign]
    simp only [if_pos hb, hrun]

/-! ## Numbers -/

theorem ExponentText.ends {e : Option (Bool × List Nat)} {w : Bytes} (h : ExponentText e w) (hrest : Delimited rest) :
    EndsDigits (w ++ rest) ∧ ∀ r, w ++ rest ≠ 0x2e :: r := by
  cases h with
  | none =>
    refine ⟨fun b r hb => (hrest b r hb).1, fun r hr => ?_⟩
    exact (hrest _ r hr).2.1 rfl
  | some letter _ _ =>
    refine ⟨fun b r hb => ?_, fun r hr => ?_⟩
    · rw [← (List.cons.inj hb).1]
      rcases letter with rfl | rfl <;> rfl
    · have hpoint := (List.cons.inj hr).1
      rcases letter with rfl | rfl <;> cases hpoint

theorem FractionText.ends {ds : Option (List Nat)} {w : Bytes} (h : FractionText ds w) (hrest : EndsDigits rest) :
    EndsDigits (w ++ rest) := by
  cases h with
  | none => exact hrest
  | some _ =>
    intro b r hb
    rw [← (List.cons.inj hb).1]
    rfl

theorem WholeText.exists_cons {ds : List Nat} {w : Bytes} (h : WholeText ds w) :
    ∃ b r, w = b :: r ∧ isDigit b = true := by
  cases h with
  | zero => exact ⟨_, _, rfl, rfl⟩
  | positive _ text => exact text.exists_cons

theorem NumeralText.exists_head {n : Numeral} {w : Bytes} (h : NumeralText n w) :
    ∃ c r, w = c :: r ∧ startsNumber c = true := by
  obtain ⟨negative, whole, fraction, exponent⟩ := n
  obtain ⟨hw, -, -⟩ := h
  cases negative with
  | true => exact ⟨0x2d, _, rfl, rfl⟩
  | false =>
    obtain ⟨b, r, rfl, hb⟩ := hw.exists_cons
    exact ⟨b, _, rfl, by simp [startsNumber, hb]⟩

/-- Only a minus is taken for the sign of a number. -/
theorem readNumeral_unsigned {b : UInt8} (hb : isDigit b = true) (r : Bytes) : readNumeral atEnd (b :: r) = (do
    let (whole, bs) ← wholePart atEnd (b :: r)
    let (fraction, bs) ← fractionPart atEnd bs
    let (exponent, bs) ← exponentPart atEnd bs
    return (⟨false, whole, fraction, exponent⟩, bs)) := by
  rw [readNumeral]
  rintro r' hminus
  cases hminus
  exact absurd hb (by decide)

/-- A spelled numeral is read where nothing continues it. -/
theorem NumeralText.read {n : Numeral} {w : Bytes} (h : NumeralText n w) (hrest : Delimited rest) :
    readNumeral atEnd (w ++ rest) = .ok (n, rest) := by
  obtain ⟨negative, whole, fraction, exponent⟩ := n
  obtain ⟨hw, hf, he⟩ := h
  next w f e =>
  obtain ⟨hends, hpoint⟩ := he.ends hrest
  have hparts : (do
      let (whole, bs) ← wholePart atEnd (w ++ (f ++ (e ++ rest)))
      let (fraction, bs) ← fractionPart atEnd bs
      let (exponent, bs) ← exponentPart atEnd bs
      return ((⟨negative, whole, fraction, exponent⟩ : Numeral), bs) : Except Fault (Numeral × Bytes)) =
      .ok (⟨negative, whole, fraction, exponent⟩, rest) :=
    bind_eq_ok_iff.2 ⟨_, hw.read (hf.ends hends), bind_eq_ok_iff.2 ⟨_, hf.read hends hpoint,
      bind_eq_ok_iff.2 ⟨_, he.read hrest, rfl⟩⟩⟩
  simp only [List.append_assoc]
  cases negative with
  | true => exact hparts
  | false =>
    obtain ⟨b, r, rfl, hb⟩ := hw.exists_cons
    exact (readNumeral_unsigned hb _).trans hparts

end Read

section Found

variable {bs rest : Bytes} {atEnd : Cause}

theorem exists_wholeText {ds : List Nat} (h : wholePart atEnd bs = .ok (ds, rest)) :
    ∃ w, bs = w ++ rest ∧ WholeText ds w := by
  unfold wholePart at h
  split at h
  · cases h
  next c r =>
  split at h
  · next hc =>
    subst hc
    split at h
    · split at h
      · cases h
      · cases h
        exact ⟨[0x30], rfl, .zero⟩
    · cases h
      exact ⟨[0x30], rfl, .zero⟩
  split at h
  · next hzero hc =>
    obtain ⟨w, e, hw⟩ := exists_digitsText hc (Except.ok.inj h)
    refine ⟨w, e, ?_⟩
    obtain ⟨d, ds, rfl⟩ := List.exists_cons_of_ne_nil hw.ne_nil
    refine .positive (Nat.pos_of_ne_zero ?_) hw
    rintro rfl
    rw [hw.bytes, List.map_cons, List.cons_append] at e
    exact hzero (List.cons.inj e).1
  · cases h

theorem exists_fractionText {ds : Option (List Nat)} (h : fractionPart atEnd bs = .ok (ds, rest)) :
    ∃ w, bs = w ++ rest ∧ FractionText ds w := by
  unfold fractionPart at h
  split at h
  · cases h
    exact ⟨[], rfl, .none⟩
  next c r =>
  split at h
  · next hc =>
    split at h
    · cases h
    split at h
    · next hd =>
      cases h
      obtain ⟨w, e, hw⟩ := exists_digitsText hd rfl
      exact ⟨0x2e :: w, by rw [hc, List.cons_append, ← e], .some hw⟩
    · cases h
  · cases h
    exact ⟨[], rfl, .none⟩

theorem exists_signText {negative : Bool} (h : exponentSign bs = (negative, rest)) :
    ∃ s, bs = s ++ rest ∧ SignText negative s := by
  unfold exponentSign at h
  split at h
  · cases h
    exact ⟨[], rfl, .none⟩
  split at h
  · next hc =>
    cases h
    exact ⟨[0x2d], by rw [hc]; rfl, .minus⟩
  split at h
  · next hc =>
    cases h
    exact ⟨[0x2b], by rw [hc]; rfl, .plus⟩
  · cases h
    exact ⟨[], rfl, .none⟩

theorem exists_exponentText {e : Option (Bool × List Nat)} (h : exponentPart atEnd bs = .ok (e, rest)) :
    ∃ w, bs = w ++ rest ∧ ExponentText e w := by
  unfold exponentPart at h
  split at h
  · cases h
    exact ⟨[], rfl, .none⟩
  next c r =>
  split at h
  · next hc =>
    rcases hsign : exponentSign r with ⟨negative, r₁⟩
    rw [hsign] at h
    obtain ⟨s, rfl, hs⟩ := exists_signText hsign
    cases r₁ with
    | nil => cases h
    | cons d r₂ =>
      simp only at h
      split at h
      · next hd =>
        cases h
        obtain ⟨w, e, hw⟩ := exists_digitsText hd rfl
        refine ⟨c :: (s ++ w), ?_, .some (by simpa using hc) hs hw⟩
        rw [List.cons_append, List.append_assoc]
        exact congrArg (fun t => c :: (s ++ t)) e
      · cases h
  · cases h
    exact ⟨[], rfl, .none⟩

/-- What is read as a numeral is spelled. -/
theorem exists_numeralText {n : Numeral} (h : readNumeral atEnd bs = .ok (n, rest)) :
    ∃ w, bs = w ++ rest ∧ NumeralText n w := by
  unfold readNumeral at h
  split at h
  next negative bs' hminus =>
  have hbs : bs = minusBytes negative ++ bs' := by
    split at hminus <;> cases hminus <;> rfl
  obtain ⟨⟨whole, r₁⟩, hw, h⟩ := bind_eq_ok_iff.1 h
  obtain ⟨⟨fraction, r₂⟩, hf, h⟩ := bind_eq_ok_iff.1 h
  obtain ⟨⟨exponent, r₃⟩, he, h⟩ := bind_eq_ok_iff.1 h
  cases h
  obtain ⟨w, rfl, hwhole⟩ := exists_wholeText hw
  obtain ⟨f, rfl, hfraction⟩ := exists_fractionText hf
  obtain ⟨e, rfl, hexponent⟩ := exists_exponentText he
  refine ⟨minusBytes negative ++ (w ++ (f ++ e)), ?_, .mk hwhole hfraction hexponent⟩
  simp only [hbs, List.append_assoc]

end Found

end RegistryPublisher.Json
