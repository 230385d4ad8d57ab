import RegistryPublisher.Proofs.Json.Plain
import RegistryPublisher.Proofs.Text.Utf8

/-!
# Written leaves

- `readString_rendered`: a written string reads back as itself, escapes and all;
- `readNumeral_rendered`: a written integer reads back as the numeral `Numeral.ofInt`, which denotes it;
- `Delimited` rests do not continue a number.
-/

namespace RegistryPublisher

namespace Json

/-! ## Strings -/

theorem prepend_nil (x : Except Fault (Bytes × Bytes)) : prepend [] x = x := by
  cases x <;> rfl

theorem prepend_prepend (a b : Bytes) (x : Except Fault (Bytes × Bytes)) :
    prepend a (prepend b x) = prepend (a ++ b) x := by
  cases x with
  | error f => rfl
  | ok y => simp [prepend]

/-- A byte that stands for itself inside a string. -/
def standsForItself (b : UInt8) : Prop := b ≠ 0x22 ∧ b ≠ 0x5c ∧ ¬b < 0x20

theorem stringBytes_cons {b : UInt8} (h : standsForItself b) (bs : Bytes) :
    stringBytes (b :: bs) = prepend [b] (stringBytes bs) := by
  obtain ⟨hq, hb, hc⟩ := h
  rw [stringBytes.eq_def]
  simp only [if_neg hq, if_neg hb, if_neg hc]

theorem stringBytes_append {w : Bytes} (h : ∀ b ∈ w, standsForItself b) (bs : Bytes) :
    stringBytes (w ++ bs) = prepend w (stringBytes bs) := by
  induction w with
  | nil => exact (prepend_nil _).symm
  | cons b w ih =>
    obtain ⟨hb, hw⟩ := List.forall_mem_cons.1 h
    rw [List.cons_append, stringBytes_cons hb, ih hw, prepend_prepend]
    rfl

theorem stringBytes_letter {e b : UInt8} (h : letterEscape? e = some b) (bs : Bytes) :
    stringBytes (0x5c :: e :: bs) = prepend [b] (stringBytes bs) := by
  rw [stringBytes.eq_def]
  simp only [h, if_true, show ¬((0x5c : UInt8) = 0x22) by decide, if_false]

/-- An escape of four digits for a character that is no half of a pair. -/
theorem stringBytes_unit {a b c d : UInt8} {n : Nat} (h : hexUnit? a b c d = some n) (hn : n < 0xd800) (bs : Bytes) :
    stringBytes (0x5c :: 0x75 :: a :: b :: c :: d :: bs) =
      prepend (String.utf8EncodeChar (Char.ofNat n)) (stringBytes bs) := by
  have hl : isLowUnit n = false := by simp [isLowUnit]; omega
  have hh : isHighUnit n = false := by simp [isHighUnit]; omega
  have he : letterEscape? 0x75 = none := rfl
  rw [stringBytes.eq_def]
  simp only [he, h, hl, hh, if_true, show ¬((0x5c : UInt8) = 0x22) by decide, Bool.false_eq_true, if_false]

theorem hexUnit?_hexDigit : ∀ n : Fin 32, hexUnit? 0x30 0x30 (hexDigit (n / 16)) (hexDigit (n % 16)) = some n.val := by
  decide

theorem ne_of_toNat_ne {b : UInt8} {n : Nat} (h : b.toNat ≠ n) (hn : n < 256) : b ≠ UInt8.ofNat n :=
  fun e => h (by rw [e, Utf8.toNat_ofNat hn])

theorem standsForItself_of_toNat {b : UInt8} (h : 0x20 ≤ b.toNat) (hq : b.toNat ≠ 0x22) (hb : b.toNat ≠ 0x5c) :
    standsForItself b := by
  refine ⟨ne_of_toNat_ne hq (by decide), ne_of_toNat_ne hb (by decide), ?_⟩
  rw [UInt8.lt_iff_toNat_lt]
  exact Nat.not_lt.2 h

/-- The bytes of a character that needs no escape. -/
theorem utf8EncodeChar_stands {c : Char} (h : 0x20 ≤ c.toNat) (hq : c.toNat ≠ 0x22) (hb : c.toNat ≠ 0x5c) :
    ∀ b ∈ String.utf8EncodeChar c, standsForItself b := by
  have hr := Utf8.toNat_range c
  have high : ∀ {n : Nat}, 0x80 ≤ n → n < 256 → standsForItself (UInt8.ofNat n) := by
    intro n hn hn'
    have e := Utf8.toNat_ofNat hn'
    exact standsForItself_of_toNat (by omega) (by omega) (by omega)
  rcases Nat.lt_or_ge c.toNat 0x80 with h1 | h1
  · have e := Utf8.toNat_ofNat (show c.toNat < 256 by omega)
    rw [Utf8.bytes1 h1]
    simp only [List.forall_mem_cons, List.not_mem_nil, false_implies, implies_true, and_true]
    exact standsForItself_of_toNat (by omega) (by omega) (by omega)
  rcases Nat.lt_or_ge c.toNat 0x800 with h2 | h2
  · rw [Utf8.bytes2 h1 h2]
    simp only [List.forall_mem_cons, List.not_mem_nil, false_implies, implies_true, and_true]
    exact ⟨high (by omega) (by omega), high (by omega) (by omega)⟩
  rcases Nat.lt_or_ge c.toNat 0x10000 with h3 | h3
  · rw [Utf8.bytes3 h2 h3]
    simp only [List.forall_mem_cons, List.not_mem_nil, false_implies, implies_true, and_true]
    exact ⟨high (by omega) (by omega), high (by omega) (by omega), high (by omega) (by omega)⟩
  · rw [Utf8.bytes4 h3]
    simp only [List.forall_mem_cons, List.not_mem_nil, false_implies, implies_true, and_true]
    exact ⟨high (by omega) (by omega), high (by omega) (by omega), high (by omega) (by omega),
      high (by omega) (by omega)⟩

/-- A written character reads back as its bytes. -/
theorem stringBytes_renderChar (c : Char) (bs : Bytes) :
    stringBytes (renderChar c ++ bs) = prepend (String.utf8EncodeChar c) (stringBytes bs) := by
  have letter : ∀ {e b : UInt8} {n : Nat}, letterEscape? e = some b → c.toNat = n → n < 0x80 → b = UInt8.ofNat n →
      stringBytes (0x5c :: e :: bs) = prepend (String.utf8EncodeChar c) (stringBytes bs) := by
    intro e b n he hc hn hb
    rw [stringBytes_letter he, Utf8.bytes1 (by omega), hc, hb]
  unfold renderChar
  split
  · next hc => exact letter rfl hc (by decide) rfl
  split
  · next hc => exact letter rfl hc (by decide) rfl
  split
  · next hc => exact letter rfl hc (by decide) rfl
  split
  · next hc => exact letter rfl hc (by decide) rfl
  split
  · next hc => exact letter rfl hc (by decide) rfl
  split
  · next hc => exact letter rfl hc (by decide) rfl
  split
  · next hc => exact letter rfl hc (by decide) rfl
  split
  · next hc =>
    refine (stringBytes_unit (hexUnit?_hexDigit ⟨c.toNat, hc⟩) (by omega) bs).trans ?_
    rw [Char.ofNat_toNat]
  · exact stringBytes_append (utf8EncodeChar_stands (by omega) ‹_› ‹_›) bs

theorem stringBytes_rendered (cs : List Char) (rest : Bytes) :
    stringBytes (cs.flatMap renderChar ++ 0x22 :: rest) = .ok (cs.flatMap String.utf8EncodeChar, rest) := by
  induction cs with
  | nil =>
    rw [List.flatMap_nil, List.nil_append, stringBytes.eq_def, List.flatMap_nil]
    exact if_pos rfl
  | cons c cs ih =>
    rw [List.flatMap_cons, List.append_assoc, stringBytes_renderChar, ih, List.flatMap_cons]
    rfl

/-- A written string reads back as itself. -/
theorem readString_rendered (s : String) (rest : Bytes) :
    readString (s.toList.flatMap renderChar ++ 0x22 :: rest) = .ok (s, rest) := by
  have h : Utf8.decode? (s.toList.flatMap String.utf8EncodeChar) = some s := Utf8.decode?_encode s
  rw [readString, stringBytes_rendered]
  simp only [h]

/-! ## Integers -/

/-- A rest that does not continue a number. -/
def Delimited (rest : Bytes) : Prop :=
  ∀ b r, rest = b :: r → isDigit b = false ∧ b ≠ 0x2e ∧ b ≠ 0x65 ∧ b ≠ 0x45

theorem delimited_cons {b : UInt8} {r : Bytes} (h : isDigit b = false ∧ b ≠ 0x2e ∧ b ≠ 0x65 ∧ b ≠ 0x45) :
    Delimited (b :: r) := by
  intro _ _ e
  cases e
  exact h

end Json

namespace Number

theorem digits_lt (n : Nat) : ∀ d ∈ digits n, d < 10 := by
  fun_induction digits n with
  | case1 n h => simpa using h
  | case2 n h ih =>
    intro d hd
    rcases List.mem_append.1 hd with hd | hd
    · exact ih d hd
    · rw [List.mem_singleton.1 hd]
      exact Nat.mod_lt _ (by decide)

/-- Only zero begins with a zero. -/
theorem exists_digits_cons (n : Nat) (h : 0 < n) : ∃ d ds, digits n = d :: ds ∧ 0 < d := by
  fun_induction digits n with
  | case1 n => exact ⟨n, [], rfl, h⟩
  | case2 n hn ih =>
    obtain ⟨d, ds, e, hd⟩ := ih (by omega)
    exact ⟨d, ds ++ [n % 10], by rw [e]; rfl, hd⟩

theorem digitByte_toNat {d : Nat} (h : d < 10) : (digitByte d).toNat = 0x30 + d := Utf8.toNat_ofNat (by omega)

theorem isDigit_digitByte {d : Nat} (h : d < 10) : Json.isDigit (digitByte d) = true := by
  have e := digitByte_toNat h
  simp [Json.isDigit, UInt8.le_iff_toNat_le, e]
  omega

theorem isDigit_of_mem_decimal (n : Nat) : ∀ b ∈ decimal n, Json.isDigit b = true := by
  intro b hb
  obtain ⟨d, hd, rfl⟩ := List.mem_map.1 hb
  exact isDigit_digitByte (digits_lt n d hd)

end Number

namespace Json

section Numerals

variable {rest : Bytes} (h : Delimited rest)
include h

theorem digitRun_decimal (n : Nat) : digitRun (Number.decimal n ++ rest) = (Number.digits n, rest) := by
  have hd := Number.isDigit_of_mem_decimal n
  have hstop : rest.takeWhile isDigit = [] ∧ rest.dropWhile isDigit = rest := by
    cases rest with
    | nil => exact ⟨rfl, rfl⟩
    | cons b r =>
      have hb := (h b r rfl).1
      exact ⟨by rw [List.takeWhile_cons, hb]; rfl, by rw [List.dropWhile_cons, hb]; rfl⟩
  rw [digitRun, List.takeWhile_append_of_pos hd, List.dropWhile_append_of_pos hd, hstop.1, hstop.2, List.append_nil,
    Number.decimal, List.map_map]
  congr 1
  refine (List.map_congr_left fun d hd => ?_).trans (List.map_id _)
  have := Number.digitByte_toNat (Number.digits_lt n d hd)
  simp [this]

theorem wholePart_decimal (atEnd : Cause) (n : Nat) :
    wholePart atEnd (Number.decimal n ++ rest) = .ok (Number.digits n, rest) := by
  rcases Nat.eq_zero_or_pos n with rfl | hn
  · have e : Number.digits 0 = [0] := by rw [Number.digits]; rfl
    rw [Number.decimal, e]
    cases rest with
    | nil => rfl
    | cons b r =>
      have hb := (h b r rfl).1
      change (if isDigit b then _ else _) = _
      rw [hb]
      rfl
  · obtain ⟨d, ds, e, hd⟩ := Number.exists_digits_cons n hn
    have hd10 : d < 10 := Number.digits_lt n d (by rw [e]; exact List.mem_cons_self ..)
    have hb := Number.digitByte_toNat hd10
    have hne : Number.digitByte d ≠ 0x30 := ne_of_toNat_ne (n := 0x30) (by omega) (by decide)
    have hrun := digitRun_decimal h n
    have ec : Number.decimal n ++ rest = Number.digitByte d :: (ds.map Number.digitByte ++ rest) := by
      rw [Number.decimal, e]
      rfl
    rw [ec] at hrun ⊢
    rw [wholePart.eq_def]
    simp only [if_neg hne, if_pos (Number.isDigit_digitByte hd10), hrun]

theorem fractionPart_delimited (atEnd : Cause) : fractionPart atEnd rest = .ok (none, rest) := by
  cases rest with
  | nil => rfl
  | cons b r =>
    rw [fractionPart.eq_def]
    exact if_neg (h b r rfl).2.1

theorem exponentPart_delimited (atEnd : Cause) : exponentPart atEnd rest = .ok (none, rest) := by
  cases rest with
  | nil => rfl
  | cons b r =>
    obtain ⟨-, -, he, hE⟩ := h b r rfl
    rw [exponentPart, if_neg (by simp [he, hE])]

end Numerals

/-- The numeral of an integer. -/
def Numeral.ofInt : Int → Numeral
  | .ofNat n => ⟨false, Number.digits n, none, none⟩
  | .negSucc n => ⟨true, Number.digits (n + 1), none, none⟩

theorem Numeral.int_ofInt (i : Int) : (ofInt i).int = i := by
  cases i with
  | ofNat n => simp [ofInt, int, Number.ofDigits_digits]
  | negSucc n => simp [ofInt, int, Number.ofDigits_digits, Int.negSucc_eq]

theorem Numeral.isPlain_ofInt {i : Int} (h : Number.Holds i) : (ofInt i).IsPlain := by
  have e := int_ofInt i
  cases i with
  | ofNat n => exact ⟨rfl, rfl, nofun, e.symm ▸ h⟩
  | negSucc n => exact ⟨rfl, rfl, fun _ => by rw [e]; exact Int.negSucc_ne_zero n, e.symm ▸ h⟩

theorem startsNumber_decimal (n : Nat) : ∃ c r, Number.decimal n = c :: r ∧ isDigit c = true := by
  have hp := Number.digits_length_pos n
  obtain ⟨d, ds, e⟩ := List.exists_cons_of_length_pos hp
  refine ⟨Number.digitByte d, ds.map Number.digitByte, by rw [Number.decimal, e]; rfl, ?_⟩
  exact Number.isDigit_digitByte (Number.digits_lt n d (by rw [e]; exact List.mem_cons_self ..))

section Rendered

variable {rest : Bytes} (h : Delimited rest)
include h

theorem readNumeral_parts (atEnd : Cause) (negative : Bool) (n : Nat) :
    (do
      let (whole, bs) ← wholePart atEnd (Number.decimal n ++ rest)
      let (fraction, bs) ← fractionPart atEnd bs
      let (exponent, bs) ← exponentPart atEnd bs
      return ((⟨negative, whole, fraction, exponent⟩ : Numeral), bs) : Except Fault (Numeral × Bytes)) =
      .ok (⟨negative, Number.digits n, none, none⟩, rest) := by
  rw [wholePart_decimal h]
  change (fractionPart atEnd rest >>= _) = _
  rw [fractionPart_delimited h]
  change (exponentPart atEnd rest >>= _) = _
  rw [exponentPart_delimited h]
  rfl

/-- A written integer reads back as its numeral. -/
theorem readNumeral_rendered (atEnd : Cause) (i : Int) :
    readNumeral atEnd (Number.render (.integer i) ++ rest) = .ok (Numeral.ofInt i, rest) := by
  cases i with
  | ofNat n =>
    obtain ⟨c, r, e, hc⟩ := startsNumber_decimal n
    have hne : c ≠ 0x2d := fun e => by rw [e] at hc; exact absurd hc (by decide)
    have hbs : Number.decimal n ++ rest = c :: (r ++ rest) := by rw [e]; rfl
    refine Eq.trans ?_ (readNumeral_parts h atEnd false n)
    change readNumeral atEnd (Number.decimal n ++ rest) = _
    rw [readNumeral]
    -- the other equation of the reader is the one after a minus sign
    intro r' hminus
    rw [hbs] at hminus
    cases hminus
    exact hne rfl
  | negSucc n => exact readNumeral_parts h atEnd true (n + 1)

end Rendered

end Json

end RegistryPublisher
