import RegistryPublisher.Proofs.Json.Form

/-!
# How strings are spelled

The grammar of strings, apart from any reader.

- `CharText c w`: inside a string the bytes `w` stand for the character `c`, which is there itself or as an `Escape`;
- `Runs v w`: the bytes `w` stand for the bytes `v`, which need not be characters; when they are, they stand for the
  characters one by one (`runs_iff`);
- `readString_spelled_iff`: a string is read exactly where its characters are spelled and a quote follows.
-/

namespace RegistryPublisher.Json

/-! ## The grammar -/

/-- A hexadecimal digit, in lower or upper case. -/
inductive HexText : Nat → UInt8 → Prop
  | decimal {d : Nat} (h : d < 10) : HexText d (UInt8.ofNat (0x30 + d))
  | lower {d : Nat} (h : 10 ≤ d) (h' : d < 16) : HexText d (UInt8.ofNat (0x57 + d))
  | upper {d : Nat} (h : 10 ≤ d) (h' : d < 16) : HexText d (UInt8.ofNat (0x37 + d))

/-- A number of four hexadecimal digits, after a backslash and a `u`. -/
inductive UnitText : Nat → Bytes → Prop
  | mk {a b c d : Nat} {w x y z : UInt8} (ha : HexText a w) (hb : HexText b x) (hc : HexText c y) (hd : HexText d z) :
      UnitText (a * 4096 + b * 256 + c * 16 + d) [0x5c, 0x75, w, x, y, z]

/-- The letters of short escapes, and the characters they stand for. -/
def shortEscapes : List (UInt8 × Nat) :=
  [(0x22, 0x22), (0x5c, 0x5c), (0x2f, 0x2f), (0x62, 0x08), (0x66, 0x0c), (0x6e, 0x0a), (0x72, 0x0d), (0x74, 0x09)]

/-- The escapes for a character: a letter, its number, or the two numbers of a pair when it is beyond four digits. -/
inductive Escape (c : Char) : Bytes → Prop
  | short {e : UInt8} (h : (e, c.toNat) ∈ shortEscapes) : Escape c [0x5c, e]
  | unit {w : Bytes} (h : UnitText c.toNat w) : Escape c w
  | pair {high low : Nat} {w x : Bytes} (hw : UnitText (0xd800 + high) w) (hx : UnitText (0xdc00 + low) x)
      (hhigh : high < 0x400) (hlow : low < 0x400) (h : c.toNat = 0x10000 + high * 0x400 + low) : Escape c (w ++ x)

/-- What stands for a character inside a string. Quotes, backslashes and controls have to be escaped. -/
inductive CharText : Char → Bytes → Prop
  | plain {c : Char} (h : 0x20 ≤ c.toNat) (hq : c.toNat ≠ 0x22) (hb : c.toNat ≠ 0x5c) :
      CharText c (String.utf8EncodeChar c)
  | escaped {c : Char} {w : Bytes} (h : Escape c w) : CharText c w

/-- What stands for characters, one after the other. -/
inductive CharsText : List Char → Bytes → Prop
  | nil : CharsText [] []
  | cons {c : Char} {cs : List Char} {w x : Bytes} (char : CharText c w) (chars : CharsText cs x) :
      CharsText (c :: cs) (w ++ x)

/-- A string with its quotes. -/
inductive StringText (s : String) : Bytes → Prop
  | mk {w : Bytes} (chars : CharsText s.toList w) : StringText s (0x22 :: (w ++ [0x22]))

/-! ## Digits and units -/

theorem hexValue?_eq_some_iff {b : UInt8} {d : Nat} : hexValue? b = some d ↔ HexText d b := by
  have digit : ∀ d : Fin 16, (d < 10 → hexValue? (UInt8.ofNat (0x30 + d)) = some d.val) ∧
      (10 ≤ d.val → hexValue? (UInt8.ofNat (0x57 + d)) = some d.val ∧
        hexValue? (UInt8.ofNat (0x37 + d)) = some d.val) := by
    decide
  constructor
  · intro h
    unfold hexValue? at h
    split at h
    · next hb =>
      simp only [isDigit, Bool.and_eq_true, decide_eq_true_eq, UInt8.le_iff_toNat_le] at hb
      have hb : 0x30 ≤ b.toNat ∧ b.toNat ≤ 0x39 := hb
      cases h
      have e := HexText.decimal (d := b.toNat - 0x30) (by omega)
      rwa [Utf8.ofNat_toNat (b := b) (by omega)] at e
    split at h
    · next hb =>
      simp only [Bool.and_eq_true, decide_eq_true_eq, UInt8.le_iff_toNat_le] at hb
      have hb : 0x61 ≤ b.toNat ∧ b.toNat ≤ 0x66 := hb
      cases h
      have e := HexText.lower (d := b.toNat - 0x57) (by omega) (by omega)
      rwa [Utf8.ofNat_toNat (b := b) (by omega)] at e
    split at h
    · next hb =>
      simp only [Bool.and_eq_true, decide_eq_true_eq, UInt8.le_iff_toNat_le] at hb
      have hb : 0x41 ≤ b.toNat ∧ b.toNat ≤ 0x46 := hb
      cases h
      have e := HexText.upper (d := b.toNat - 0x37) (by omega) (by omega)
      rwa [Utf8.ofNat_toNat (b := b) (by omega)] at e
    · cases h
  · rintro (h | ⟨h, h'⟩ | ⟨h, h'⟩)
    · exact (digit ⟨d, by omega⟩).1 h
    · exact ((digit ⟨d, h'⟩).2 h).1
    · exact ((digit ⟨d, h'⟩).2 h).2

theorem hexUnit?_eq_some_iff {w x y z : UInt8} {n : Nat} :
    hexUnit? w x y z = some n ↔ UnitText n [0x5c, 0x75, w, x, y, z] := by
  unfold hexUnit?
  constructor
  · intro h
    obtain ⟨a, ha, h⟩ := Option.bind_eq_some_iff.1 h
    obtain ⟨b, hb, h⟩ := Option.bind_eq_some_iff.1 h
    obtain ⟨c, hc, h⟩ := Option.bind_eq_some_iff.1 h
    obtain ⟨d, hd, h⟩ := Option.bind_eq_some_iff.1 h
    cases h
    exact .mk (hexValue?_eq_some_iff.1 ha) (hexValue?_eq_some_iff.1 hb) (hexValue?_eq_some_iff.1 hc)
      (hexValue?_eq_some_iff.1 hd)
  · rintro ⟨ha, hb, hc, hd⟩
    rw [hexValue?_eq_some_iff.2 ha, hexValue?_eq_some_iff.2 hb, hexValue?_eq_some_iff.2 hc,
      hexValue?_eq_some_iff.2 hd]
    rfl

theorem HexText.lt {d : Nat} {b : UInt8} (h : HexText d b) : d < 16 := by
  cases h <;> omega

theorem UnitText.lt {n : Nat} {w : Bytes} (h : UnitText n w) : n < 0x10000 := by
  obtain ⟨ha, hb, hc, hd⟩ := h
  have := ha.lt
  have := hb.lt
  have := hc.lt
  have := hd.lt
  omega

theorem mem_shortEscapes {e b : UInt8} (h : letterEscape? e = some b) : (e, b.toNat) ∈ shortEscapes := by
  unfold letterEscape? at h
  split at h
  · next he =>
    cases h
    simp only [Bool.or_eq_true, decide_eq_true_eq] at he
    rcases he with (rfl | rfl) | rfl <;> decide
  -- what is left are the letters that stand for a control
  split at h
  · next he => subst he; cases h; decide
  split at h
  · next he => subst he; cases h; decide
  split at h
  · next he => subst he; cases h; decide
  split at h
  · next he => subst he; cases h; decide
  split at h
  · next he => subst he; cases h; decide
  · cases h

theorem letterEscape?_of_mem {p : UInt8 × Nat} (h : p ∈ shortEscapes) :
    letterEscape? p.1 = some (UInt8.ofNat p.2) ∧ p.2 < 0x80 := by
  have hall : ∀ p ∈ shortEscapes, letterEscape? p.1 = some (UInt8.ofNat p.2) ∧ p.2 < 0x80 := by decide
  exact hall p h

/-! ## Strings as bytes -/

/-- Inside a string the bytes `w` stand for the bytes `v`. -/
inductive Runs : Bytes → Bytes → Prop
  | nil : Runs [] []
  | raw {b : UInt8} {v w : Bytes} (h : standsForItself b) (rest : Runs v w) : Runs (b :: v) (b :: w)
  | escape {c : Char} {x v w : Bytes} (h : Escape c x) (rest : Runs v w) :
      Runs (String.utf8EncodeChar c ++ v) (x ++ w)

theorem joinUnits_eq {c : Char} {high low : Nat} (h : c.toNat = 0x10000 + high * 0x400 + low) :
    joinUnits (0xd800 + high) (0xdc00 + low) = c := by
  refine Utf8.ofNat_eq ?_
  omega

theorem stringBytes_pair {n m : Nat} {a b c d a' b' c' d' : UInt8} (hn : hexUnit? a b c d = some n)
    (hm : hexUnit? a' b' c' d' = some m) (hhigh : isHighUnit n = true) (hlow : isLowUnit m = true) (bs : Bytes) :
    stringBytes (0x5c :: 0x75 :: a :: b :: c :: d :: 0x5c :: 0x75 :: a' :: b' :: c' :: d' :: bs) =
      prepend (String.utf8EncodeChar (joinUnits n m)) (stringBytes bs) := by
  have he : letterEscape? 0x75 = none := rfl
  have hnl : isLowUnit n = false := by
    simp only [isHighUnit, Bool.and_eq_true, decide_eq_true_eq] at hhigh
    simp [isLowUnit]
    omega
  rw [stringBytes.eq_def]
  simp only [he, hn, hm, hnl, hhigh, hlow, if_true, show ¬((0x5c : UInt8) = 0x22) by decide, Bool.false_eq_true,
    if_false]

theorem stringBytes_single {n : Nat} {a b c d : UInt8} (h : hexUnit? a b c d = some n)
    (hn : n < 0xd800 ∨ 0xdfff < n) (bs : Bytes) :
    stringBytes (0x5c :: 0x75 :: a :: b :: c :: d :: bs) =
      prepend (String.utf8EncodeChar (Char.ofNat n)) (stringBytes bs) := by
  have he : letterEscape? 0x75 = none := rfl
  have hl : isLowUnit n = false := by simp [isLowUnit]; omega
  have hh : isHighUnit n = false := by simp [isHighUnit]; omega
  rw [stringBytes.eq_def]
  simp only [he, h, hl, hh, if_true, show ¬((0x5c : UInt8) = 0x22) by decide, Bool.false_eq_true, if_false]

/-- An escape is read as the bytes of its character. -/
theorem stringBytes_escape {c : Char} {x : Bytes} (h : Escape c x) (bs : Bytes) :
    stringBytes (x ++ bs) = prepend (String.utf8EncodeChar c) (stringBytes bs) := by
  cases h with
  | short h =>
    obtain ⟨hletter, hc⟩ := letterEscape?_of_mem h
    rw [Utf8.bytes1 hc]
    exact stringBytes_letter hletter bs
  | unit h =>
    have hr := Utf8.toNat_range c
    generalize hn : c.toNat = n at h hr
    have hunit := h
    obtain ⟨-, -, -, -⟩ := h
    rw [← Utf8.ofNat_eq hn.symm]
    exact stringBytes_single (hexUnit?_eq_some_iff.2 hunit) (by omega) bs
  | pair hw hx hhigh hlow h =>
    next high low w x =>
    generalize hn : 0xd800 + high = n at hw
    generalize hm : 0xdc00 + low = m at hx
    have hunit := hw
    have hunit' := hx
    obtain ⟨-, -, -, -⟩ := hw
    obtain ⟨-, -, -, -⟩ := hx
    rw [← joinUnits_eq h, hn, hm]
    exact stringBytes_pair (hexUnit?_eq_some_iff.2 hunit) (hexUnit?_eq_some_iff.2 hunit')
      (by simp [isHighUnit]; omega) (by simp [isLowUnit]; omega) bs

theorem exists_escape_of_letter {e b : UInt8} (h : letterEscape? e = some b) :
    ∃ c, Escape c [0x5c, e] ∧ String.utf8EncodeChar c = [b] := by
  have hmem := mem_shortEscapes h
  have hb := (letterEscape?_of_mem hmem).2
  have hc : (Char.ofNat b.toNat).toNat = b.toNat := Utf8.toNat_char (by omega)
  refine ⟨Char.ofNat b.toNat, .short (hc.symm ▸ hmem), ?_⟩
  rw [Utf8.bytes1 (by omega), hc, Utf8.ofNat_toNat rfl]

theorem escape_of_unit {n : Nat} {a b c d : UInt8} (h : hexUnit? a b c d = some n) (hl : ¬isLowUnit n = true)
    (hh : ¬isHighUnit n = true) : Escape (Char.ofNat n) [0x5c, 0x75, a, b, c, d] := by
  have hunit := hexUnit?_eq_some_iff.1 h
  have hlt := hunit.lt
  simp only [isLowUnit, isHighUnit, Bool.and_eq_true, decide_eq_true_eq] at hl hh
  have hc : (Char.ofNat n).toNat = n := Utf8.toNat_char (by omega)
  exact .unit (hc.symm ▸ hunit)

theorem escape_of_pair {n m : Nat} {a b c d a' b' c' d' : UInt8} (hn : hexUnit? a b c d = some n)
    (hm : hexUnit? a' b' c' d' = some m) (hhigh : isHighUnit n = true) (hlow : isLowUnit m = true) :
    Escape (joinUnits n m) ([0x5c, 0x75, a, b, c, d] ++ [0x5c, 0x75, a', b', c', d']) := by
  simp only [isHighUnit, isLowUnit, Bool.and_eq_true, decide_eq_true_eq] at hhigh hlow
  obtain ⟨high, rfl⟩ := Nat.exists_eq_add_of_le hhigh.1
  obtain ⟨low, rfl⟩ := Nat.exists_eq_add_of_le hlow.1
  refine .pair (hexUnit?_eq_some_iff.1 hn) (hexUnit?_eq_some_iff.1 hm) (by omega) (by omega) ?_
  rw [joinUnits, Utf8.toNat_char (by omega)]
  omega

/-- A string is read as bytes exactly where bytes are spelled and a quote follows. -/
theorem stringBytes_eq_ok_iff {bs v rest : Bytes} :
    stringBytes bs = .ok (v, rest) ↔ ∃ w, bs = w ++ 0x22 :: rest ∧ Runs v w := by
  constructor
  · intro h
    fun_induction stringBytes bs generalizing v
    case case2 =>
      cases h
      exact ⟨[], rfl, .nil⟩
    case case4 he _ ih =>
      obtain ⟨u, hu, hv⟩ := prepend_eq_ok_iff.1 h
      obtain ⟨w, rfl, hw⟩ := ih hu
      obtain ⟨c, hescape, hc⟩ := exists_escape_of_letter he
      rw [hv, ← hc]
      exact ⟨_, rfl, .escape hescape hw⟩
    case case10 hn _ hhigh _ _ _ _ _ _ hm hlow _ _ ih =>
      obtain ⟨u, hu, hv⟩ := prepend_eq_ok_iff.1 h
      obtain ⟨w, rfl, hw⟩ := ih hu
      rw [hv]
      exact ⟨_, rfl, .escape (escape_of_pair hn hm hhigh hlow) hw⟩
    case case15 hn hl hh _ _ ih =>
      obtain ⟨u, hu, hv⟩ := prepend_eq_ok_iff.1 h
      obtain ⟨w, rfl, hw⟩ := ih hu
      rw [hv]
      exact ⟨_, rfl, .escape (escape_of_unit hn hl hh) hw⟩
    case case19 hq hb hc ih =>
      obtain ⟨v, hv, rfl⟩ := prepend_eq_ok_iff.1 h
      obtain ⟨w, rfl, hw⟩ := ih hv
      exact ⟨_ :: w, rfl, .raw ⟨hq, hb, hc⟩ hw⟩
    all_goals cases h
  · rintro ⟨w, rfl, h⟩
    induction h with
    | nil =>
      rw [stringBytes.eq_def]
      rfl
    | raw hb _ ih => rw [List.cons_append, stringBytes_cons hb, ih]; rfl
    | escape hc _ ih => rw [List.append_assoc, stringBytes_escape hc, ih]; rfl

/-! ## Strings as characters -/

/-- The bytes of a character after the first one are tails, and the first one is none. -/
theorem exists_lead (c : Char) : ∃ b ts, String.utf8EncodeChar c = b :: ts ∧ Utf8.isTail b = false ∧
    ∀ t ∈ ts, Utf8.isTail t = true := by
  have hr := Utf8.toNat_range c
  have lead : ∀ {n : Nat}, n < 0x80 ∨ 0xbf < n → n < 256 → Utf8.isTail (UInt8.ofNat n) = false := by
    intro n hn hn'
    rw [Bool.eq_false_iff, Ne, Utf8.isTail_iff, Utf8.toNat_ofNat hn']
    omega
  have tail : ∀ n, n < 64 → Utf8.isTail (UInt8.ofNat (0x80 + n)) = true := by
    intro n hn
    rw [Utf8.isTail_iff, Utf8.toNat_ofNat (by omega)]
    omega
  rcases Nat.lt_or_ge c.toNat 0x80 with h1 | h1
  · exact ⟨_, _, Utf8.bytes1 h1, lead (by omega) (by omega), by simp⟩
  rcases Nat.lt_or_ge c.toNat 0x800 with h2 | h2
  · refine ⟨_, _, Utf8.bytes2 h1 h2, lead (by omega) (by omega), ?_⟩
    exact List.forall_mem_singleton.2 (tail _ (by omega))
  rcases Nat.lt_or_ge c.toNat 0x10000 with h3 | h3
  · refine ⟨_, _, Utf8.bytes3 h2 h3, lead (by omega) (by omega), ?_⟩
    exact List.forall_mem_cons.2 ⟨tail _ (by omega), List.forall_mem_singleton.2 (tail _ (by omega))⟩
  · refine ⟨_, _, Utf8.bytes4 h3, lead (by omega) (by omega), ?_⟩
    exact List.forall_mem_cons.2 ⟨tail _ (by omega), List.forall_mem_cons.2 ⟨tail _ (by omega),
      List.forall_mem_singleton.2 (tail _ (by omega))⟩⟩

/-- No character is the beginning of another one. -/
theorem utf8EncodeChar_append_inj {c d : Char} {v w : Bytes}
    (h : String.utf8EncodeChar c ++ v = String.utf8EncodeChar d ++ w) : c = d ∧ v = w := by
  have hp := congrArg Utf8.pieces h
  rw [Utf8.pieces_char, Utf8.pieces_char] at hp
  obtain rfl := Option.some.inj (List.cons.inj hp).1
  exact ⟨rfl, List.append_cancel_left h⟩

/-- Bytes in the middle of a character stand for themselves: an escape stands for a whole one. -/
theorem Runs.of_tails {ts v : Bytes} (hts : ∀ t ∈ ts, Utf8.isTail t = true) :
    ∀ {w : Bytes}, Runs (ts ++ v) w → ∃ x, w = ts ++ x ∧ Runs v x := by
  induction ts with
  | nil => exact fun h => ⟨_, rfl, h⟩
  | cons t ts ih =>
    obtain ⟨ht, hts⟩ := List.forall_mem_cons.1 hts
    intro w h
    rw [List.cons_append] at h
    generalize hu : t :: (ts ++ v) = u at h
    cases h with
    | nil => cases hu
    | raw _ rest =>
      cases hu
      obtain ⟨x, rfl, hx⟩ := ih hts rest
      exact ⟨x, rfl, hx⟩
    | @escape c _ _ _ hc _ =>
      obtain ⟨b, bs, e, hb, -⟩ := exists_lead c
      rw [e] at hu
      obtain ⟨rfl, -⟩ := List.cons.inj hu
      exact absurd (ht.symm.trans hb) (by decide)

theorem Runs.plain {x v w : Bytes} (hx : ∀ b ∈ x, standsForItself b) (h : Runs v w) : Runs (x ++ v) (x ++ w) := by
  induction x with
  | nil => exact h
  | cons b x ih =>
    obtain ⟨hb, hx⟩ := List.forall_mem_cons.1 hx
    exact .raw hb (ih hx)

/-- A character whose first byte stands for itself needs no escape. -/
theorem charText_of_stands {c : Char} {b : UInt8} {ts : Bytes} (e : String.utf8EncodeChar c = b :: ts)
    (h : standsForItself b) : CharText c (b :: ts) := by
  have hplain : 0x20 ≤ c.toNat ∧ c.toNat ≠ 0x22 ∧ c.toNat ≠ 0x5c := by
    rcases Nat.lt_or_ge c.toNat 0x80 with h1 | h1
    · rw [Utf8.bytes1 h1] at e
      cases e
      obtain ⟨hq, hb, hc⟩ := h
      rw [UInt8.lt_iff_toNat_lt, Utf8.toNat_ofNat (by omega)] at hc
      refine ⟨Nat.not_lt.1 hc, fun hn => hq ?_, fun hn => hb ?_⟩
      · rw [hn]; rfl
      · rw [hn]; rfl
    · omega
  rw [← e]
  exact .plain hplain.1 hplain.2.1 hplain.2.2

/-- What stands for the bytes of characters stands for the characters. -/
theorem runs_iff {cs : List Char} {w : Bytes} : Runs (cs.flatMap String.utf8EncodeChar) w ↔ CharsText cs w := by
  constructor
  · intro h
    induction cs generalizing w with
    | nil =>
      rw [List.flatMap_nil] at h
      generalize hu : ([] : Bytes) = u at h
      cases h with
      | nil => exact .nil
      | raw => cases hu
      | escape => exact absurd (List.append_eq_nil_iff.1 hu.symm).1 (Utf8.utf8EncodeChar_ne_nil _)
    | cons c cs ih =>
      rw [List.flatMap_cons] at h
      generalize hu : String.utf8EncodeChar c ++ cs.flatMap String.utf8EncodeChar = u at h
      cases h with
      | nil => exact absurd (List.append_eq_nil_iff.1 hu).1 (Utf8.utf8EncodeChar_ne_nil c)
      | raw hb rest =>
        obtain ⟨b, ts, e, -, hts⟩ := exists_lead c
        rw [e] at hu
        cases hu
        obtain ⟨x, rfl, hx⟩ := rest.of_tails hts
        exact .cons (charText_of_stands e hb) (ih hx)
      | escape hc rest =>
        obtain ⟨rfl, rfl⟩ := utf8EncodeChar_append_inj hu
        exact .cons (.escaped hc) (ih rest)
  · intro h
    induction h with
    | nil => exact .nil
    | cons char _ ih =>
      rw [List.flatMap_cons]
      cases char with
      | plain h hq hb => exact ih.plain (utf8EncodeChar_stands h hq hb)
      | escaped h => exact .escape h ih

/-- **Strings are read by their grammar**: a string is read exactly where its characters are spelled and a quote
follows. -/
theorem readString_spelled_iff {bs rest : Bytes} {s : String} :
    readString bs = .ok (s, rest) ↔ ∃ w, bs = w ++ 0x22 :: rest ∧ CharsText s.toList w := by
  constructor
  · intro h
    unfold readString at h
    split at h
    · cases h
    next v r hv =>
    split at h
    · next hs =>
      cases h
      obtain ⟨w, rfl, hw⟩ := stringBytes_eq_ok_iff.1 hv
      rw [Utf8.decode?_eq_some_iff.1 hs] at hw
      exact ⟨w, rfl, runs_iff.1 hw⟩
    · cases h
  · rintro ⟨w, rfl, hw⟩
    have hv : stringBytes (w ++ 0x22 :: rest) = _ := stringBytes_eq_ok_iff.2 ⟨w, rfl, runs_iff.2 hw⟩
    rw [readString, hv]
    simp only [Utf8.decode?_eq_some_iff.2 (rfl : s.toList.flatMap String.utf8EncodeChar = Utf8.encode s)]

end RegistryPublisher.Json
