import RegistryPublisher.Text.Utf8

/-!
# Reading UTF-8 that was written

- `pieces_char` reads one written character back, and from it `decode?_encode` a whole string;
- `decode?_eq_some_iff`: nothing else is read as the string;
- `encode_lt`: bytes are ordered as the strings they write.
-/

namespace RegistryPublisher.Utf8

/-! ## The bytes of a character -/

/-- The number of a character is below the surrogates, or above them and in the range of Unicode. -/
theorem toNat_range (c : Char) : c.toNat < 0xd800 ∨ (0xdfff < c.toNat ∧ c.toNat < 0x110000) := c.valid

/-- A byte of which the value is known. -/
theorem toNat_ofNat {n : Nat} (h : n < 256) : (UInt8.ofNat n).toNat = n := by simp [Nat.mod_eq_of_lt h]

theorem encode_append (s t : String) : encode (s ++ t) = encode s ++ encode t := by
  rw [encode, String.toList_append, List.flatMap_append]
  rfl

section Bytes

variable {c : Char}

/-- One byte for a character below 128. -/
theorem bytes1 (h : c.toNat < 0x80) : String.utf8EncodeChar c = [UInt8.ofNat c.toNat] := by
  have e : c.val.toNat = c.toNat := rfl
  simp only [String.utf8EncodeChar, e]
  rw [if_pos (by omega)]

/-- A first byte with the high bits and one tail byte. -/
theorem bytes2 (h : 0x80 ≤ c.toNat) (h' : c.toNat < 0x800) :
    String.utf8EncodeChar c = [UInt8.ofNat (0xc0 + c.toNat / 64), UInt8.ofNat (0x80 + c.toNat % 64)] := by
  have e : c.val.toNat = c.toNat := rfl
  simp only [String.utf8EncodeChar, e]
  rw [if_neg (by omega), if_pos (by omega), show c.toNat / 64 % 32 + 192 = 0xc0 + c.toNat / 64 by omega,
    Nat.add_comm (c.toNat % 64)]

/-- A first byte and two tail bytes. -/
theorem bytes3 (h : 0x800 ≤ c.toNat) (h' : c.toNat < 0x10000) :
    String.utf8EncodeChar c = [UInt8.ofNat (0xe0 + c.toNat / 4096), UInt8.ofNat (0x80 + c.toNat / 64 % 64),
      UInt8.ofNat (0x80 + c.toNat % 64)] := by
  have e : c.val.toNat = c.toNat := rfl
  simp only [String.utf8EncodeChar, e]
  rw [if_neg (by omega), if_neg (by omega), if_pos (by omega),
    show c.toNat / 4096 % 16 + 224 = 0xe0 + c.toNat / 4096 by omega, Nat.add_comm (c.toNat / 64 % 64),
    Nat.add_comm (c.toNat % 64)]

/-- A first byte and three tail bytes. -/
theorem bytes4 (h : 0x10000 ≤ c.toNat) :
    String.utf8EncodeChar c = [UInt8.ofNat (0xf0 + c.toNat / 262144), UInt8.ofNat (0x80 + c.toNat / 4096 % 64),
      UInt8.ofNat (0x80 + c.toNat / 64 % 64), UInt8.ofNat (0x80 + c.toNat % 64)] := by
  have hr := toNat_range c
  have e : c.val.toNat = c.toNat := rfl
  simp only [String.utf8EncodeChar, e]
  rw [if_neg (by omega), if_neg (by omega), if_neg (by omega),
    show c.toNat / 262144 % 8 + 240 = 0xf0 + c.toNat / 262144 by omega, Nat.add_comm (c.toNat / 4096 % 64),
    Nat.add_comm (c.toNat / 64 % 64), Nat.add_comm (c.toNat % 64)]

end Bytes

/-! ## Reading back -/

theorem isTail_iff {b : UInt8} : isTail b = true ↔ 0x80 ≤ b.toNat ∧ b.toNat ≤ 0xbf := by
  simp [isTail, UInt8.le_iff_toNat_le]

theorem isLead2_iff {a : UInt8} : isLead2 a = true ↔ 0xc2 ≤ a.toNat ∧ a.toNat ≤ 0xdf := by
  simp [isLead2, UInt8.le_iff_toNat_le]

theorem isLead3_iff {a b : UInt8} : isLead3 a b = true ↔
    (a.toNat = 0xe0 ∧ 0xa0 ≤ b.toNat ∧ b.toNat ≤ 0xbf) ∨ (a.toNat = 0xed ∧ 0x80 ≤ b.toNat ∧ b.toNat ≤ 0x9f) ∨
      (0xe1 ≤ a.toNat ∧ a.toNat ≤ 0xef ∧ a.toNat ≠ 0xed ∧ 0x80 ≤ b.toNat ∧ b.toNat ≤ 0xbf) := by
  simp [isLead3, isTail_iff, UInt8.le_iff_toNat_le, ← UInt8.toNat_inj, or_assoc, and_assoc]

theorem isLead4_iff {a b : UInt8} : isLead4 a b = true ↔
    (a.toNat = 0xf0 ∧ 0x90 ≤ b.toNat ∧ b.toNat ≤ 0xbf) ∨ (a.toNat = 0xf4 ∧ 0x80 ≤ b.toNat ∧ b.toNat ≤ 0x8f) ∨
      (0xf1 ≤ a.toNat ∧ a.toNat ≤ 0xf3 ∧ 0x80 ≤ b.toNat ∧ b.toNat ≤ 0xbf) := by
  simp [isLead4, isTail_iff, UInt8.le_iff_toNat_le, ← UInt8.toNat_inj, or_assoc, and_assoc]

theorem not_lt_ascii {a : UInt8} (h : 0x80 ≤ a.toNat) : ¬a < 0x80 := by
  rw [UInt8.lt_iff_toNat_lt]
  exact Nat.not_lt.2 h

/-- A character is read back from its number. -/
theorem ofNat_eq {c : Char} {n : Nat} (h : n = c.toNat) : Char.ofNat n = c := by rw [h]; exact Char.ofNat_toNat c

section Pieces

variable {c : Char} (rest : Bytes)

theorem pieces_bytes1 (h : c.toNat < 0x80) : pieces (String.utf8EncodeChar c ++ rest) = some c :: pieces rest := by
  have ea : (UInt8.ofNat c.toNat).toNat = c.toNat := toNat_ofNat (by omega)
  have ha : UInt8.ofNat c.toNat < 0x80 := by rw [UInt8.lt_iff_toNat_lt, ea]; exact h
  rw [bytes1 h, List.singleton_append, pieces.eq_def]
  simp only [ha, if_true, ea, Char.ofNat_toNat]

theorem pieces_bytes2 (h : 0x80 ≤ c.toNat) (h' : c.toNat < 0x800) :
    pieces (String.utf8EncodeChar c ++ rest) = some c :: pieces rest := by
  have ea : (UInt8.ofNat (0xc0 + c.toNat / 64)).toNat = 0xc0 + c.toNat / 64 := toNat_ofNat (by omega)
  have eb : (UInt8.ofNat (0x80 + c.toNat % 64)).toNat = 0x80 + c.toNat % 64 := toNat_ofNat (by omega)
  rw [bytes2 h h']
  generalize UInt8.ofNat (0xc0 + c.toNat / 64) = x at ea
  generalize UInt8.ofNat (0x80 + c.toNat % 64) = y at eb
  have hl : isLead2 x = true := isLead2_iff.2 (by omega)
  have hy : isTail y = true := isTail_iff.2 (by omega)
  have hc : char2 x y = c := ofNat_eq (by omega)
  show pieces (x :: y :: rest) = _
  rw [pieces.eq_def]
  simp only [not_lt_ascii (a := x) (by omega), hl, hy, hc, if_false, Bool.and_self, if_true]

/-- The first byte of a longer character does not begin one of two bytes. -/
theorem isLead2_of_le {a : UInt8} (h : 0xe0 ≤ a.toNat) : isLead2 a = false := by
  rw [Bool.eq_false_iff, Ne, isLead2_iff]
  omega

theorem pieces_bytes3 (h : 0x800 ≤ c.toNat) (h' : c.toNat < 0x10000) :
    pieces (String.utf8EncodeChar c ++ rest) = some c :: pieces rest := by
  have hr := toNat_range c
  have ea : (UInt8.ofNat (0xe0 + c.toNat / 4096)).toNat = 0xe0 + c.toNat / 4096 := toNat_ofNat (by omega)
  have eb : (UInt8.ofNat (0x80 + c.toNat / 64 % 64)).toNat = 0x80 + c.toNat / 64 % 64 := toNat_ofNat (by omega)
  have ed : (UInt8.ofNat (0x80 + c.toNat % 64)).toNat = 0x80 + c.toNat % 64 := toNat_ofNat (by omega)
  rw [bytes3 h h']
  generalize UInt8.ofNat (0xe0 + c.toNat / 4096) = x at ea
  generalize UInt8.ofNat (0x80 + c.toNat / 64 % 64) = y at eb
  generalize UInt8.ofNat (0x80 + c.toNat % 64) = z at ed
  have hl : isLead3 x y = true := isLead3_iff.2 (by omega)
  have hz : isTail z = true := isTail_iff.2 (by omega)
  have hc : char3 x y z = c := ofNat_eq (by omega)
  show pieces (x :: y :: z :: rest) = _
  rw [pieces.eq_def]
  simp only [not_lt_ascii (a := x) (by omega), isLead2_of_le (a := x) (by omega), hl, hz, hc, if_false, Bool.false_and,
    Bool.false_eq_true, if_true]

theorem pieces_bytes4 (h : 0x10000 ≤ c.toNat) : pieces (String.utf8EncodeChar c ++ rest) = some c :: pieces rest := by
  have hr := toNat_range c
  have ea : (UInt8.ofNat (0xf0 + c.toNat / 262144)).toNat = 0xf0 + c.toNat / 262144 := toNat_ofNat (by omega)
  have eb : (UInt8.ofNat (0x80 + c.toNat / 4096 % 64)).toNat = 0x80 + c.toNat / 4096 % 64 := toNat_ofNat (by omega)
  have ed : (UInt8.ofNat (0x80 + c.toNat / 64 % 64)).toNat = 0x80 + c.toNat / 64 % 64 := toNat_ofNat (by omega)
  have ef : (UInt8.ofNat (0x80 + c.toNat % 64)).toNat = 0x80 + c.toNat % 64 := toNat_ofNat (by omega)
  rw [bytes4 h]
  generalize UInt8.ofNat (0xf0 + c.toNat / 262144) = x at ea
  generalize UInt8.ofNat (0x80 + c.toNat / 4096 % 64) = y at eb
  generalize UInt8.ofNat (0x80 + c.toNat / 64 % 64) = z at ed
  generalize UInt8.ofNat (0x80 + c.toNat % 64) = w at ef
  have hl3 : isLead3 x y = false := by
    rw [Bool.eq_false_iff, Ne, isLead3_iff]
    omega
  have hl : isLead4 x y = true := isLead4_iff.2 (by omega)
  have hz : isTail z = true := isTail_iff.2 (by omega)
  have hw : isTail w = true := isTail_iff.2 (by omega)
  have hc : char4 x y z w = c := ofNat_eq (by omega)
  show pieces (x :: y :: z :: w :: rest) = _
  rw [pieces.eq_def]
  simp only [not_lt_ascii (a := x) (by omega), isLead2_of_le (a := x) (by omega), hl3, hl, hz, hw, hc, if_false,
    Bool.false_and, Bool.false_eq_true, if_true]

/-- A written character is read first. -/
theorem pieces_char (c : Char) : pieces (String.utf8EncodeChar c ++ rest) = some c :: pieces rest := by
  rcases Nat.lt_or_ge c.toNat 0x80 with h1 | h1
  · exact pieces_bytes1 rest h1
  rcases Nat.lt_or_ge c.toNat 0x800 with h2 | h2
  · exact pieces_bytes2 rest h1 h2
  rcases Nat.lt_or_ge c.toNat 0x10000 with h3 | h3
  · exact pieces_bytes3 rest h2 h3
  · exact pieces_bytes4 rest h3

end Pieces

theorem pieces_chars (cs : List Char) : pieces (cs.flatMap String.utf8EncodeChar) = cs.map some := by
  induction cs with
  | nil => rfl
  | cons c cs ih => rw [List.flatMap_cons, pieces_char, ih, List.map_cons]

/-- A written string is read back. -/
theorem decode?_encode (s : String) : decode? (encode s) = some s := by
  have h : (s.toList.map some).mapM id = some s.toList := by
    induction s.toList with
    | nil => rfl
    | cons c cs ih => simp [ih]
  rw [decode?, encode, pieces_chars, h, Option.map_some, String.ofList_toList]

theorem encode_injective {s t : String} (h : encode s = encode t) : s = t := by
  have := congrArg decode? h
  rw [decode?_encode, decode?_encode] at this
  exact Option.some.inj this

/-! ## Only what is written is read -/

/-- A number that is no surrogate is the number of its character. -/
theorem toNat_char {n : Nat} (h : n < 0xd800 ∨ (0xdfff < n ∧ n < 0x110000)) : (Char.ofNat n).toNat = n := by
  have hv : n.isValidChar := h
  rw [Char.ofNat, dif_pos hv]
  rfl

theorem ofNat_toNat {b : UInt8} {n : Nat} (h : b.toNat = n) : UInt8.ofNat n = b := by
  rw [← h]
  exact UInt8.ofNat_toNat

/-- A byte below 128 is a character. -/
theorem char1_bytes {a : UInt8} (h : a < 0x80) : String.utf8EncodeChar (Char.ofNat a.toNat) = [a] := by
  rw [UInt8.lt_iff_toNat_lt] at h
  have ha : a.toNat < 0x80 := h
  have e := toNat_char (n := a.toNat) (by omega)
  rw [bytes1 (by omega), e, ofNat_toNat rfl]

theorem char2_bytes {a b : UInt8} (ha : isLead2 a = true) (hb : isTail b = true) :
    String.utf8EncodeChar (char2 a b) = [a, b] := by
  rw [isLead2_iff] at ha
  rw [isTail_iff] at hb
  have e : (char2 a b).toNat = (a.toNat - 0xc0) * 64 + (b.toNat - 0x80) := toNat_char (by omega)
  rw [bytes2 (by omega) (by omega), ofNat_toNat (b := a) (by omega), ofNat_toNat (b := b) (by omega)]

theorem char3_bytes {a b c : UInt8} (hab : isLead3 a b = true) (hc : isTail c = true) :
    String.utf8EncodeChar (char3 a b c) = [a, b, c] := by
  rw [isLead3_iff] at hab
  rw [isTail_iff] at hc
  have e : (char3 a b c).toNat = (a.toNat - 0xe0) * 4096 + (b.toNat - 0x80) * 64 + (c.toNat - 0x80) :=
    toNat_char (by omega)
  rw [bytes3 (by omega) (by omega), ofNat_toNat (b := a) (by omega), ofNat_toNat (b := b) (by omega),
    ofNat_toNat (b := c) (by omega)]

theorem char4_bytes {a b c d : UInt8} (hab : isLead4 a b = true) (hc : isTail c = true) (hd : isTail d = true) :
    String.utf8EncodeChar (char4 a b c d) = [a, b, c, d] := by
  rw [isLead4_iff] at hab
  rw [isTail_iff] at hc hd
  have e : (char4 a b c d).toNat =
      (a.toNat - 0xf0) * 262144 + (b.toNat - 0x80) * 4096 + (c.toNat - 0x80) * 64 + (d.toNat - 0x80) :=
    toNat_char (by omega)
  rw [bytes4 (by omega), ofNat_toNat (b := a) (by omega), ofNat_toNat (b := b) (by omega),
    ofNat_toNat (b := c) (by omega), ofNat_toNat (b := d) (by omega)]

/-- The bytes are those of the characters that they are read as. -/
def Exact (bs : Bytes) : Prop := ∀ {cs : List Char}, pieces bs = cs.map some → bs = cs.flatMap String.utf8EncodeChar

theorem Exact.char {w r : Bytes} {c : Char} (hw : String.utf8EncodeChar c = w) (h : Exact r) {cs : List Char}
    (hp : some c :: pieces r = cs.map some) : w ++ r = cs.flatMap String.utf8EncodeChar := by
  cases cs with
  | nil => cases hp
  | cons c' cs =>
    obtain ⟨hc, hr⟩ := List.cons.inj hp
    rw [List.flatMap_cons, ← Option.some.inj hc, hw, ← h hr]

theorem ill_formed_ne {ps : List (Option Char)} {cs : List Char} : none :: ps ≠ cs.map some := by
  intro h
  cases cs with
  | nil => cases h
  | cons c cs => cases h

/-- Bytes without an ill-formed part are those of their characters. -/
theorem exact_pieces (bs : Bytes) : Exact bs := by
  intro cs h
  fun_induction pieces bs generalizing cs
  case case1 =>
    cases cs with
    | nil => rfl
    | cons c cs => cases h
  case case2 ha ih => exact Exact.char (char1_bytes ha) ih h
  case case4 hab ih =>
    rw [Bool.and_eq_true] at hab
    exact Exact.char (char2_bytes hab.1 hab.2) ih h
  case case6 hab _ _ hc ih => exact Exact.char (char3_bytes hab hc) ih h
  case case10 hab _ hc _ _ hd ih => exact Exact.char (char4_bytes hab hc hd) ih h
  all_goals exact absurd h ill_formed_ne

/-- A string is read from its bytes only. -/
theorem decode?_eq_some_iff {bs : Bytes} {s : String} : decode? bs = some s ↔ bs = encode s := by
  have hall : ∀ {ps : List (Option Char)} {cs : List Char}, ps.mapM id = some cs → ps = cs.map some := by
    intro ps
    induction ps with
    | nil => intro cs h; cases h; rfl
    | cons p ps ih =>
      intro cs h
      rw [List.mapM_cons] at h
      obtain ⟨c, hc, h⟩ := Option.bind_eq_some_iff.1 h
      obtain ⟨ds, hds, h⟩ := Option.bind_eq_some_iff.1 h
      cases h
      rw [List.map_cons, ← ih hds]
      exact congrArg (· :: ps) hc
  constructor
  · intro h
    obtain ⟨cs, hcs, rfl⟩ := Option.map_eq_some_iff.1 h
    rw [encode, String.toList_ofList]
    exact exact_pieces bs (hall hcs)
  · rintro rfl
    exact decode?_encode s

/-! ## Order -/

/-- Byte strings are compared at the first byte, and behind it when that is the same. -/
theorem ofNat_cons_lt {m n : Nat} {x y : Bytes} (hm : m < 256) (hn : n < 256) (h : m < n ∨ (m = n ∧ x < y)) :
    UInt8.ofNat m :: x < UInt8.ofNat n :: y := by
  rw [List.cons_lt_cons_iff]
  rcases h with h | ⟨rfl, h⟩
  · exact Or.inl (by rwa [UInt8.lt_iff_toNat_lt, toNat_ofNat hm, toNat_ofNat hn])
  · exact Or.inr ⟨rfl, h⟩

section Order

variable {c d : Char} (hlt : c.toNat < d.toNat) (x y : Bytes)
include hlt

theorem bytes1_lt (h : c.toNat < 0x80) : String.utf8EncodeChar c ++ x < String.utf8EncodeChar d ++ y := by
  have hd := toNat_range d
  rw [bytes1 h]
  rcases Nat.lt_or_ge d.toNat 0x80 with h1 | h1
  · rw [bytes1 h1]; exact ofNat_cons_lt (by omega) (by omega) (Or.inl hlt)
  rcases Nat.lt_or_ge d.toNat 0x800 with h2 | h2
  · rw [bytes2 h1 h2]; exact ofNat_cons_lt (by omega) (by omega) (Or.inl (by omega))
  rcases Nat.lt_or_ge d.toNat 0x10000 with h3 | h3
  · rw [bytes3 h2 h3]; exact ofNat_cons_lt (by omega) (by omega) (Or.inl (by omega))
  · rw [bytes4 h3]; exact ofNat_cons_lt (by omega) (by omega) (Or.inl (by omega))

theorem bytes2_lt (h : 0x80 ≤ c.toNat) (h' : c.toNat < 0x800) :
    String.utf8EncodeChar c ++ x < String.utf8EncodeChar d ++ y := by
  have hd := toNat_range d
  rw [bytes2 h h']
  rcases Nat.lt_or_ge d.toNat 0x800 with h2 | h2
  · rw [bytes2 (by omega) h2]
    refine ofNat_cons_lt (by omega) (by omega) ?_
    rcases Nat.lt_or_ge (c.toNat / 64) (d.toNat / 64) with hq | hq
    · exact Or.inl (by omega)
    · exact Or.inr ⟨by omega, ofNat_cons_lt (by omega) (by omega) (Or.inl (by omega))⟩
  rcases Nat.lt_or_ge d.toNat 0x10000 with h3 | h3
  · rw [bytes3 h2 h3]; exact ofNat_cons_lt (by omega) (by omega) (Or.inl (by omega))
  · rw [bytes4 h3]; exact ofNat_cons_lt (by omega) (by omega) (Or.inl (by omega))

theorem bytes3_lt (h : 0x800 ≤ c.toNat) (h' : c.toNat < 0x10000) :
    String.utf8EncodeChar c ++ x < String.utf8EncodeChar d ++ y := by
  have hd := toNat_range d
  rw [bytes3 h h']
  rcases Nat.lt_or_ge d.toNat 0x10000 with h3 | h3
  · rw [bytes3 (by omega) h3]
    refine ofNat_cons_lt (by omega) (by omega) ?_
    rcases Nat.lt_or_ge (c.toNat / 4096) (d.toNat / 4096) with hq | hq
    · exact Or.inl (by omega)
    refine Or.inr ⟨by omega, ofNat_cons_lt (by omega) (by omega) ?_⟩
    rcases Nat.lt_or_ge (c.toNat / 64) (d.toNat / 64) with hr | hr
    · exact Or.inl (by omega)
    · exact Or.inr ⟨by omega, ofNat_cons_lt (by omega) (by omega) (Or.inl (by omega))⟩
  · rw [bytes4 h3]; exact ofNat_cons_lt (by omega) (by omega) (Or.inl (by omega))

theorem bytes4_lt (h : 0x10000 ≤ c.toNat) : String.utf8EncodeChar c ++ x < String.utf8EncodeChar d ++ y := by
  have hd := toNat_range d
  rw [bytes4 h, bytes4 (by omega)]
  refine ofNat_cons_lt (by omega) (by omega) ?_
  rcases Nat.lt_or_ge (c.toNat / 262144) (d.toNat / 262144) with hq | hq
  · exact Or.inl (by omega)
  refine Or.inr ⟨by omega, ofNat_cons_lt (by omega) (by omega) ?_⟩
  rcases Nat.lt_or_ge (c.toNat / 4096) (d.toNat / 4096) with hr | hr
  · exact Or.inl (by omega)
  refine Or.inr ⟨by omega, ofNat_cons_lt (by omega) (by omega) ?_⟩
  rcases Nat.lt_or_ge (c.toNat / 64) (d.toNat / 64) with hs | hs
  · exact Or.inl (by omega)
  · exact Or.inr ⟨by omega, ofNat_cons_lt (by omega) (by omega) (Or.inl (by omega))⟩

/-- Of two characters the smaller has the smaller bytes, whatever follows. -/
theorem utf8EncodeChar_lt : String.utf8EncodeChar c ++ x < String.utf8EncodeChar d ++ y := by
  rcases Nat.lt_or_ge c.toNat 0x80 with h1 | h1
  · exact bytes1_lt hlt x y h1
  rcases Nat.lt_or_ge c.toNat 0x800 with h2 | h2
  · exact bytes2_lt hlt x y h1 h2
  rcases Nat.lt_or_ge c.toNat 0x10000 with h3 | h3
  · exact bytes3_lt hlt x y h2 h3
  · exact bytes4_lt hlt x y h3

end Order

/-- The same beginning does not matter for the order. -/
theorem append_lt_append {w x y : Bytes} (h : x < y) : w ++ x < w ++ y := by
  induction w with
  | nil => exact h
  | cons a w ih => exact List.cons_lt_cons_iff.2 (Or.inr ⟨rfl, ih⟩)

/-- Every character has a byte. -/
theorem utf8EncodeChar_ne_nil (c : Char) : String.utf8EncodeChar c ≠ [] := by
  intro h
  have := congrArg List.length h
  rw [String.length_utf8EncodeChar, List.length_nil] at this
  exact absurd this (Nat.pos_iff_ne_zero.1 c.utf8Size_pos)

/-- Strings in order have their bytes in order. -/
theorem encode_lt {s t : String} (h : s < t) : encode s < encode t := by
  have key : ∀ {cs ds : List Char}, cs < ds → cs.flatMap String.utf8EncodeChar < ds.flatMap String.utf8EncodeChar := by
    intro cs
    induction cs with
    | nil =>
      intro ds h
      cases ds with
      | nil => exact absurd h (List.not_lt_nil _)
      | cons d ds =>
        rw [List.flatMap_cons, List.flatMap_nil]
        cases hd : String.utf8EncodeChar d with
        | nil => exact absurd hd (utf8EncodeChar_ne_nil d)
        | cons b bs => exact List.nil_lt_cons _ _
    | cons c cs ih =>
      intro ds h
      cases ds with
      | nil => exact absurd h (List.not_lt_nil _)
      | cons d ds =>
        rw [List.flatMap_cons, List.flatMap_cons]
        rcases List.cons_lt_cons_iff.1 h with hcd | ⟨rfl, hcs⟩
        · exact utf8EncodeChar_lt hcd _ _
        · exact append_lt_append (ih hcs)
  exact key h

end RegistryPublisher.Utf8
