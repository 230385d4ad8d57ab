import RegistryPublisher.Json.Skip
import RegistryPublisher.Proofs.Json.Leaves

/-!
# The form of documents

- `Json.Form` is a JSON document as far as readers that skip values look at it: members in the order of the text, numbers
  by their spelling, strings by the text they denote, if they denote one; nesting has no limit;
- `readString_eq_ok_iff`: a string is read where it can be skipped and denotes a text;
- `Spans p bs rest`: the part `p` of a document stands at the beginning of `bs`, and `rest` comes after it; no other part of
  the kind stands there (`Spans.unique`), and a part takes one byte at least (`Spans.shorter`).
-/

namespace RegistryPublisher.Json

/-! ## Strings -/

theorem prepend_eq_ok_iff {bs cs rest : Bytes} {x : Except Fault (Bytes × Bytes)} :
    prepend bs x = .ok (cs, rest) ↔ ∃ ds, x = .ok (ds, rest) ∧ cs = bs ++ ds := by
  cases x with
  | error f => exact ⟨nofun, fun ⟨_, h, _⟩ => nomatch h⟩
  | ok y =>
    obtain ⟨ds, r⟩ := y
    constructor
    · intro h
      cases h
      exact ⟨ds, rfl, rfl⟩
    · rintro ⟨_, h, rfl⟩
      cases h
      rfl

theorem skipString_letter {e b : UInt8} (h : letterEscape? e = some b) (bs : Bytes) :
    skipString (0x5c :: e :: bs) = skipString bs := by
  rw [skipString.eq_def]
  simp only [h, show ¬((0x5c : UInt8) = 0x22) by decide, if_false, if_true, Option.isSome_some]

theorem skipString_unit {a b c d : UInt8} {n : Nat} (h : hexUnit? a b c d = some n) (bs : Bytes) :
    skipString (0x5c :: 0x75 :: a :: b :: c :: d :: bs) = skipString bs := by
  have he : letterEscape? 0x75 = none := rfl
  rw [skipString.eq_def]
  simp only [he, h, show ¬((0x5c : UInt8) = 0x22) by decide, if_false, if_true, Option.isSome_some, Option.isSome_none,
    Bool.false_eq_true]

theorem skipString_plain {b : UInt8} (h : standsForItself b) (bs : Bytes) : skipString (b :: bs) = skipString bs := by
  obtain ⟨hq, hb, hc⟩ := h
  rw [skipString.eq_def]
  simp only [if_neg hq, if_neg hb, if_neg hc]

/-- A string that is read is one that can be skipped. -/
theorem skipString_of_stringBytes {bs cs rest : Bytes} (h : stringBytes bs = .ok (cs, rest)) :
    skipString bs = .ok rest := by
  fun_induction stringBytes bs generalizing cs
  case case2 =>
    cases h
    rw [skipString.eq_def]
    rfl
  case case4 he _ ih =>
    obtain ⟨ds, hds, -⟩ := prepend_eq_ok_iff.1 h
    rw [skipString_letter he, ih hds]
  case case10 hhigh _ _ _ _ _ _ _ _ hlow _ _ _ ih =>
    obtain ⟨ds, hds, -⟩ := prepend_eq_ok_iff.1 h
    rw [skipString_unit hhigh, skipString_unit hlow, ih hds]
  case case15 hunit _ _ _ _ ih =>
    obtain ⟨ds, hds, -⟩ := prepend_eq_ok_iff.1 h
    rw [skipString_unit hunit, ih hds]
  case case19 hq hb hc ih =>
    obtain ⟨ds, hds, -⟩ := prepend_eq_ok_iff.1 h
    rw [skipString_plain ⟨hq, hb, hc⟩, ih hds]
  all_goals cases h

/-- Passes a string and tells what it denotes: nothing when it has half a pair of units or is no UTF-8. -/
def readToken : Reader (Option String) := fun bs => do
  let rest ← skipString bs
  return ((readString bs).toOption.map Prod.fst, rest)

/-- A string is read when it denotes a text. -/
theorem readString_eq_ok_iff {bs rest : Bytes} {s : String} :
    readString bs = .ok (s, rest) ↔ readToken bs = .ok (some s, rest) := by
  have hskip : ∀ {s rest}, readString bs = .ok (s, rest) → skipString bs = .ok rest := by
    intro s rest h
    unfold readString at h
    split at h
    · cases h
    next cs r hcs =>
    split at h
    · cases h
      exact skipString_of_stringBytes hcs
    · cases h
  rw [readToken, bind_eq_ok_iff]
  constructor
  · intro h
    exact ⟨rest, hskip h, by rw [h]; rfl⟩
  · rintro ⟨r, hr, h⟩
    cases hs : readString bs with
    | error f =>
      rw [hs] at h
      cases h
    | ok x =>
      obtain ⟨t, r'⟩ := x
      rw [hs] at h
      cases h
      cases hr.symm.trans (hskip hs)
      rfl

/-! ## Forms -/

/-- A JSON document without the blanks in it, and without evaluating anything but strings. -/
inductive Form where
  | null
  | bool (b : Bool)
  | number (n : Numeral)
  | string (s : Option String)
  | array (items : List Form)
  | object (members : List (Option String × Form))

/-- The form of a value that is no array or object, from its first byte. -/
def Form.readScalar (c : UInt8) (r : Bytes) : Except Fault (Form × Bytes) :=
  if c = 0x6e then do return (null, ← word (Utf8.encode "ull") r)
  else if c = 0x74 then do return (bool true, ← word (Utf8.encode "rue") r)
  else if c = 0x66 then do return (bool false, ← word (Utf8.encode "alse") r)
  else if c = 0x22 then do
    let (s, rest) ← readToken r
    return (string s, rest)
  else if startsNumber c then do
    let (n, rest) ← readNumeral .invalidNumber (c :: r)
    return (number n, rest)
  else stopAt .expectedValue (c :: r)

theorem Form.readScalar_cases {c : UInt8} {r rest : Bytes} {f : Form} (h : readScalar c r = .ok (f, rest)) :
    (c = 0x6e ∧ word (Utf8.encode "ull") r = .ok rest ∧ f = null) ∨
    (c = 0x74 ∧ word (Utf8.encode "rue") r = .ok rest ∧ f = bool true) ∨
    (c = 0x66 ∧ word (Utf8.encode "alse") r = .ok rest ∧ f = bool false) ∨
    (∃ s, c = 0x22 ∧ readToken r = .ok (s, rest) ∧ f = string s) ∨
    ∃ n, startsNumber c = true ∧ readNumeral .invalidNumber (c :: r) = .ok (n, rest) ∧ f = number n := by
  unfold readScalar at h
  split at h
  · next hc =>
    obtain ⟨_, hw, h⟩ := bind_eq_ok_iff.1 h
    cases h
    exact Or.inl ⟨hc, hw, rfl⟩
  split at h
  · next hc =>
    obtain ⟨_, hw, h⟩ := bind_eq_ok_iff.1 h
    cases h
    exact Or.inr (Or.inl ⟨hc, hw, rfl⟩)
  split at h
  · next hc =>
    obtain ⟨_, hw, h⟩ := bind_eq_ok_iff.1 h
    cases h
    exact Or.inr (Or.inr (Or.inl ⟨hc, hw, rfl⟩))
  split at h
  · next hc =>
    obtain ⟨⟨s, _⟩, hs, h⟩ := bind_eq_ok_iff.1 h
    cases h
    exact Or.inr (Or.inr (Or.inr (Or.inl ⟨s, hc, hs, rfl⟩)))
  split at h
  · next hc =>
    obtain ⟨⟨n, _⟩, hn, h⟩ := bind_eq_ok_iff.1 h
    cases h
    exact Or.inr (Or.inr (Or.inr (Or.inr ⟨n, hc, hn, rfl⟩)))
  · cases h

/-- The closing bracket may come next wherever an item may. -/
theorem nextItem_close_iff {first : Bool} {bs rest : Bytes} :
    nextItem first bs = .ok (.close rest) ↔ skipBlanks bs = 0x5d :: rest := by
  unfold nextItem
  cases skipBlanks bs with
  | nil => exact ⟨nofun, nofun⟩
  | cons c r =>
    simp only [List.cons.injEq]
    constructor
    · intro h
      split at h
      · cases h
        exact ⟨‹_›, rfl⟩
      split at h
      · cases h
      split at h
      · split at h
        · cases h
        · split at h <;> cases h
      · cases h
    · rintro ⟨rfl, rfl⟩
      rfl

theorem nextKey_close_iff {first : Bool} {bs rest : Bytes} :
    nextKey first bs = .ok (.close rest) ↔ skipBlanks bs = 0x7d :: rest := by
  have hopen : ∀ c r, openKey c r ≠ .ok (.close rest) := by
    intro c r h
    unfold openKey at h
    split at h <;> cases h
  unfold nextKey
  cases skipBlanks bs with
  | nil => exact ⟨nofun, nofun⟩
  | cons c r =>
    simp only [List.cons.injEq]
    constructor
    · intro h
      split at h
      · cases h
        exact ⟨‹_›, rfl⟩
      split at h
      · exact absurd h (hopen _ _)
      split at h
      · split at h
        · cases h
        split at h
        · cases h
        · exact absurd h (hopen _ _)
      · cases h
    · rintro ⟨rfl, rfl⟩
      rfl

/-- A part of a document: a value, or the rest of the items of an array or of the members of an object with the closing
bracket, from the first one or a later one on. -/
inductive Part where
  | value (f : Form)
  | items (first : Bool) (fs : List Form)
  | members (first : Bool) (ms : List (Option String × Form))

/-- `Spans p bs rest`: the text `bs` begins with the part `p`, and `rest` comes after it. -/
inductive Spans : Part → Bytes → Bytes → Prop
  | scalar {bs r rest : Bytes} {c : UInt8} {f : Form} (start : skipBlanks bs = c :: r)
      (read : Form.readScalar c r = .ok (f, rest)) : Spans (.value f) bs rest
  | array {bs r rest : Bytes} {fs : List Form} (start : skipBlanks bs = 0x5b :: r)
      (items : Spans (.items true fs) r rest) : Spans (.value (.array fs)) bs rest
  | object {bs r rest : Bytes} {ms : List (Option String × Form)} (start : skipBlanks bs = 0x7b :: r)
      (members : Spans (.members true ms) r rest) : Spans (.value (.object ms)) bs rest
  | noItem {first : Bool} {bs rest : Bytes} (close : skipBlanks bs = 0x5d :: rest) :
      Spans (.items first []) bs rest
  | item {first : Bool} {bs r₁ r₂ rest : Bytes} {f : Form} {fs : List Form}
      (next : nextItem first bs = .ok (.more r₁)) (value : Spans (.value f) r₁ r₂)
      (items : Spans (.items false fs) r₂ rest) : Spans (.items first (f :: fs)) bs rest
  | noMember {first : Bool} {bs rest : Bytes} (close : skipBlanks bs = 0x7d :: rest) :
      Spans (.members first []) bs rest
  | member {first : Bool} {bs r₁ r₂ r₃ r₄ rest : Bytes} {k : Option String} {f : Form}
      {ms : List (Option String × Form)} (next : nextKey first bs = .ok (.more r₁)) (key : readToken r₁ = .ok (k, r₂))
      (colon : colon r₂ = .ok r₃) (value : Spans (.value f) r₃ r₄) (members : Spans (.members false ms) r₄ rest) :
      Spans (.members first ((k, f) :: ms)) bs rest

/-- The text is a document of the given form. -/
def Form.Text (f : Form) (text : Bytes) : Prop := ∃ rest, Spans (.value f) text rest ∧ skipBlanks rest = []

/-! ## Uniqueness -/

/-- What sort of part it is. -/
inductive Part.Kind where
  | value
  | items (first : Bool)
  | members (first : Bool)

def Part.kind : Part → Kind
  | value _ => .value
  | items first _ => .items first
  | members first _ => .members first

/-- A text begins with one part of a kind at most. -/
theorem Spans.unique {p : Part} {bs rest : Bytes} (h : Spans p bs rest) :
    ∀ {p' rest'}, Spans p' bs rest' → p'.kind = p.kind → p' = p ∧ rest' = rest := by
  induction h with
  | scalar start read =>
    intro p' rest' h' hkind
    cases h' with
    | scalar start' read' =>
      cases start.symm.trans start'
      cases read.symm.trans read'
      exact ⟨rfl, rfl⟩
    | array start' =>
      cases start.symm.trans start'
      cases read
    | object start' =>
      cases start.symm.trans start'
      cases read
    | _ => cases hkind
  | array start _ ih =>
    intro p' rest' h' hkind
    cases h' with
    | scalar start' read' =>
      cases start.symm.trans start'
      cases read'
    | array start' items' =>
      cases start.symm.trans start'
      obtain ⟨hp, rfl⟩ := ih items' rfl
      cases hp
      exact ⟨rfl, rfl⟩
    | object start' => cases start.symm.trans start'
    | _ => cases hkind
  | object start _ ih =>
    intro p' rest' h' hkind
    cases h' with
    | scalar start' read' =>
      cases start.symm.trans start'
      cases read'
    | array start' => cases start.symm.trans start'
    | object start' members' =>
      cases start.symm.trans start'
      obtain ⟨hp, rfl⟩ := ih members' rfl
      cases hp
      exact ⟨rfl, rfl⟩
    | _ => cases hkind
  | noItem close =>
    intro p' rest' h' hkind
    cases h' with
    | noItem close' =>
      cases hkind
      cases close.symm.trans close'
      exact ⟨rfl, rfl⟩
    | item next' => cases (nextItem_close_iff.2 close).symm.trans next'
    | _ => cases hkind
  | item next _ _ ihvalue ihitems =>
    intro p' rest' h' hkind
    cases h' with
    | noItem close' => cases (nextItem_close_iff.2 close').symm.trans next
    | item next' value' items' =>
      cases hkind
      cases next.symm.trans next'
      obtain ⟨hf, rfl⟩ := ihvalue value' rfl
      obtain ⟨hfs, rfl⟩ := ihitems items' rfl
      cases hf
      cases hfs
      exact ⟨rfl, rfl⟩
    | _ => cases hkind
  | noMember close =>
    intro p' rest' h' hkind
    cases h' with
    | noMember close' =>
      cases hkind
      cases close.symm.trans close'
      exact ⟨rfl, rfl⟩
    | member next' => cases (nextKey_close_iff.2 close).symm.trans next'
    | _ => cases hkind
  | member next key colon _ _ ihvalue ihmembers =>
    intro p' rest' h' hkind
    cases h' with
    | noMember close' => cases (nextKey_close_iff.2 close').symm.trans next
    | member next' key' colon' value' members' =>
      cases hkind
      cases next.symm.trans next'
      cases key.symm.trans key'
      cases colon.symm.trans colon'
      obtain ⟨hf, rfl⟩ := ihvalue value' rfl
      obtain ⟨hms, rfl⟩ := ihmembers members' rfl
      cases hf
      cases hms
      exact ⟨rfl, rfl⟩
    | _ => cases hkind

/-- A text has one form at most. -/
theorem Form.Text.unique {f f' : Form} {text : Bytes} (h : f.Text text) (h' : f'.Text text) : f' = f := by
  obtain ⟨_, hspans, -⟩ := h
  obtain ⟨_, hspans', -⟩ := h'
  obtain ⟨hvalue, -⟩ := hspans.unique hspans' rfl
  exact Part.value.inj hvalue

/-! ## Lengths -/

section Lengths

variable {bs r rest : Bytes}

theorem length_skipBlanks_le (bs : Bytes) : (skipBlanks bs).length ≤ bs.length :=
  (List.dropWhile_sublist _).length_le

theorem length_of_skipBlanks {c : UInt8} (h : skipBlanks bs = c :: r) : r.length < bs.length := by
  have hle := length_skipBlanks_le bs
  rw [h, List.length_cons] at hle
  exact hle

theorem word_eq_ok_iff {w : Bytes} : word w bs = .ok rest ↔ bs = w ++ rest := by
  constructor
  · intro h
    induction w generalizing bs with
    | nil =>
      cases h
      rfl
    | cons b w ih =>
      cases bs with
      | nil => cases h
      | cons c bs =>
        rw [word] at h
        split at h
        · next hc => rw [hc, ih h, List.cons_append]
        · cases h
  · rintro rfl
    exact word_append w rest

theorem length_of_word {w : Bytes} (h : word w bs = .ok rest) : rest.length ≤ bs.length := by
  rw [word_eq_ok_iff.1 h, List.length_append]
  exact Nat.le_add_left ..

theorem length_of_skipString (h : skipString bs = .ok rest) : rest.length < bs.length := by
  fun_induction skipString bs
  case case2 =>
    cases h
    exact Nat.lt_succ_self _
  case case4 ih =>
    have := ih h
    simp only [List.length_cons]
    omega
  case case5 ih =>
    have := ih h
    simp only [List.length_cons]
    omega
  case case10 ih =>
    have := ih h
    simp only [List.length_cons]
    omega
  all_goals cases h

theorem length_of_readToken {s : Option String} (h : readToken bs = .ok (s, rest)) : rest.length < bs.length := by
  obtain ⟨_, hskip, h⟩ := bind_eq_ok_iff.1 h
  cases h
  exact length_of_skipString hskip

theorem length_of_wholePart {atEnd : Cause} {ds : List Nat} (h : wholePart atEnd bs = .ok (ds, rest)) :
    rest.length < bs.length := by
  unfold wholePart at h
  split at h
  · cases h
  next c r =>
  split at h
  · split at h
    · split at h
      · cases h
      · cases h
        exact Nat.lt_succ_self _
    · cases h
      exact Nat.lt_succ_self _
  split at h
  · next hd =>
    cases h
    rw [List.dropWhile_cons, if_pos hd]
    exact Nat.lt_succ_of_le (List.dropWhile_sublist _).length_le
  · cases h

theorem length_of_fractionPart {atEnd : Cause} {ds : Option (List Nat)}
    (h : fractionPart atEnd bs = .ok (ds, rest)) : rest.length ≤ bs.length := by
  unfold fractionPart at h
  split at h
  · cases h
    exact Nat.le_refl _
  split at h
  · split at h
    · cases h
    split at h
    · cases h
      exact Nat.le_succ_of_le (List.dropWhile_sublist _).length_le
    · cases h
  · cases h
    exact Nat.le_refl _

theorem length_of_exponentPart {atEnd : Cause} {e : Option (Bool × List Nat)}
    (h : exponentPart atEnd bs = .ok (e, rest)) : rest.length ≤ bs.length := by
  have hsign : ∀ r : Bytes, (exponentSign r).2.length ≤ r.length := by
    intro r
    unfold exponentSign
    split
    · exact Nat.le_refl _
    split
    · exact Nat.le_succ _
    split
    · exact Nat.le_succ _
    · exact Nat.le_refl _
  unfold exponentPart at h
  split at h
  · cases h
    exact Nat.le_refl _
  next c r =>
  split at h
  · have hr := hsign r
    generalize exponentSign r = signed at h hr
    obtain ⟨negative, r₁⟩ := signed
    cases r₁ with
    | nil => cases h
    | cons d r₂ =>
      simp only at h
      split at h
      · cases h
        exact Nat.le_trans (List.dropWhile_sublist _).length_le (Nat.le_succ_of_le hr)
      · cases h
  · cases h
    exact Nat.le_refl _

theorem length_of_readNumeral {atEnd : Cause} {n : Numeral} (h : readNumeral atEnd bs = .ok (n, rest)) :
    rest.length < bs.length := by
  unfold readNumeral at h
  split at h
  next negative bs' hsign =>
  obtain ⟨_, hwhole, h⟩ := bind_eq_ok_iff.1 h
  obtain ⟨_, hfraction, h⟩ := bind_eq_ok_iff.1 h
  obtain ⟨⟨e, r⟩, hexponent, h⟩ := bind_eq_ok_iff.1 h
  have hlt : r.length < bs'.length := by
    have := length_of_wholePart hwhole
    have := length_of_fractionPart hfraction
    have := length_of_exponentPart hexponent
    omega
  cases h
  split at hsign
  · cases hsign
    exact Nat.lt_succ_of_lt hlt
  · cases hsign
    exact hlt

theorem Form.length_of_readScalar {c : UInt8} {f : Form} (h : readScalar c r = .ok (f, rest)) :
    rest.length ≤ r.length := by
  rcases readScalar_cases h with ⟨-, hw, -⟩ | ⟨-, hw, -⟩ | ⟨-, hw, -⟩ | ⟨s, -, hs, -⟩ | ⟨n, -, hn, -⟩
  · exact length_of_word hw
  · exact length_of_word hw
  · exact length_of_word hw
  · exact Nat.le_of_lt (length_of_readToken hs)
  · exact Nat.le_of_lt_succ (length_of_readNumeral hn)

/-- How many bytes are left after a bracket or before an item or key. -/
def Next.length : Next → Nat
  | .close rest => rest.length + 1
  | .more rest => rest.length

theorem length_of_nextItem {first : Bool} {n : Next} (h : nextItem first bs = .ok n) : n.length ≤ bs.length := by
  have hblanks := length_skipBlanks_le bs
  unfold nextItem at h
  split at h
  · cases h
  next c r start =>
  rw [start] at hblanks
  split at h
  · cases h
    exact hblanks
  split at h
  · cases h
    exact hblanks
  split at h
  · have hr := length_skipBlanks_le r
    split at h
    · cases h
    next d r' start' =>
    rw [start'] at hr
    split at h
    · cases h
    · cases h
      exact Nat.le_trans (Nat.le_succ_of_le hr) hblanks
  · cases h

theorem length_of_openKey {c : UInt8} {n : Next} (h : openKey c r = .ok n) : n.length ≤ r.length := by
  unfold openKey at h
  split at h
  · cases h
    exact Nat.le_refl _
  · cases h

theorem length_of_nextKey {first : Bool} {n : Next} (h : nextKey first bs = .ok n) : n.length ≤ bs.length := by
  have hblanks := length_skipBlanks_le bs
  unfold nextKey at h
  split at h
  · cases h
  next c r start =>
  rw [start, List.length_cons] at hblanks
  split at h
  · cases h
    exact hblanks
  split at h
  · exact Nat.le_trans (length_of_openKey h) (Nat.le_of_succ_le hblanks)
  split at h
  · have hr := length_skipBlanks_le r
    split at h
    · cases h
    next d r' start' =>
    rw [start', List.length_cons] at hr
    split at h
    · cases h
    · have := length_of_openKey h
      omega
  · cases h

theorem length_of_colon (h : colon bs = .ok rest) : rest.length < bs.length := by
  unfold colon at h
  split at h
  · cases h
  next c r start =>
  split at h
  · cases h
    exact length_of_skipBlanks start
  · cases h

/-- Every part takes a byte at least. -/
theorem Spans.shorter {p : Part} (h : Spans p bs rest) : rest.length < bs.length := by
  induction h with
  | scalar start read => exact Nat.lt_of_le_of_lt (Form.length_of_readScalar read) (length_of_skipBlanks start)
  | array start _ ih => exact Nat.lt_trans ih (length_of_skipBlanks start)
  | object start _ ih => exact Nat.lt_trans ih (length_of_skipBlanks start)
  | noItem close => exact length_of_skipBlanks close
  | item next _ _ ihvalue ihitems =>
    have hnext := length_of_nextItem next
    rw [Next.length] at hnext
    omega
  | noMember close => exact length_of_skipBlanks close
  | member next key colon _ _ ihvalue ihmembers =>
    have hnext := length_of_nextKey next
    rw [Next.length] at hnext
    have hkey := length_of_readToken key
    have hcolon := length_of_colon colon
    omega

end Lengths

end RegistryPublisher.Json
