import RegistryPublisher.Proofs.Json.Accepted
import RegistryPublisher.Proofs.Json.NumeralText
import RegistryPublisher.Proofs.Json.StringText

/-!
# The grammar of documents

What a JSON text is, apart from any reader.

- `Spells p w`: the bytes `w` spell the piece `p`, a value, the items of an array or the members of an object;
  `Tree.Document`: a text is a document, with white space around it;
- `Spells.spans`: what is spelled has its form where it stands, and `Tree.read_of_spans`: it is read as itself when no
  more brackets are open than may be;
- `spells_of_read`: what is read is spelled;
- `Tree.parse_eq_ok_iff`: so a text is read exactly when it is a document that is not nested too deeply.
-/

namespace RegistryPublisher.Json

/-! ## The grammar -/

/-- White space: spaces, tabs and the two line ends. -/
def Blank (w : Bytes) : Prop := ∀ b ∈ w, b = 0x20 ∨ b = 0x09 ∨ b = 0x0a ∨ b = 0x0d

/-- A piece of a document: a value, an element of an array with the white space around it, all elements, a member of an
object, or all members. -/
inductive Piece where
  | value (t : Tree)
  | element (t : Tree)
  | elements (ts : List Tree)
  | member (k : String) (t : Tree)
  | members (ms : List (String × Tree))

/-- `Spells p w`: the bytes `w` are the piece `p`. -/
inductive Spells : Piece → Bytes → Prop
  | null : Spells (.value .null) (Utf8.encode "null")
  | bool (b : Bool) : Spells (.value (.bool b)) (Utf8.encode (if b then "true" else "false"))
  | number {n : Numeral} {w : Bytes} (h : NumeralText n w) : Spells (.value (.number n)) w
  | string {s : String} {w : Bytes} (h : StringText s w) : Spells (.value (.string s)) w
  | emptyArray {a : Bytes} (ha : Blank a) : Spells (.value (.array [])) (0x5b :: (a ++ [0x5d]))
  | array {ts : List Tree} {w : Bytes} (elements : Spells (.elements ts) w) :
      Spells (.value (.array ts)) (0x5b :: (w ++ [0x5d]))
  | emptyObject {a : Bytes} (ha : Blank a) : Spells (.value (.object [])) (0x7b :: (a ++ [0x7d]))
  | object {ms : List (String × Tree)} {w : Bytes} (members : Spells (.members ms) w) :
      Spells (.value (.object ms)) (0x7b :: (w ++ [0x7d]))
  | element {t : Tree} {a w b : Bytes} (ha : Blank a) (value : Spells (.value t) w) (hb : Blank b) :
      Spells (.element t) (a ++ (w ++ b))
  | lastElement {t : Tree} {w : Bytes} (element : Spells (.element t) w) : Spells (.elements [t]) w
  | elements {t : Tree} {ts : List Tree} {w v : Bytes} (element : Spells (.element t) w)
      (elements : Spells (.elements ts) v) : Spells (.elements (t :: ts)) (w ++ 0x2c :: v)
  | member {k : String} {t : Tree} {a s b w : Bytes} (ha : Blank a) (key : StringText k s) (hb : Blank b)
      (element : Spells (.element t) w) : Spells (.member k t) (a ++ (s ++ (b ++ 0x3a :: w)))
  | lastMember {k : String} {t : Tree} {w : Bytes} (member : Spells (.member k t) w) : Spells (.members [(k, t)]) w
  | members {k : String} {t : Tree} {ms : List (String × Tree)} {w v : Bytes} (member : Spells (.member k t) w)
      (members : Spells (.members ms) v) : Spells (.members ((k, t) :: ms)) (w ++ 0x2c :: v)

/-- The text is the document, with white space around it. -/
def Tree.Document (t : Tree) (text : Bytes) : Prop := Spells (.element t) text

/-! ## White space -/

theorem isSpace_iff {b : UInt8} : isSpace b = true ↔ b = 0x20 ∨ b = 0x09 ∨ b = 0x0a ∨ b = 0x0d := by
  simp only [isSpace, Bool.or_eq_true, beq_iff_eq]
  grind

theorem Blank.append {a b : Bytes} (ha : Blank a) (hb : Blank b) : Blank (a ++ b) :=
  List.forall_mem_append.2 ⟨ha, hb⟩

theorem Blank.nil : Blank [] := nofun

theorem Blank.skip {a : Bytes} (h : Blank a) (bs : Bytes) : skipBlanks (a ++ bs) = skipBlanks bs :=
  List.dropWhile_append_of_pos fun b hb => isSpace_iff.2 (h b hb)

/-- White space is what is passed between tokens. -/
theorem exists_blank (bs : Bytes) : ∃ a, Blank a ∧ bs = a ++ skipBlanks bs := by
  refine ⟨bs.takeWhile isSpace, fun b hb => isSpace_iff.1 (List.mem_takeWhile_imp hb), ?_⟩
  exact (List.takeWhile_append_dropWhile).symm

theorem Blank.delimited {a rest : Bytes} (ha : Blank a) (h : Delimited rest) : Delimited (a ++ rest) := by
  cases a with
  | nil => exact h
  | cons b a =>
    refine delimited_cons ?_
    rcases ha b List.mem_cons_self with rfl | rfl | rfl | rfl <;> decide

/-! ## What is spelled has its form -/

section Spans

variable {t : Tree} {w rest : Bytes}

/-- A value begins with a byte that is no white space and closes no array. -/
theorem Spells.exists_head (h : Spells (.value t) w) : ∃ c r, w = c :: r ∧ isSpace c = false ∧ c ≠ 0x5d := by
  cases h with
  | null => exact ⟨_, _, rfl, by decide⟩
  | bool b => cases b <;> exact ⟨_, _, rfl, by decide⟩
  | number h =>
    obtain ⟨c, r, rfl, hc⟩ := h.exists_head
    exact ⟨c, r, rfl, not_isSpace_of_startsNumber hc, ne_of_startsNumber hc rfl⟩
  | string h =>
    obtain ⟨-⟩ := h
    exact ⟨_, _, rfl, by decide⟩
  | emptyArray => exact ⟨_, _, rfl, by decide⟩
  | array => exact ⟨_, _, rfl, by decide⟩
  | emptyObject => exact ⟨_, _, rfl, by decide⟩
  | object => exact ⟨_, _, rfl, by decide⟩

theorem NumeralText.spans {n : Numeral} (h : NumeralText n w) (hrest : Delimited rest) :
    Spans (.value (.number n)) (w ++ rest) rest := by
  obtain ⟨c, r, rfl, hc⟩ := h.exists_head
  have hne : ∀ d, startsNumber d = false → c ≠ d := fun d => ne_of_startsNumber hc
  have hread : readNumeral .invalidNumber (c :: (r ++ rest)) = .ok (n, rest) := h.read hrest
  refine .scalar (skipBlanks_cons (not_isSpace_of_startsNumber hc) (r ++ rest)) ?_
  rw [Form.readScalar, if_neg (hne _ rfl), if_neg (hne _ rfl), if_neg (hne _ rfl), if_neg (hne _ rfl), if_pos hc,
    hread]
  rfl

theorem StringText.read {s : String} (h : StringText s w) (rest : Bytes) :
    ∃ r, w ++ rest = 0x22 :: r ∧ readToken r = .ok (some s, rest) := by
  obtain ⟨hchars⟩ := h
  next v =>
  refine ⟨v ++ 0x22 :: rest, by simp, ?_⟩
  exact readString_eq_ok_iff.1 (readString_spelled_iff.2 ⟨v, rfl, hchars⟩)

theorem bool_spans (b : Bool) (rest : Bytes) :
    Spans (.value (.bool b)) (Utf8.encode (if b then "true" else "false") ++ rest) rest := by
  cases b with
  | true => exact spans_bool_iff.2 (Or.inl ⟨rfl, _, rfl, word_append _ _⟩)
  | false => exact spans_bool_iff.2 (Or.inr ⟨rfl, _, rfl, word_append _ _⟩)

end Spans

theorem bracket_append (opening closing : UInt8) (w rest : Bytes) :
    opening :: (w ++ [closing]) ++ rest = opening :: (w ++ closing :: rest) := by
  rw [List.cons_append, List.append_assoc, List.singleton_append]

theorem Blank.colon {b : Bytes} (hb : Blank b) (rest : Bytes) : colon (b ++ 0x3a :: rest) = .ok rest := by
  unfold Json.colon
  rw [hb.skip]
  rfl

/-- What comes where an item or a key may begin: the text itself after the opening bracket, and later a comma before
it. -/
def Continues (first : Bool) (bs next : Bytes) : Prop :=
  skipBlanks bs = if first then skipBlanks next else 0x2c :: next

theorem nextItem_continues {first : Bool} {bs next r : Bytes} {c : UInt8} (h : Continues first bs next)
    (hnext : skipBlanks next = c :: r) (hc : c ≠ 0x5d) : nextItem first bs = .ok (.more (c :: r)) := by
  unfold Continues at h
  cases first with
  | true =>
    rw [if_pos rfl, hnext] at h
    simp only [nextItem, h, if_neg hc, if_true]
  | false =>
    rw [if_neg Bool.false_ne_true] at h
    simp only [nextItem, h, hnext, if_neg hc, if_true, show ¬((0x2c : UInt8) = 0x5d) by decide, Bool.false_eq_true,
      if_false]

theorem nextKey_continues {first : Bool} {bs next r : Bytes} (h : Continues first bs next)
    (hnext : skipBlanks next = 0x22 :: r) : nextKey first bs = .ok (.more r) := by
  unfold Continues at h
  cases first with
  | true =>
    rw [if_pos rfl, hnext] at h
    simp only [nextKey, h]
    rfl
  | false =>
    rw [if_neg Bool.false_ne_true] at h
    simp only [nextKey, h, hnext]
    rfl

/-- What the spelling of a piece says about its form. -/
def Piece.Stands : Piece → Bytes → Prop
  | .value t, w => ∀ rest, Delimited rest → Spans (.value t.form) (w ++ rest) rest
  | .element t, w => ∀ rest, Delimited rest →
      (∃ c r, skipBlanks (w ++ rest) = c :: r ∧ c ≠ 0x5d) ∧
      ∃ r, Spans (.value t.form) (w ++ rest) r ∧ skipBlanks r = skipBlanks rest
  | .elements ts, w => ∀ first bs rest, Continues first bs (w ++ 0x5d :: rest) →
      Spans (.items first (Tree.forms ts)) bs rest
  | .member k t, w => ∀ first bs rest, Delimited rest → Continues first bs (w ++ rest) →
      ∃ r₁ r₂ r₃ r, nextKey first bs = .ok (.more r₁) ∧ readToken r₁ = .ok (some k, r₂) ∧ colon r₂ = .ok r₃ ∧
        Spans (.value t.form) r₃ r ∧ skipBlanks r = skipBlanks rest
  | .members ms, w => ∀ first bs rest, Continues first bs (w ++ 0x7d :: rest) →
      Spans (.members first (Tree.memberForms ms)) bs rest

/-- **What is spelled has its form.** -/
theorem Spells.stands {p : Piece} {w : Bytes} (h : Spells p w) : p.Stands w := by
  induction h with
  | null => exact fun rest _ => spans_null_iff.2 ⟨_, rfl, word_append _ _⟩
  | bool b => exact fun rest _ => bool_spans b rest
  | number h => exact fun rest hrest => h.spans hrest
  | string h =>
    intro rest _
    obtain ⟨r, e, hr⟩ := h.read rest
    rw [e]
    exact spans_string_iff.2 ⟨r, rfl, hr⟩
  | emptyArray ha =>
    intro rest _
    rw [bracket_append]
    exact .array rfl (.noItem (ha.skip _))
  | array _ ih =>
    intro rest _
    rw [bracket_append]
    exact .array rfl (ih _ _ _ rfl)
  | emptyObject ha =>
    intro rest _
    rw [bracket_append]
    exact .object rfl (.noMember (ha.skip _))
  | object _ ih =>
    intro rest _
    rw [bracket_append]
    exact .object rfl (ih _ _ _ rfl)
  | @element t a w b ha value hb ih =>
    intro rest hrest
    have hvalue := ih _ (hb.delimited hrest)
    obtain ⟨c, r, rfl, hc, hne⟩ := value.exists_head
    have hskip : skipBlanks (a ++ (c :: r ++ b) ++ rest) = c :: r ++ (b ++ rest) := by
      rw [List.append_assoc, ha.skip, List.append_assoc]
      exact skipBlanks_cons hc _
    refine ⟨⟨c, _, hskip, hne⟩, b ++ rest, ?_, hb.skip rest⟩
    rw [← spans_skipBlanks, hskip]
    exact hvalue
  | lastElement _ ih =>
    intro first bs rest hbs
    obtain ⟨⟨c, r, hskip, hne⟩, r', hvalue, hr'⟩ := ih (0x5d :: rest) (delimited_cons (by decide))
    rw [← spans_skipBlanks, hskip] at hvalue
    exact .item (nextItem_continues hbs hskip hne) hvalue (.noItem hr')
  | elements _ _ ih ihs =>
    intro first bs rest hbs
    rw [List.append_assoc] at hbs
    obtain ⟨⟨c, r, hskip, hne⟩, r', hvalue, hr'⟩ := ih (0x2c :: _) (delimited_cons (by decide))
    rw [← spans_skipBlanks, hskip] at hvalue
    exact .item (nextItem_continues hbs hskip hne) hvalue (ihs false r' rest hr')
  | @member k t a s b w ha key hb _ ih =>
    intro first bs rest hrest hbs
    obtain ⟨r, hquote, hkey⟩ := key.read (b ++ 0x3a :: (w ++ rest))
    have hskip : skipBlanks (a ++ (s ++ (b ++ 0x3a :: w)) ++ rest) = 0x22 :: r := by
      rw [List.append_assoc, ha.skip, List.append_assoc, List.append_assoc, List.cons_append, hquote]
      exact skipBlanks_cons (by decide) r
    obtain ⟨-, r', hvalue, hr'⟩ := ih rest hrest
    exact ⟨r, _, _, r', nextKey_continues hbs hskip, hkey, hb.colon _, hvalue, hr'⟩
  | lastMember _ ih =>
    intro first bs rest hbs
    obtain ⟨r₁, r₂, r₃, r, hnext, hkey, hcolon, hvalue, hr⟩ := ih first bs _ (delimited_cons (by decide)) hbs
    exact .member hnext hkey hcolon hvalue (.noMember hr)
  | members _ _ ih ihs =>
    intro first bs rest hbs
    rw [List.append_assoc] at hbs
    obtain ⟨r₁, r₂, r₃, r, hnext, hkey, hcolon, hvalue, hr⟩ := ih first bs _ (delimited_cons (by decide)) hbs
    exact .member hnext hkey hcolon hvalue (ihs false r rest hr)

/-! ## What has a form is read -/

namespace Tree

section Sequences

variable {item : Reader Tree}

theorem itemsFrom_of_spans {ts : List Tree}
    (hitem : ∀ t ∈ ts, ∀ {bs rest}, Spans (.value t.form) bs rest → item bs = .ok (t, rest)) :
    ∀ {fuel : Nat} {first : Bool} {bs rest : Bytes}, bs.length < fuel → Spans (.items first (forms ts)) bs rest →
      itemsFrom item fuel first bs = .ok (ts, rest) := by
  induction ts with
  | nil =>
    intro fuel first bs rest hfuel h
    obtain ⟨fuel, rfl⟩ := Nat.exists_eq_succ_of_ne_zero (Nat.ne_zero_of_lt hfuel)
    cases h with
    | noItem close => exact (itemsFrom_succ ..).2 (Or.inl ⟨nextItem_close_iff.2 close, rfl⟩)
  | cons t ts ih =>
    obtain ⟨ht, hts⟩ := List.forall_mem_cons.1 hitem
    intro fuel first bs rest hfuel h
    obtain ⟨fuel, rfl⟩ := Nat.exists_eq_succ_of_ne_zero (Nat.ne_zero_of_lt hfuel)
    cases h with
    | item next value items =>
      have hlength := length_of_nextItem next
      rw [Next.length] at hlength
      have hshort := value.shorter
      exact (itemsFrom_succ ..).2 (Or.inr ⟨_, t, _, ts, next, ht value, ih hts (by omega) items, rfl⟩)

theorem membersFrom_of_spans {ms : List (String × Tree)}
    (hitem : ∀ m ∈ ms, ∀ {bs rest}, Spans (.value m.2.form) bs rest → item bs = .ok (m.2, rest)) :
    ∀ {fuel : Nat} {first : Bool} {bs rest : Bytes}, bs.length < fuel →
      Spans (.members first (memberForms ms)) bs rest → membersFrom item fuel first bs = .ok (ms, rest) := by
  induction ms with
  | nil =>
    intro fuel first bs rest hfuel h
    obtain ⟨fuel, rfl⟩ := Nat.exists_eq_succ_of_ne_zero (Nat.ne_zero_of_lt hfuel)
    cases h with
    | noMember close => exact (membersFrom_succ ..).2 (Or.inl ⟨nextKey_close_iff.2 close, rfl⟩)
  | cons m ms ih =>
    obtain ⟨k, t⟩ := m
    obtain ⟨ht, hms⟩ := List.forall_mem_cons.1 hitem
    intro fuel first bs rest hfuel h
    obtain ⟨fuel, rfl⟩ := Nat.exists_eq_succ_of_ne_zero (Nat.ne_zero_of_lt hfuel)
    rw [memberForms] at h
    cases h with
    | member next key colon value members =>
      have hnext := length_of_nextKey next
      rw [Next.length] at hnext
      have hkey := length_of_readToken key
      have hcolon := length_of_colon colon
      have hshort := value.shorter
      refine (membersFrom_succ ..).2 (Or.inr ⟨_, k, _, _, t, _, ms, next, readString_eq_ok_iff.2 key, colon, ht value,
        ih hms (by omega) members, rfl⟩)

end Sequences

theorem readScalar_of_form {c : UInt8} {r rest : Bytes} {t : Tree} (h : Form.readScalar c r = .ok (t.form, rest)) :
    readScalar c r = .ok (t, rest) := by
  have hform := Form.readScalar_cases h
  cases t with
  | null =>
    rcases hform with ⟨rfl, hw, -⟩ | ⟨-, -, h⟩ | ⟨-, -, h⟩ | ⟨_, -, -, h⟩ | ⟨_, -, -, h⟩
    · rw [readScalar, if_pos rfl, hw]
      rfl
    all_goals cases h
  | bool b =>
    rcases hform with ⟨-, -, h⟩ | ⟨rfl, hw, h⟩ | ⟨rfl, hw, h⟩ | ⟨_, -, -, h⟩ | ⟨_, -, -, h⟩ <;> cases h
    · rw [readScalar, if_neg (by decide), if_pos rfl, hw]
      rfl
    · rw [readScalar, if_neg (by decide), if_neg (by decide), if_pos rfl, hw]
      rfl
  | number n =>
    rcases hform with ⟨-, -, h⟩ | ⟨-, -, h⟩ | ⟨-, -, h⟩ | ⟨_, -, -, h⟩ | ⟨n, hc, hn, h⟩ <;> cases h
    have hne : ∀ d, startsNumber d = false → c ≠ d := fun d => ne_of_startsNumber hc
    rw [readScalar, if_neg (hne _ rfl), if_neg (hne _ rfl), if_neg (hne _ rfl), if_neg (hne _ rfl), if_pos hc,
      readNumeral_cause hn]
    rfl
  | string s =>
    rcases hform with ⟨-, -, h⟩ | ⟨-, -, h⟩ | ⟨-, -, h⟩ | ⟨_, rfl, hs, h⟩ | ⟨_, -, -, h⟩ <;> cases h
    rw [readScalar, if_neg (by decide), if_neg (by decide), if_neg (by decide), if_pos rfl,
      readString_eq_ok_iff.2 hs]
    rfl
  | array ts => rcases hform with ⟨-, -, h⟩ | ⟨-, -, h⟩ | ⟨-, -, h⟩ | ⟨_, -, -, h⟩ | ⟨_, -, -, h⟩ <;> cases h
  | object ms => rcases hform with ⟨-, -, h⟩ | ⟨-, -, h⟩ | ⟨-, -, h⟩ | ⟨_, -, -, h⟩ | ⟨_, -, -, h⟩ <;> cases h

theorem read_of_scalar {bs r : Bytes} {c : UInt8} {x : Tree × Bytes} (start : skipBlanks bs = c :: r)
    (h : readScalar c r = .ok x) (depth : Nat) : read depth bs = .ok x := by
  have harray : c ≠ 0x5b := by rintro rfl; cases h
  have hobject : c ≠ 0x7b := by rintro rfl; cases h
  cases depth <;> simp only [read, readWith, start, if_neg harray, if_neg hobject, h]

/-- **What has the form of a document is read as it**, when no more brackets are open than may be. -/
theorem read_of_spans {depth : Nat} {t : Tree} (h : t.Within depth) :
    ∀ {bs rest : Bytes}, Spans (.value t.form) bs rest → read depth bs = .ok (t, rest) := by
  induction h with
  | null =>
    rintro bs rest ⟨start, read⟩
    exact read_of_scalar start (readScalar_of_form read) _
  | bool b =>
    rintro bs rest ⟨start, read⟩
    exact read_of_scalar start (readScalar_of_form read) _
  | number n =>
    rintro bs rest ⟨start, read⟩
    exact read_of_scalar start (readScalar_of_form read) _
  | string s =>
    rintro bs rest ⟨start, read⟩
    exact read_of_scalar start (readScalar_of_form read) _
  | array _ ih =>
    intro bs rest hs
    obtain ⟨r, start, items⟩ := spans_array_iff.1 hs
    have hread := itemsFrom_of_spans (fun t ht => ih t ht) (Nat.lt_succ_self _) items
    simp only [read, readWith, start, if_true, readItems, hread]
    rfl
  | object _ ih =>
    intro bs rest hs
    obtain ⟨r, start, members⟩ := spans_object_iff.1 hs
    have hread := membersFrom_of_spans (fun m hm => ih m hm) (Nat.lt_succ_self _) members
    simp only [read, readWith, start, if_true, readMembers, hread, show ¬((0x7b : UInt8) = 0x5b) by decide, if_false]
    rfl

end Tree

/-! ## What is read is spelled -/

section Found

variable {bs rest r : Bytes}

theorem exists_blank_of_skip (h : skipBlanks bs = r) : ∃ a, Blank a ∧ bs = a ++ r := h ▸ exists_blank bs

/-- The next item comes at once after the opening bracket, and later after a comma. -/
theorem exists_of_nextItem {first : Bool} (h : nextItem first bs = .ok (.more r)) :
    ∃ a b, Blank a ∧ Blank b ∧ bs = (if first then [] else a ++ [0x2c]) ++ (b ++ r) := by
  unfold nextItem at h
  split at h
  · cases h
  next c r' start =>
  obtain ⟨a, ha, e⟩ := exists_blank_of_skip start
  split at h
  · cases h
  split at h
  · next hfirst =>
    cases h
    exact ⟨[], a, .nil, ha, by rw [e, hfirst]; rfl⟩
  next hfirst =>
  split at h
  · next hc =>
    split at h
    · cases h
    next d r'' start' =>
    obtain ⟨b, hb, e'⟩ := exists_blank_of_skip start'
    split at h
    · cases h
    · cases h
      refine ⟨a, b, ha, hb, ?_⟩
      rw [e, hc, e', if_neg hfirst, List.append_assoc]
      rfl
  · cases h

/-- The next key comes at once after the opening bracket, and later after a comma. -/
theorem exists_of_nextKey {first : Bool} (h : nextKey first bs = .ok (.more r)) :
    ∃ a b, Blank a ∧ Blank b ∧ bs = (if first then [] else a ++ [0x2c]) ++ (b ++ 0x22 :: r) := by
  have hopen : ∀ {c r'}, openKey c r' = .ok (.more r) → c = 0x22 ∧ r' = r := by
    intro c r' h
    unfold openKey at h
    split at h
    · cases h
      exact ⟨‹_›, rfl⟩
    · cases h
  unfold nextKey at h
  split at h
  · cases h
  next c r' start =>
  obtain ⟨a, ha, e⟩ := exists_blank_of_skip start
  split at h
  · cases h
  split at h
  · next hfirst =>
    obtain ⟨rfl, rfl⟩ := hopen h
    exact ⟨[], a, .nil, ha, by rw [e, hfirst]; rfl⟩
  next hfirst =>
  split at h
  · next hc =>
    split at h
    · cases h
    next d r'' start' =>
    obtain ⟨b, hb, e'⟩ := exists_blank_of_skip start'
    split at h
    · cases h
    · obtain ⟨rfl, rfl⟩ := hopen h
      refine ⟨a, b, ha, hb, ?_⟩
      rw [e, hc, e', if_neg hfirst, List.append_assoc]
      rfl
  · cases h

theorem exists_of_colon (h : colon bs = .ok rest) : ∃ a, Blank a ∧ bs = a ++ 0x3a :: rest := by
  unfold colon at h
  split at h
  · cases h
  next c r start =>
  split at h
  · next hc =>
    cases h
    exact exists_blank_of_skip (hc ▸ start)
  · cases h

theorem spells_of_readScalar {c : UInt8} {r rest : Bytes} {t : Tree} (h : Tree.readScalar c r = .ok (t, rest)) :
    ∃ w, c :: r = w ++ rest ∧ Spells (.value t) w := by
  rcases Tree.readScalar_cases h with
    ⟨rfl, hw, rfl⟩ | ⟨rfl, hw, rfl⟩ | ⟨rfl, hw, rfl⟩ | ⟨s, rfl, hs, rfl⟩ | ⟨n, -, hn, rfl⟩
  · exact ⟨_, by rw [word_eq_ok_iff.1 hw]; rfl, .null⟩
  · exact ⟨_, by rw [word_eq_ok_iff.1 hw]; rfl, .bool true⟩
  · exact ⟨_, by rw [word_eq_ok_iff.1 hw]; rfl, .bool false⟩
  · obtain ⟨w, rfl, hw⟩ := readString_spelled_iff.1 hs
    exact ⟨0x22 :: (w ++ [0x22]), (bracket_append ..).symm, .string (.mk hw)⟩
  · obtain ⟨w, e, hw⟩ := exists_numeralText hn
    exact ⟨w, e, .number hw⟩

/-- What a reader of documents reads is spelled, after white space. -/
def ReadsSpelled (item : Reader Tree) : Prop :=
  ∀ {bs t rest}, item bs = .ok (t, rest) → ∃ a w, Blank a ∧ Spells (.value t) w ∧ bs = a ++ (w ++ rest)

section Sequences

variable {item : Reader Tree} (hitem : ReadsSpelled item)
include hitem

theorem elements_of_itemsFrom (fuel : Nat) : ∀ {first : Bool} {bs rest : Bytes} {ts : List Tree},
    itemsFrom item fuel first bs = .ok (ts, rest) →
    (ts = [] ∧ ∃ a, Blank a ∧ bs = a ++ 0x5d :: rest) ∨
    ∃ a w, Blank a ∧ Spells (.elements ts) w ∧ bs = (if first then [] else a ++ [0x2c]) ++ (w ++ 0x5d :: rest) := by
  induction fuel with
  | zero => exact nofun
  | succ fuel ih =>
    intro first bs rest ts h
    rcases (itemsFrom_succ ..).1 h with ⟨hclose, rfl⟩ | ⟨r₁, t, r₂, us, hnext, ht, hus, rfl⟩
    · exact Or.inl ⟨rfl, exists_blank_of_skip (nextItem_close_iff.1 hclose)⟩
    obtain ⟨a, b, ha, hb, rfl⟩ := exists_of_nextItem hnext
    obtain ⟨b', w, hb', hw, rfl⟩ := hitem ht
    refine Or.inr ?_
    rcases ih hus with ⟨rfl, c, hc, rfl⟩ | ⟨c, v, hc, hv, rfl⟩
    · refine ⟨a, _, ha, .lastElement (.element (hb.append hb') hw hc), ?_⟩
      simp only [List.append_assoc]
    · refine ⟨a, _, ha, .elements (.element (hb.append hb') hw hc) hv, ?_⟩
      simp only [List.append_assoc, List.cons_append, Bool.false_eq_true, if_false, List.nil_append]

theorem members_of_membersFrom (fuel : Nat) : ∀ {first : Bool} {bs rest : Bytes} {ms : List (String × Tree)},
    membersFrom item fuel first bs = .ok (ms, rest) →
    (ms = [] ∧ ∃ a, Blank a ∧ bs = a ++ 0x7d :: rest) ∨
    ∃ a w, Blank a ∧ Spells (.members ms) w ∧ bs = (if first then [] else a ++ [0x2c]) ++ (w ++ 0x7d :: rest) := by
  induction fuel with
  | zero => exact nofun
  | succ fuel ih =>
    intro first bs rest ms h
    rcases (membersFrom_succ ..).1 h with ⟨hclose, rfl⟩ | ⟨r₁, k, r₂, r₃, t, r₄, ns, hnext, hk, hcolon, ht, hns, rfl⟩
    · exact Or.inl ⟨rfl, exists_blank_of_skip (nextKey_close_iff.1 hclose)⟩
    obtain ⟨a, b, ha, hb, rfl⟩ := exists_of_nextKey hnext
    obtain ⟨s, rfl, hs⟩ := readString_spelled_iff.1 hk
    obtain ⟨c, hc, rfl⟩ := exists_of_colon hcolon
    obtain ⟨b', w, hb', hw, rfl⟩ := hitem ht
    refine Or.inr ?_
    rcases ih hns with ⟨rfl, d, hd, rfl⟩ | ⟨d, v, hd, hv, rfl⟩
    · refine ⟨a, _, ha, .lastMember (.member hb (.mk hs) hc (.element hb' hw hd)), ?_⟩
      simp only [List.append_assoc, List.cons_append, List.nil_append]
    · refine ⟨a, _, ha, .members (.member hb (.mk hs) hc (.element hb' hw hd)) hv, ?_⟩
      simp only [List.append_assoc, List.cons_append, Bool.false_eq_true, if_false, List.nil_append]

theorem spells_of_readItems {r rest : Bytes} {ts : List Tree} (h : readItems item r = .ok (ts, rest)) :
    ∃ w, 0x5b :: r = w ++ rest ∧ Spells (.value (.array ts)) w := by
  rcases elements_of_itemsFrom hitem _ h with ⟨rfl, a, ha, rfl⟩ | ⟨-, w, -, hw, rfl⟩
  · exact ⟨_, (bracket_append ..).symm, .emptyArray ha⟩
  · exact ⟨_, (bracket_append ..).symm, .array hw⟩

theorem spells_of_readMembers {r rest : Bytes} {ms : List (String × Tree)} (h : readMembers item r = .ok (ms, rest)) :
    ∃ w, 0x7b :: r = w ++ rest ∧ Spells (.value (.object ms)) w := by
  rcases members_of_membersFrom hitem _ h with ⟨rfl, a, ha, rfl⟩ | ⟨-, w, -, hw, rfl⟩
  · exact ⟨_, (bracket_append ..).symm, .emptyObject ha⟩
  · exact ⟨_, (bracket_append ..).symm, .object hw⟩

end Sequences

/-- **What is read is spelled**, after white space. -/
theorem spells_of_read (depth : Nat) : ReadsSpelled (Tree.read depth) := by
  have behind : ∀ {bs r rest : Bytes} {c : UInt8} {t : Tree}, skipBlanks bs = c :: r →
      (∃ w, c :: r = w ++ rest ∧ Spells (.value t) w) →
      ∃ a w, Blank a ∧ Spells (.value t) w ∧ bs = a ++ (w ++ rest) := by
    rintro bs r rest c t start ⟨w, e, hw⟩
    obtain ⟨a, ha, rfl⟩ := exists_blank_of_skip start
    exact ⟨a, w, ha, hw, by rw [e]⟩
  induction depth with
  | zero =>
    intro bs t rest h
    rcases Tree.readWith_cases h with ⟨c, r, start, hs⟩ | ⟨item, r, hi, -⟩
    · exact behind start (spells_of_readScalar hs)
    · cases hi
  | succ depth ih =>
    intro bs t rest h
    rcases Tree.readWith_cases h with ⟨c, r, start, hs⟩ | ⟨item, r, hi, ⟨start, ts, hts, rfl⟩ | ⟨start, ms, hms, rfl⟩⟩
    · exact behind start (spells_of_readScalar hs)
    · cases hi
      exact behind start (spells_of_readItems ih hts)
    · cases hi
      exact behind start (spells_of_readMembers ih hms)

end Found

/-! ## Texts -/

namespace Tree

variable {t t' : Tree} {text : Bytes}

theorem text_of_document (h : t.Document text) : t.form.Text text := by
  obtain ⟨-, r, hspans, hr⟩ := h.stands [] nofun
  rw [List.append_nil] at hspans
  exact ⟨r, hspans, hr⟩

mutual

/-- The form of a document tells all about it. -/
theorem form_injective : ∀ {t t' : Tree}, t.form = t'.form → t = t'
  | .null, t', h => by cases t' <;> simp_all [form]
  | .bool b, t', h => by cases t' <;> simp_all [form]
  | .number n, t', h => by cases t' <;> simp_all [form]
  | .string s, t', h => by cases t' <;> simp_all [form]
  | .array ts, t', h => by
    cases t' with
    | array ts' =>
      rw [form, form, Form.array.injEq] at h
      rw [forms_injective h]
    | _ => simp [form] at h
  | .object ms, t', h => by
    cases t' with
    | object ms' =>
      rw [form, form, Form.object.injEq] at h
      rw [memberForms_injective h]
    | _ => simp [form] at h

theorem forms_injective : ∀ {ts ts' : List Tree}, forms ts = forms ts' → ts = ts'
  | [], [], _ => rfl
  | [], _ :: _, h => by simp [forms] at h
  | _ :: _, [], h => by simp [forms] at h
  | t :: ts, t' :: ts', h => by
    rw [forms, forms, List.cons.injEq] at h
    rw [form_injective h.1, forms_injective h.2]

theorem memberForms_injective : ∀ {ms ms' : List (String × Tree)}, memberForms ms = memberForms ms' → ms = ms'
  | [], [], _ => rfl
  | [], _ :: _, h => by simp [memberForms] at h
  | _ :: _, [], h => by simp [memberForms] at h
  | (k, t) :: ms, (k', t') :: ms', h => by
    rw [memberForms, memberForms, List.cons.injEq, Prod.mk.injEq, Option.some.injEq] at h
    rw [h.1.1, form_injective h.1.2, memberForms_injective h.2]

end

/-- A text is one document at most. -/
theorem document_unique (h : t.Document text) (h' : t'.Document text) : t' = t :=
  form_injective ((text_of_document h).unique (text_of_document h'))

/-- **Texts are read by the grammar**: a text is read as a document exactly when it is that document, and no more
brackets are open at a time than may be. -/
theorem parse_eq_ok_iff : parse text = .ok t ↔ t.Document text ∧ t.Within maxDepth := by
  constructor
  · intro h
    obtain ⟨rest, hread, hend⟩ := decode_eq_ok_iff.1 h
    obtain ⟨a, w, ha, hw, rfl⟩ := spells_of_read _ hread
    obtain ⟨b, hb, e⟩ := exists_blank_of_skip hend
    rw [List.append_nil] at e
    exact ⟨.element ha hw (e ▸ hb), parse_within h⟩
  · rintro ⟨hdocument, hwithin⟩
    obtain ⟨r, hspans, hr⟩ := text_of_document hdocument
    exact decode_eq_ok_iff.2 ⟨r, read_of_spans hwithin hspans, hr⟩

end Tree

end RegistryPublisher.Json
