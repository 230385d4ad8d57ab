import RegistryPublisher.Proofs.Json.Form

/-!
# The forms of documents that are read

- `Tree.form` is the form of a document, in which every string denotes its text;
- `Tree.text_of_parse`: a text that is read as a document has this form.
-/

namespace RegistryPublisher.Json

/-! ## Numerals -/

section Numerals

variable {c c' : Cause} {bs rest : Bytes}

theorem wholePart_cause {ds : List Nat} (h : wholePart c bs = .ok (ds, rest)) : wholePart c' bs = .ok (ds, rest) := by
  cases bs with
  | nil => cases h
  | cons b r => exact h

theorem fractionPart_cause {ds : Option (List Nat)} (h : fractionPart c bs = .ok (ds, rest)) :
    fractionPart c' bs = .ok (ds, rest) := by
  cases bs with
  | nil => exact h
  | cons b r =>
    rw [fractionPart.eq_def] at h ⊢
    simp only at h ⊢
    split at h
    · next hb =>
      rw [if_pos hb]
      cases r with
      | nil => cases h
      | cons d r => exact h
    · next hb =>
      rw [if_neg hb]
      exact h

theorem exponentPart_cause {e : Option (Bool × List Nat)} (h : exponentPart c bs = .ok (e, rest)) :
    exponentPart c' bs = .ok (e, rest) := by
  cases bs with
  | nil => exact h
  | cons b r =>
    rw [exponentPart.eq_def] at h ⊢
    simp only at h ⊢
    split at h
    · next hb =>
      rw [if_pos hb]
      generalize exponentSign r = signed at h ⊢
      obtain ⟨negative, r₁⟩ := signed
      cases r₁ with
      | nil => cases h
      | cons d r => exact h
    · next hb =>
      rw [if_neg hb]
      exact h

/-- Where a text may not end, a numeral is the same. -/
theorem readNumeral_cause {n : Numeral} (h : readNumeral c bs = .ok (n, rest)) : readNumeral c' bs = .ok (n, rest) := by
  unfold readNumeral at h ⊢
  split at h
  next negative bs' _ =>
  obtain ⟨⟨w, r₁⟩, hw, h⟩ := bind_eq_ok_iff.1 h
  obtain ⟨⟨f, r₂⟩, hf, h⟩ := bind_eq_ok_iff.1 h
  obtain ⟨⟨e, r₃⟩, he, h⟩ := bind_eq_ok_iff.1 h
  refine bind_eq_ok_iff.2 ⟨_, wholePart_cause hw, bind_eq_ok_iff.2 ⟨_, fractionPart_cause hf, ?_⟩⟩
  exact bind_eq_ok_iff.2 ⟨_, exponentPart_cause he, h⟩

end Numerals

/-! ## Documents -/

namespace Tree

mutual

/-- The form of a document. -/
def form : Tree → Form
  | null => .null
  | bool b => .bool b
  | number n => .number n
  | string s => .string (some s)
  | array ts => .array (forms ts)
  | object ms => .object (memberForms ms)

/-- The forms of the items of an array. -/
def forms : List Tree → List Form
  | [] => []
  | t :: ts => form t :: forms ts

/-- The forms of members. -/
def memberForms : List (String × Tree) → List (Option String × Form)
  | [] => []
  | (k, t) :: ms => (some k, form t) :: memberForms ms

end

theorem readScalar_form {c : UInt8} {r rest : Bytes} {t : Tree} (h : readScalar c r = .ok (t, rest)) :
    Form.readScalar c r = .ok (t.form, rest) := by
  rcases readScalar_cases h with ⟨rfl, hw, rfl⟩ | ⟨rfl, hw, rfl⟩ | ⟨rfl, hw, rfl⟩ | ⟨s, rfl, hs, rfl⟩ | ⟨n, hc, hn, rfl⟩
  · rw [Form.readScalar, if_pos rfl, hw]
    rfl
  · rw [Form.readScalar, if_neg (by decide), if_pos rfl, hw]
    rfl
  · rw [Form.readScalar, if_neg (by decide), if_neg (by decide), if_pos rfl, hw]
    rfl
  · rw [Form.readScalar, if_neg (by decide), if_neg (by decide), if_neg (by decide), if_pos rfl,
      readString_eq_ok_iff.1 hs]
    rfl
  · have hne : ∀ b, startsNumber b = false → c ≠ b := by
      rintro b hb rfl
      exact absurd (hc.symm.trans hb) (by decide)
    rw [Form.readScalar, if_neg (hne _ rfl), if_neg (hne _ rfl), if_neg (hne _ rfl), if_neg (hne _ rfl), if_pos hc,
      readNumeral_cause hn]
    rfl

variable {item : Reader Tree} (hitem : ∀ {bs t rest}, item bs = .ok (t, rest) → Spans (.value t.form) bs rest)
include hitem

theorem spans_of_itemsFrom (fuel : Nat) : ∀ {first bs ts rest}, itemsFrom item fuel first bs = .ok (ts, rest) →
    Spans (.items first (forms ts)) bs rest := by
  induction fuel with
  | zero => exact nofun
  | succ fuel ih =>
    intro first bs ts rest h
    rcases (itemsFrom_succ ..).1 h with ⟨hn, rfl⟩ | ⟨r₁, v, r₂, ws, hn, hv, hws, rfl⟩
    · rw [forms]
      exact .noItem (nextItem_close_iff.1 hn)
    · rw [forms]
      exact .item hn (hitem hv) (ih hws)

theorem spans_of_membersFrom (fuel : Nat) : ∀ {first bs ms rest}, membersFrom item fuel first bs = .ok (ms, rest) →
    Spans (.members first (memberForms ms)) bs rest := by
  induction fuel with
  | zero => exact nofun
  | succ fuel ih =>
    intro first bs ms rest h
    rcases (membersFrom_succ ..).1 h with ⟨hn, rfl⟩ | ⟨r₁, k, r₂, r₃, v, r₄, ws, hn, hk, hc, hv, hws, rfl⟩
    · rw [memberForms]
      exact .noMember (nextKey_close_iff.1 hn)
    · rw [memberForms]
      exact .member hn (readString_eq_ok_iff.1 hk) hc (hitem hv) (ih hws)

omit hitem in
theorem spans_of_read (depth : Nat) : ∀ {bs t rest}, read depth bs = .ok (t, rest) → Spans (.value t.form) bs rest := by
  induction depth with
  | zero =>
    intro bs t rest h
    rcases readWith_cases h with ⟨c, r, start, hs⟩ | ⟨item, r, hi, -⟩
    · exact .scalar start (readScalar_form hs)
    · cases hi
  | succ depth ih =>
    intro bs t rest h
    rcases readWith_cases h with ⟨c, r, start, hs⟩ | ⟨item, r, hi, ⟨start, ts, hts, rfl⟩ | ⟨start, ms, hms, rfl⟩⟩
    · exact .scalar start (readScalar_form hs)
    · cases hi
      rw [form]
      exact .array start (spans_of_itemsFrom ih _ hts)
    · cases hi
      rw [form]
      exact .object start (spans_of_membersFrom ih _ hms)

omit hitem in
/-- A text that is read as a document has the form of the document. -/
theorem text_of_parse {text : Bytes} {t : Tree} (h : parse text = .ok t) : t.form.Text text := by
  obtain ⟨rest, hread, hend⟩ := decode_eq_ok_iff.1 h
  exact ⟨rest, spans_of_read _ hread, hend⟩

end Tree

end RegistryPublisher.Json
