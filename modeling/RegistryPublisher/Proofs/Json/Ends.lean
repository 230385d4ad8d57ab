import RegistryPublisher.Proofs.Json.Rendering

/-!
# Where readers stop in what was written

- `afterNumeral`: the bytes after everything that may stand in a number; a numeral is not read further than that
  (`readNumeral_after`);
- `EndsAfter`: a reader that accepts the rendering of a value stops after it, or inside a number that it ends with;
- `read_endsAfter`: so do readers of documents, whatever the value is and however deep;
- `keys_of_parse_render`: so a written object is read with the keys it was written with, or not at all.
-/

namespace RegistryPublisher

/-! ## Bytes of numbers -/

namespace Json

/-- A byte that may stand in a number. -/
def inNumeral (b : UInt8) : Bool := isDigit b || b == 0x2d || b == 0x2b || b == 0x2e || b == 0x65 || b == 0x45

/-- The bytes that are left after those that may stand in a number. -/
def afterNumeral (bs : Bytes) : Bytes := bs.dropWhile inNumeral

theorem inNumeral_of_isDigit {b : UInt8} (h : isDigit b = true) : inNumeral b = true := by simp [inNumeral, h]

theorem ne_of_inNumeral {b c : UInt8} (h : inNumeral b = true) (hc : inNumeral c = false) : b ≠ c := by
  rintro rfl
  exact absurd (h.symm.trans hc) (by decide)

theorem not_isSpace_of_inNumeral {b : UInt8} (h : inNumeral b = true) : isSpace b = false := by
  have hne : ∀ c, inNumeral c = false → b ≠ c := fun c => ne_of_inNumeral h
  simp [isSpace, hne 0x20 rfl, hne 0x0a rfl, hne 0x09 rfl, hne 0x0d rfl]

theorem afterNumeral_cons {b : UInt8} (h : inNumeral b = true) (r : Bytes) :
    afterNumeral (b :: r) = afterNumeral r := by
  rw [afterNumeral, List.dropWhile_cons, if_pos h]
  rfl

theorem afterNumeral_stays {b : UInt8} (h : inNumeral b = false) (r : Bytes) : afterNumeral (b :: r) = b :: r := by
  rw [afterNumeral, List.dropWhile_cons, h]
  rfl

theorem afterNumeral_append {w : Bytes} (h : ∀ b ∈ w, inNumeral b = true) (rest : Bytes) :
    afterNumeral (w ++ rest) = afterNumeral rest :=
  List.dropWhile_append_of_pos h

theorem afterNumeral_digits (bs : Bytes) : afterNumeral (bs.dropWhile isDigit) = afterNumeral bs := by
  induction bs with
  | nil => rfl
  | cons b r ih =>
    rw [List.dropWhile_cons]
    split
    · next h => rw [ih, afterNumeral_cons (inNumeral_of_isDigit h)]
    · rfl

theorem delimited_of_afterNumeral {rest : Bytes} (h : afterNumeral rest = rest) : Delimited rest := by
  rintro b r rfl
  cases hb : inNumeral b with
  | true =>
    have hle := (List.dropWhile_sublist inNumeral (l := r)).length_le
    rw [afterNumeral_cons hb] at h
    rw [← afterNumeral, h, List.length_cons] at hle
    omega
  | false =>
    simp only [inNumeral, Bool.or_eq_false_iff, beq_eq_false_iff_ne] at hb
    exact ⟨hb.1.1.1.1.1, hb.1.1.2, hb.1.2, hb.2⟩

section Parts

variable {atEnd : Cause} {bs rest : Bytes}

theorem wholePart_after {ds : List Nat} (h : wholePart atEnd bs = .ok (ds, rest)) :
    afterNumeral rest = afterNumeral bs := by
  unfold wholePart at h
  split at h
  · cases h
  next c r =>
  split at h
  · next hc =>
    have hz : inNumeral c = true := by rw [hc]; rfl
    split at h
    · split at h
      · cases h
      · cases h
        exact (afterNumeral_cons hz _).symm
    · cases h
      exact (afterNumeral_cons hz _).symm
  split at h
  · cases h
    exact afterNumeral_digits _
  · cases h

theorem fractionPart_after {ds : Option (List Nat)} (h : fractionPart atEnd bs = .ok (ds, rest)) :
    afterNumeral rest = afterNumeral bs := by
  unfold fractionPart at h
  split at h
  · cases h
    rfl
  next c r =>
  split at h
  · next hc =>
    have hp : inNumeral c = true := by rw [hc]; rfl
    split at h
    · cases h
    split at h
    · cases h
      exact (afterNumeral_digits _).trans (afterNumeral_cons hp _).symm
    · cases h
  · cases h
    rfl

theorem exponentSign_after (bs : Bytes) : afterNumeral (exponentSign bs).2 = afterNumeral bs := by
  unfold exponentSign
  split
  · rfl
  next c r =>
  split
  · next hc => exact (afterNumeral_cons (by rw [hc]; rfl) r).symm
  split
  · next hc => exact (afterNumeral_cons (by rw [hc]; rfl) r).symm
  · rfl

theorem exponentPart_after {e : Option (Bool × List Nat)} (h : exponentPart atEnd bs = .ok (e, rest)) :
    afterNumeral rest = afterNumeral bs := by
  unfold exponentPart at h
  split at h
  · cases h
    rfl
  next c r =>
  split at h
  · next hc =>
    have he : inNumeral c = true := by
      simp only [Bool.or_eq_true, decide_eq_true_eq] at hc
      rcases hc with rfl | rfl <;> rfl
    have hs := exponentSign_after r
    generalize exponentSign r = signed at h hs
    obtain ⟨negative, r₁⟩ := signed
    cases r₁ with
    | nil => cases h
    | cons d r₂ =>
      simp only at h
      split at h
      · cases h
        exact ((afterNumeral_digits _).trans hs).trans (afterNumeral_cons he r).symm
      · cases h
  · cases h
    rfl

theorem readParts_after {negative : Bool} {n : Numeral} (h : (do
      let (whole, bs) ← wholePart atEnd bs
      let (fraction, bs) ← fractionPart atEnd bs
      let (exponent, bs) ← exponentPart atEnd bs
      return ((⟨negative, whole, fraction, exponent⟩ : Numeral), bs) : Except Fault (Numeral × Bytes)) =
      .ok (n, rest)) : afterNumeral rest = afterNumeral bs := by
  obtain ⟨⟨w, r₁⟩, hw, h⟩ := bind_eq_ok_iff.1 h
  obtain ⟨⟨f, r₂⟩, hf, h⟩ := bind_eq_ok_iff.1 h
  obtain ⟨⟨e, r₃⟩, he, h⟩ := bind_eq_ok_iff.1 h
  cases h
  rw [exponentPart_after he, fractionPart_after hf, wholePart_after hw]

/-- A numeral takes nothing but bytes that may stand in a number. -/
theorem readNumeral_after {n : Numeral} (h : readNumeral atEnd bs = .ok (n, rest)) :
    afterNumeral rest = afterNumeral bs := by
  unfold readNumeral at h
  split at h
  next negative bs' e =>
  have := readParts_after h
  split at e
  · cases e
    exact this.trans (afterNumeral_cons rfl _).symm
  · cases e
    exact this

end Parts

/-- All bytes of the text may stand in a number. -/
def Numeric (s : String) : Prop := (Utf8.encode s).all inNumeral = true

instance (s : String) : Decidable (Numeric s) := inferInstanceAs (Decidable (_ = true))

theorem Numeric.append {s t : String} (hs : Numeric s) (ht : Numeric t) : Numeric (s ++ t) := by
  rw [Numeric, Utf8.encode, String.toList_append, List.flatMap_append, List.all_append, Bool.and_eq_true]
  exact ⟨hs, ht⟩

end Json

/-! ## Written numbers -/

namespace Decimal

open Json (Numeric)

theorem numeric_text {ds : List Nat} (h : ∀ d ∈ ds, d < 10) : Numeric (text ds) := by
  have hdigit : ∀ d : Fin 10, (String.utf8EncodeChar (Char.ofNat (0x30 + d))).all Json.inNumeral = true := by decide
  rw [Numeric, Utf8.encode, text, String.toList_ofList, List.all_flatMap, List.all_map, List.all_eq_true]
  exact fun d hd => hdigit ⟨d, h d hd⟩

theorem significant_lt (x : Decimal) : ∀ d ∈ x.significant, d < 10 := by
  intro d hd
  have hd := List.dropWhile_subset _ (List.mem_reverse.1 hd)
  exact Number.digits_lt _ d (List.mem_reverse.1 hd)

theorem pointAfter_lt {ds : List Nat} (h : ∀ d ∈ ds, d < 10) (n : Int) :
    (∀ d ∈ (pointAfter ds n).1, d < 10) ∧ ∀ d ∈ (pointAfter ds n).2, d < 10 := by
  have hzeros : ∀ k, ∀ d ∈ List.replicate k 0, d < 10 := by
    intro k d hd
    rw [List.eq_of_mem_replicate hd]
    decide
  unfold pointAfter
  split
  · refine ⟨by simp, fun d hd => ?_⟩
    exact (List.mem_append.1 hd).elim (hzeros _ d) (h d)
  · refine ⟨fun d hd => ?_, fun d hd => h d (List.mem_of_mem_drop hd)⟩
    exact (List.mem_append.1 hd).elim (fun hd => h d (List.mem_of_mem_take hd)) (hzeros _ d)

theorem numeric_scientific (x : Decimal) : Numeric x.scientific := by
  have hds := x.significant_lt
  unfold scientific
  refine ((Numeric.append (Numeric.append ?_ (by decide)) ?_).append (numeric_text (Number.digits_lt _)))
  · split
    · decide
    · next a e => exact numeric_text (e ▸ hds)
    · next a r _ e =>
      rw [e] at hds
      obtain ⟨ha, hr⟩ := List.forall_mem_cons.1 hds
      exact ((numeric_text (by simpa using ha)).append (by decide)).append (numeric_text hr)
  · split <;> decide

theorem numeric_written (x : Decimal) : Numeric x.written := by
  unfold written
  split
  · decide
  split
  · have h := pointAfter_lt x.significant_lt (x.leading + 1)
    refine ((numeric_text h.1).append (by decide)).append ?_
    split
    · decide
    · exact numeric_text h.2
  · exact x.numeric_scientific

theorem written_ne_empty (x : Decimal) : x.written ≠ "" := by
  unfold written scientific
  split
  · decide
  split
  · simp
  · simp

end Decimal

theorem Binary64.numeric_written (x : Binary64) : Json.Numeric x.written := by
  refine Json.Numeric.append ?_ x.magnitude.shortest.numeric_written
  split <;> decide

/-- Numbers are written with bytes that may stand in a number, and with one at least. -/
theorem Number.exists_render (n : Number) :
    ∃ c w, n.render = c :: w ∧ Json.inNumeral c = true ∧ ∀ b ∈ n.render, Json.inNumeral b = true := by
  have hdecimal : ∀ n, ∀ b ∈ decimal n, Json.inNumeral b = true := fun n b hb =>
    Json.inNumeral_of_isDigit (isDigit_of_mem_decimal n b hb)
  match n with
  | .integer (.ofNat n) =>
    obtain ⟨c, w, e, hc⟩ := Json.startsNumber_decimal n
    exact ⟨c, w, e, Json.inNumeral_of_isDigit hc, hdecimal n⟩
  | .integer (.negSucc n) => exact ⟨_, _, rfl, rfl, List.forall_mem_cons.2 ⟨rfl, hdecimal (n + 1)⟩⟩
  | .float x =>
    have hne : Utf8.encode x.written ≠ [] := by
      intro h
      have h : x.written = "" := Utf8.encode_injective h
      exact x.magnitude.shortest.written_ne_empty (String.append_eq_empty_iff.1 h).2
    obtain ⟨c, w, e⟩ := List.exists_cons_of_ne_nil hne
    have hall : ∀ b ∈ Utf8.encode x.written, Json.inNumeral b = true := List.all_eq_true.1 x.numeric_written
    exact ⟨c, w, e, hall c (e ▸ List.mem_cons_self ..), hall⟩

namespace Json

/-! ## Values -/

/-- Before bytes that begin no number, a reader that accepts the rendering of `v` stops after it, or inside a number. -/
def EndsAfter (item : Reader Tree) (v : Json) : Prop :=
  ∀ {rest r : Bytes} {t : Tree}, afterNumeral rest = rest → item (v.render ++ rest) = .ok (t, r) → afterNumeral r = rest

/-- A rendering is not taken for a blank or the end of an array. -/
theorem render_head (v : Json) : ∃ c r, v.render = c :: r ∧ isSpace c = false ∧ c ≠ 0x5d := by
  cases v with
  | null => exact ⟨0x6e, _, rfl, by decide⟩
  | bool b => cases b <;> exact ⟨_, _, rfl, by decide⟩
  | number n =>
    obtain ⟨c, w, e, hc, -⟩ := n.exists_render
    exact ⟨c, w, e, not_isSpace_of_inNumeral hc, ne_of_inNumeral hc rfl⟩
  | string s => exact ⟨0x22, _, rfl, by decide⟩
  | array vs => exact ⟨0x5b, _, rfl, by decide⟩
  | object ms => exact ⟨0x7b, _, rfl, by decide⟩

theorem Spelled.endsAfter {item : Reader Tree} {v : Json} {t : Tree} (h : Spelled item v t) : EndsAfter item v := by
  intro rest r t' hrest hr
  cases (h.reads rest (delimited_of_afterNumeral hrest)).symm.trans hr
  exact hrest

theorem number_endsAfter (n : Number) (depth : Nat) : EndsAfter (Tree.read depth) (.number n) := by
  intro rest r t hrest h
  obtain ⟨c, w, e, hc, hall⟩ := n.exists_render
  have hne : ∀ d, inNumeral d = false → c ≠ d := fun d => ne_of_inNumeral hc
  have hbs : n.render ++ rest = c :: (w ++ rest) := by rw [e]; rfl
  rw [render, hbs, Tree.read_scalar depth ⟨not_isSpace_of_inNumeral hc, hne _ rfl, hne _ rfl⟩] at h
  rcases Tree.readScalar_cases h with ⟨e, -⟩ | ⟨e, -⟩ | ⟨e, -⟩ | ⟨s, e, -⟩ | ⟨m, -, hm, -⟩
  · exact absurd e (hne _ rfl)
  · exact absurd e (hne _ rfl)
  · exact absurd e (hne _ rfl)
  · exact absurd e (hne _ rfl)
  · rw [readNumeral_after hm, ← hbs, afterNumeral_append hall, hrest]

/-! ## Between brackets -/

/-- Nothing that may follow in an array begins like the rest of a number. -/
theorem afterNumeral_of_nextItem {r : Bytes} {next : Next} (h : nextItem false r = .ok next) : afterNumeral r = r := by
  cases r with
  | nil => rfl
  | cons b r =>
    cases hb : inNumeral b with
    | false => exact afterNumeral_stays hb r
    | true =>
      have hne : ∀ c, inNumeral c = false → b ≠ c := fun c => ne_of_inNumeral hb
      simp only [nextItem, skipBlanks_cons (not_isSpace_of_inNumeral hb), if_neg (hne 0x5d rfl),
        if_neg (hne 0x2c rfl), Bool.false_eq_true, if_false] at h
      cases h

theorem afterNumeral_of_nextKey {r : Bytes} {next : Next} (h : nextKey false r = .ok next) : afterNumeral r = r := by
  cases r with
  | nil => rfl
  | cons b r =>
    cases hb : inNumeral b with
    | false => exact afterNumeral_stays hb r
    | true =>
      have hne : ∀ c, inNumeral c = false → b ≠ c := fun c => ne_of_inNumeral hb
      simp only [nextKey, skipBlanks_cons (not_isSpace_of_inNumeral hb), if_neg (hne 0x7d rfl),
        if_neg (hne 0x2c rfl), Bool.false_eq_true, if_false] at h
      cases h

theorem afterNumeral_sequel (bs : List Bytes) {c : UInt8} (h : c = 0x5d ∨ c = 0x7d) (rest : Bytes) :
    afterNumeral (sequel false bs ++ c :: rest) = sequel false bs ++ c :: rest := by
  cases bs with
  | nil => rcases h with rfl | rfl <;> exact afterNumeral_stays rfl rest
  | cons b bs => exact afterNumeral_stays rfl _

section Sequences

variable {item : Reader Tree}

theorem afterNumeral_of_itemsFrom {fuel : Nat} {r r' : Bytes} {ts : List Tree}
    (h : itemsFrom item fuel false r = .ok (ts, r')) : afterNumeral r = r := by
  cases fuel with
  | zero => cases h
  | succ fuel =>
    rcases (itemsFrom_succ ..).1 h with ⟨hn, -⟩ | ⟨_, _, _, _, hn, -⟩ <;> exact afterNumeral_of_nextItem hn

theorem afterNumeral_of_membersFrom {fuel : Nat} {r r' : Bytes} {ts : List (String × Tree)}
    (h : membersFrom item fuel false r = .ok (ts, r')) : afterNumeral r = r := by
  cases fuel with
  | zero => cases h
  | succ fuel =>
    rcases (membersFrom_succ ..).1 h with ⟨hn, -⟩ | ⟨_, _, _, _, _, _, _, hn, -⟩ <;> exact afterNumeral_of_nextKey hn

variable (h : ∀ v, EndsAfter item v)
include h

/-- Written items are read to the closing bracket, or not at all. -/
theorem itemsFrom_ends (vs : List Json) : ∀ {first : Bool} {fuel : Nat} {rest r : Bytes} {ts : List Tree},
    itemsFrom item fuel first (sequel first (renderItems vs) ++ 0x5d :: rest) = .ok (ts, r) → r = rest := by
  induction vs with
  | nil =>
    intro first fuel rest r ts hr
    cases fuel with
    | zero => cases hr
    | succ fuel =>
      rcases (itemsFrom_succ ..).1 hr with ⟨hn, -⟩ | ⟨r₁, t, r₂, us, hn, -⟩
      · cases hn
        rfl
      · cases hn
  | cons v vs ih =>
    intro first fuel rest r ts hr
    have hn := nextItem_written (render_head v) first (renderItems vs) rest
    cases fuel with
    | zero => cases hr
    | succ fuel =>
      rcases (itemsFrom_succ ..).1 hr with ⟨hn', -⟩ | ⟨r₁, t, r₂, us, hn', hv, hus, -⟩
      · cases hn.symm.trans hn'
      · cases hn.symm.trans hn'
        have hend := h v (afterNumeral_sequel (renderItems vs) (Or.inl rfl) rest) hv
        rw [afterNumeral_of_itemsFrom hus] at hend
        exact ih (hend ▸ hus)

/-- Written members are read to the closing bracket and with their keys, or not at all. -/
theorem membersFrom_ends (ms : List (String × Json)) : ∀ {first : Bool} {fuel : Nat} {rest r : Bytes}
    {ts : List (String × Tree)},
    membersFrom item fuel first (sequel first (renderMembers ms) ++ 0x7d :: rest) = .ok (ts, r) →
      r = rest ∧ ts.map Prod.fst = ms.map Prod.fst := by
  induction ms with
  | nil =>
    intro first fuel rest r ts hr
    cases fuel with
    | zero => cases hr
    | succ fuel =>
      rcases (membersFrom_succ ..).1 hr with ⟨hn, rfl⟩ | ⟨r₁, k, r₂, r₃, t, r₄, us, hn, -⟩
      · cases hn
        exact ⟨rfl, rfl⟩
      · cases hn
  | cons m ms ih =>
    intro first fuel rest r ts hr
    obtain ⟨k, v⟩ := m
    have hn := nextKey_written k v.render first (renderMembers ms) rest
    cases fuel with
    | zero => cases hr
    | succ fuel =>
      rcases (membersFrom_succ ..).1 hr with ⟨hn', -⟩ | ⟨r₁, k', r₂, r₃, t, r₄, us, hn', hk, hc, hv, hus, rfl⟩
      · cases hn.symm.trans hn'
      · cases hn.symm.trans hn'
        cases (readString_rendered ..).symm.trans hk
        cases hc
        have hend := h v (afterNumeral_sequel (renderMembers ms) (Or.inr rfl) rest) hv
        rw [afterNumeral_of_membersFrom hus] at hend
        obtain ⟨hr, hks⟩ := ih (hend ▸ hus)
        exact ⟨hr, congrArg (k :: ·) hks⟩

theorem readItems_ends {vs : List Json} {rest r : Bytes} {ts : List Tree}
    (hr : readItems item (separated (renderItems vs) ++ 0x5d :: rest) = .ok (ts, r)) : r = rest := by
  rw [separated_eq_sequel] at hr
  exact itemsFrom_ends h vs hr

theorem readMembers_ends {ms : List (String × Json)} {rest r : Bytes} {ts : List (String × Tree)}
    (hr : readMembers item (separated (renderMembers ms) ++ 0x7d :: rest) = .ok (ts, r)) :
    r = rest ∧ ts.map Prod.fst = ms.map Prod.fst := by
  rw [separated_eq_sequel] at hr
  exact membersFrom_ends h ms hr

end Sequences

section Brackets

variable {depth : Nat} (ih : ∀ inner, depth = inner + 1 → ∀ v, EndsAfter (Tree.read inner) v)
include ih

theorem array_endsAfter (vs : List Json) : EndsAfter (Tree.read depth) (.array vs) := by
  intro rest r t hrest h
  have e : render (.array vs) ++ rest = 0x5b :: (separated (renderItems vs) ++ 0x5d :: rest) := by simp [render]
  rw [e] at h
  cases depth with
  | zero => cases h
  | succ inner =>
    obtain ⟨⟨ts, r'⟩, hts, h⟩ := bind_eq_ok_iff.1 h
    cases h
    rw [readItems_ends (ih inner rfl) hts, hrest]

theorem object_endsAfter (ms : List (String × Json)) : EndsAfter (Tree.read depth) (.object ms) := by
  intro rest r t hrest h
  have e : render (.object ms) ++ rest = 0x7b :: (separated (renderMembers ms) ++ 0x7d :: rest) := by simp [render]
  rw [e] at h
  cases depth with
  | zero => cases h
  | succ inner =>
    obtain ⟨⟨ts, r'⟩, hts, h⟩ := bind_eq_ok_iff.1 h
    cases h
    rw [(readMembers_ends (ih inner rfl) hts).1, hrest]

end Brackets

theorem endsAfter_of_inner {depth : Nat} (ih : ∀ inner, depth = inner + 1 → ∀ v, EndsAfter (Tree.read inner) v)
    (v : Json) : EndsAfter (Tree.read depth) v := by
  cases v with
  | null => exact (null_spelled depth).endsAfter
  | bool b => exact (bool_spelled b depth).endsAfter
  | number n => exact number_endsAfter n depth
  | string s => exact (string_spelled s depth).endsAfter
  | array vs => exact array_endsAfter ih vs
  | object ms => exact object_endsAfter ih ms

/-- Whatever value is written, and however deep. -/
theorem read_endsAfter (depth : Nat) : ∀ v, EndsAfter (Tree.read depth) v := by
  induction depth with
  | zero => exact endsAfter_of_inner nofun
  | succ depth ih => exact endsAfter_of_inner fun inner e => Nat.succ.inj e ▸ ih

/-- A written object is a document with the keys it was written with, if it is a document at all. -/
theorem keys_of_parse_render {ms : List (String × Json)} {t : Tree} (h : Tree.parse (render (.object ms)) = .ok t) :
    ∃ ts, t = .object ts ∧ ts.map Prod.fst = ms.map Prod.fst := by
  obtain ⟨r, h, -⟩ := decode_eq_ok_iff.1 h
  obtain ⟨⟨ts, r'⟩, hts, h⟩ := bind_eq_ok_iff.1 h
  cases h
  exact ⟨ts, rfl, (readMembers_ends (read_endsAfter _) hts).2⟩

end Json

end RegistryPublisher
