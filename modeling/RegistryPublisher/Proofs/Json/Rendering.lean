import RegistryPublisher.Proofs.Json.Leaves

/-!
# Written values

- `Reads`: a reader takes a text for a value, whatever stands behind the text; so are items between brackets read
  (`readItems_written`);
- `Spelled`: a reader takes the rendering of a value for a document that denotes the value;
- `Plain.spelled`: every plain and sorted value is spelled by its rendering;
- `members_spelled`: so are the members of any object, in whatever order they stand;
- `Tree.KeysIncrease`: the keys of every object increase as byte strings, which renderings satisfy.
-/

namespace RegistryPublisher.Json

/-- The keys of every object increase strictly by their UTF-8 bytes. -/
inductive Tree.KeysIncrease : Tree → Prop
  | null : KeysIncrease null
  | bool (b : Bool) : KeysIncrease (bool b)
  | number (n : Numeral) : KeysIncrease (number n)
  | string (s : String) : KeysIncrease (string s)
  | array {ts : List Tree} (h : ∀ t ∈ ts, KeysIncrease t) : KeysIncrease (array ts)
  | object {ms : List (String × Tree)} (keys : (ms.map Prod.fst).Pairwise fun a b => Utf8.encode a < Utf8.encode b)
      (h : ∀ m ∈ ms, KeysIncrease m.2) : KeysIncrease (object ms)

/-- Followed by anything that does not continue a number, the rendering of `v` is read as `t`, which denotes `v`. -/
structure Spelled (item : Reader Tree) (v : Json) (t : Tree) : Prop where
  reads : ∀ rest, Delimited rest → item (v.render ++ rest) = .ok (t, rest)
  /-- A rendering is not taken for a blank or the end of an array. -/
  head : ∃ c r, v.render = c :: r ∧ isSpace c = false ∧ c ≠ 0x5d
  value : t.value? = some v
  keys : t.KeysIncrease

/-! ## Between brackets -/

/-- What is written before a bracket closes: a comma before each part, except the first one after the bracket opens. -/
def sequel : Bool → List Bytes → Bytes
  | _, [] => []
  | first, b :: bs => (if first then b else 0x2c :: b) ++ sequel false bs

theorem separated_eq_sequel (bs : List Bytes) : separated bs = sequel true bs := by
  have h : ∀ b (bs : List Bytes), separated (b :: bs) = b ++ sequel false bs := by
    intro b bs
    induction bs generalizing b with
    | nil => simp [separated, sequel]
    | cons c bs ih =>
      rw [separated, ih, sequel]
      · simp
      · nofun
  cases bs with
  | nil => rfl
  | cons b bs => exact h b bs

theorem skipBlanks_cons {c : UInt8} (h : isSpace c = false) (r : Bytes) : skipBlanks (c :: r) = c :: r := by
  rw [skipBlanks, List.dropWhile_cons, h]
  rfl

/-- A part between brackets ends where a number would end. -/
theorem delimited_sequel (bs : List Bytes) {c : UInt8} (h : c = 0x5d ∨ c = 0x7d) (rest : Bytes) :
    Delimited (sequel false bs ++ c :: rest) := by
  cases bs with
  | nil => rcases h with rfl | rfl <;> exact delimited_cons (by decide)
  | cons b bs => exact delimited_cons (by decide)

/-- A part that is not empty takes a byte. -/
theorem length_sequel_lt {b : Bytes} (h : b ≠ []) (bs : List Bytes) (first : Bool) :
    (sequel false bs).length < (sequel first (b :: bs)).length := by
  have hpos := List.length_pos_iff.2 h
  rw [sequel, List.length_append]
  cases first with
  | true => exact Nat.lt_add_of_pos_left hpos
  | false => exact Nat.lt_add_of_pos_left (Nat.succ_pos b.length)

theorem nextItem_sequel (first : Bool) {c : UInt8} (h : isSpace c = false) (hc : c ≠ 0x5d) (r : Bytes) :
    nextItem first (if first then c :: r else 0x2c :: c :: r) = .ok (.more (c :: r)) := by
  cases first with
  | true =>
    simp only [nextItem, if_true, skipBlanks_cons h, if_neg hc]
  | false =>
    have hs : skipBlanks (0x2c :: c :: r) = 0x2c :: c :: r := skipBlanks_cons (by decide) _
    simp only [nextItem, Bool.false_eq_true, if_false, if_true, hs, skipBlanks_cons h, if_neg hc,
      show ¬((0x2c : UInt8) = 0x5d) by decide]

theorem nextKey_sequel (first : Bool) (r : Bytes) :
    nextKey first (if first then 0x22 :: r else 0x2c :: 0x22 :: r) = .ok (.more r) := by
  cases first <;> rfl

/-- A text that is not taken for a blank or the end of an array. -/
def Starts (text : Bytes) : Prop := ∃ c r, text = c :: r ∧ isSpace c = false ∧ c ≠ 0x5d

/-- The next item is there from its first byte on. -/
theorem nextItem_written {b : Bytes} (h : Starts b) (first : Bool) (bs : List Bytes) (rest : Bytes) :
    nextItem first (sequel first (b :: bs) ++ 0x5d :: rest) =
      .ok (.more (b ++ (sequel false bs ++ 0x5d :: rest))) := by
  obtain ⟨c, r, rfl, hs, hc⟩ := h
  have hn := nextItem_sequel first hs hc (r ++ (sequel false bs ++ 0x5d :: rest))
  rw [sequel]
  cases first <;> simpa using hn

/-- The next key is there without its opening quote. -/
theorem nextKey_written (k : String) (b : Bytes) (first : Bool) (bs : List Bytes) (rest : Bytes) :
    nextKey first (sequel first (renderMember k b :: bs) ++ 0x7d :: rest) =
      .ok (.more (k.toList.flatMap renderChar ++ 0x22 :: 0x3a :: (b ++ (sequel false bs ++ 0x7d :: rest)))) := by
  have hn := nextKey_sequel first (k.toList.flatMap renderChar ++
    0x22 :: 0x3a :: (b ++ (sequel false bs ++ 0x7d :: rest)))
  rw [sequel, renderMember, renderString]
  cases first <;> simpa using hn

/-- Followed by anything that does not continue a number, the text is read as `v`. -/
structure Reads {α : Type} (read : Reader α) (text : Bytes) (v : α) : Prop where
  reads : ∀ rest, Delimited rest → read (text ++ rest) = .ok (v, rest)
  starts : Starts text

theorem Starts.ne_nil {text : Bytes} (h : Starts text) : text ≠ [] := by
  obtain ⟨c, r, rfl, -⟩ := h
  exact List.cons_ne_nil c r

section Items

variable {α : Type} {item : Reader α} {ps : List (Bytes × α)} (h : ∀ p ∈ ps, Reads item p.1 p.2)
include h

/-- At most `fuel` items, from any of them on. -/
theorem itemsFrom_written : ∀ {first : Bool} {fuel : Nat} {rest : Bytes},
    (sequel first (ps.map Prod.fst)).length < fuel →
    itemsFrom item fuel first (sequel first (ps.map Prod.fst) ++ 0x5d :: rest) = .ok (ps.map Prod.snd, rest) := by
  -- `first` stays general: all items but the one after the bracket have a comma
  induction ps with
  | nil =>
    intro first fuel rest hf
    obtain ⟨fuel, rfl⟩ := Nat.exists_eq_succ_of_ne_zero (Nat.ne_zero_of_lt hf)
    exact (itemsFrom_succ ..).2 (Or.inl ⟨rfl, rfl⟩)
  | cons p ps ih =>
    intro first fuel rest hf
    obtain ⟨hp, h⟩ := List.forall_mem_cons.1 h
    rw [List.map_cons] at hf ⊢
    obtain ⟨fuel, rfl⟩ := Nat.exists_eq_succ_of_ne_zero (Nat.ne_zero_of_lt hf)
    have hlt := length_sequel_lt hp.starts.ne_nil (ps.map Prod.fst) first
    have hn := nextItem_written hp.starts first (ps.map Prod.fst) rest
    have hread := hp.reads _ (delimited_sequel (ps.map Prod.fst) (Or.inl rfl) rest)
    exact (itemsFrom_succ ..).2 (Or.inr ⟨_, p.2, _, ps.map Prod.snd, hn, hread, ih h (by omega), rfl⟩)

/-- Written items are read up to the closing bracket. -/
theorem readItems_written (rest : Bytes) :
    readItems item (separated (ps.map Prod.fst) ++ 0x5d :: rest) = .ok (ps.map Prod.snd, rest) := by
  rw [separated_eq_sequel, readItems]
  refine itemsFrom_written h ?_
  rw [List.length_append]
  omega

end Items

section Spelling

variable {item : Reader Tree}

theorem Spelled.toReads {v : Json} {t : Tree} (h : Spelled item v t) : Reads item v.render t := ⟨h.reads, h.head⟩

/-- The items of an array are read back. -/
theorem items_spelled {vs : List Json} (h : ∀ v ∈ vs, ∃ t, Spelled item v t) :
    ∃ ts, Tree.values? ts = some vs ∧ (∀ t ∈ ts, t.KeysIncrease) ∧ ∀ rest,
      readItems item (separated (renderItems vs) ++ 0x5d :: rest) = .ok (ts, rest) := by
  have hps : ∃ ps : List (Bytes × Tree), ps.map Prod.fst = renderItems vs ∧
      Tree.values? (ps.map Prod.snd) = some vs ∧ (∀ t ∈ ps.map Prod.snd, t.KeysIncrease) ∧
      ∀ p ∈ ps, Reads item p.1 p.2 := by
    induction vs with
    | nil => exact ⟨[], rfl, rfl, fun _ hm => absurd hm List.not_mem_nil, fun _ hm => absurd hm List.not_mem_nil⟩
    | cons v vs ih =>
      obtain ⟨⟨t, ht⟩, h⟩ := List.forall_mem_cons.1 h
      obtain ⟨ps, htexts, hts, hks, hreads⟩ := ih h
      refine ⟨(v.render, t) :: ps, by rw [List.map_cons, htexts, renderItems], ?_,
        List.forall_mem_cons.2 ⟨ht.keys, hks⟩, List.forall_mem_cons.2 ⟨ht.toReads, hreads⟩⟩
      simp [Tree.values?, ht.value, hts]
  obtain ⟨ps, htexts, hts, hks, hreads⟩ := hps
  exact ⟨_, hts, hks, fun rest => htexts ▸ readItems_written hreads rest⟩

theorem members_from_spelled {ms : List (String × Json)} (h : ∀ m ∈ ms, ∃ t, Spelled item m.2 t) :
    ∃ ts, Tree.members? ts = some ms ∧ (∀ m ∈ ts, m.2.KeysIncrease) ∧ ∀ first fuel rest,
      (sequel first (renderMembers ms)).length < fuel →
      membersFrom item fuel first (sequel first (renderMembers ms) ++ 0x7d :: rest) = .ok (ts, rest) := by
  induction ms with
  | nil =>
    refine ⟨[], rfl, fun _ hm => absurd hm List.not_mem_nil, fun first fuel rest hf => ?_⟩
    obtain ⟨fuel, rfl⟩ := Nat.exists_eq_succ_of_ne_zero (Nat.ne_zero_of_lt hf)
    exact (membersFrom_succ ..).2 (Or.inl ⟨rfl, rfl⟩)
  | cons m ms ih =>
    obtain ⟨k, v⟩ := m
    obtain ⟨⟨t, ht⟩, h⟩ := List.forall_mem_cons.1 h
    obtain ⟨ts, hts, hks, hread⟩ := ih h
    refine ⟨(k, t) :: ts, by simp [Tree.members?, ht.value, hts], List.forall_mem_cons.2 ⟨ht.keys, hks⟩, ?_⟩
    intro first fuel rest hf
    rw [renderMembers] at hf
    obtain ⟨fuel, rfl⟩ := Nat.exists_eq_succ_of_ne_zero (Nat.ne_zero_of_lt hf)
    have hne : renderString k ++ 0x3a :: v.render ≠ [] := List.append_ne_nil_of_right_ne_nil _ (List.cons_ne_nil _ _)
    have hlt := length_sequel_lt hne (renderMembers ms) first
    have hv := ht.reads _ (delimited_sequel (renderMembers ms) (Or.inr rfl) rest)
    have hk := readString_rendered k (0x3a :: (v.render ++ (sequel false (renderMembers ms) ++ 0x7d :: rest)))
    have hn := nextKey_written k v.render first (renderMembers ms) rest
    exact (membersFrom_succ ..).2
      (Or.inr ⟨_, k, _, _, t, _, ts, hn, hk, rfl, hv, hread false fuel rest (by omega), rfl⟩)

theorem renderMembers_append (ms ns : List (String × Json)) :
    renderMembers (ms ++ ns) = renderMembers ms ++ renderMembers ns := by
  induction ms with
  | nil => rfl
  | cons m ms ih =>
    obtain ⟨k, v⟩ := m
    rw [List.cons_append, renderMembers, renderMembers, ih]
    rfl

/-- The members of an object are read back, whatever order they stand in. -/
theorem members_spelled {ms : List (String × Json)} (h : ∀ m ∈ ms, ∃ t, Spelled item m.2 t) :
    ∃ ts, Tree.members? ts = some ms ∧ (∀ m ∈ ts, m.2.KeysIncrease) ∧ ∀ rest,
      readMembers item (separated (renderMembers ms) ++ 0x7d :: rest) = .ok (ts, rest) := by
  obtain ⟨ts, hts, hks, hread⟩ := members_from_spelled h
  refine ⟨ts, hts, hks, fun rest => ?_⟩
  rw [separated_eq_sequel, readMembers]
  refine hread true _ rest ?_
  rw [List.length_append]
  omega

end Spelling

/-! ## Values -/

namespace Tree

/-- A document is read by its first byte, if this is no blank and opens no bracket. -/
theorem read_scalar (depth : Nat) {c : UInt8} (h : isSpace c = false ∧ c ≠ 0x5b ∧ c ≠ 0x7b) (r : Bytes) :
    read depth (c :: r) = readScalar c r := by
  obtain ⟨hs, ha, ho⟩ := h
  cases depth <;> simp only [read, readWith, skipBlanks_cons hs, if_neg ha, if_neg ho]

theorem keys_of_members? {ts : List (String × Tree)} {ms : List (String × Json)} (h : members? ts = some ms) :
    ts.map Prod.fst = ms.map Prod.fst := by
  rw [members?_eq_mapM] at h
  induction ts generalizing ms with
  | nil => cases h; rfl
  | cons t ts ih =>
    obtain ⟨m, ms, hm, hms, rfl⟩ := mapM_cons_eq_some.1 h
    rw [List.map_cons, List.map_cons, ih hms, (onValue_eq_some_iff.1 hm).2]

end Tree

theorem render_integer_head (i : Int) :
    ∃ c r, Number.render (.integer i) = c :: r ∧ startsNumber c = true := by
  cases i with
  | ofNat n =>
    obtain ⟨c, r, e, hc⟩ := startsNumber_decimal n
    exact ⟨c, r, e, by simp [startsNumber, hc]⟩
  | negSucc n => exact ⟨0x2d, _, rfl, rfl⟩

theorem ne_of_startsNumber {c d : UInt8} (h : startsNumber c = true) (hd : startsNumber d = false) : c ≠ d := by
  rintro rfl
  exact absurd (h.symm.trans hd) (by decide)

theorem not_isSpace_of_startsNumber {c : UInt8} (h : startsNumber c = true) : isSpace c = false := by
  have hne : ∀ d, startsNumber d = false → c ≠ d := fun d => ne_of_startsNumber h
  simp [isSpace, hne 0x20 rfl, hne 0x0a rfl, hne 0x09 rfl, hne 0x0d rfl]

theorem integer_spelled {i : Int} (h : Number.Holds i) (depth : Nat) :
    Spelled (Tree.read depth) (.number (.integer i)) (.number (Numeral.ofInt i)) := by
  obtain ⟨c, r, e, hc⟩ := render_integer_head i
  have hne : ∀ d, startsNumber d = false → c ≠ d := fun d => ne_of_startsNumber hc
  have hs := not_isSpace_of_startsNumber hc
  refine ⟨fun rest hd => ?_, ⟨c, r, e, hs, hne _ rfl⟩, ?_, .number _⟩
  · have hn := readNumeral_rendered hd .endInValue i
    rw [e, List.cons_append] at hn
    rw [render, e, List.cons_append, Tree.read_scalar depth ⟨hs, hne _ rfl, hne _ rfl⟩, Tree.readScalar,
      if_neg (hne _ rfl), if_neg (hne _ rfl), if_neg (hne _ rfl), if_neg (hne _ rfl), if_pos hc, hn]
    rfl
  · rw [Tree.value?, (Numeral.isPlain_ofInt h).value_eq, Numeral.int_ofInt]
    rfl

theorem renderString_append (s : String) (rest : Bytes) :
    renderString s ++ rest = 0x22 :: (s.toList.flatMap renderChar ++ 0x22 :: rest) := by
  simp [renderString]

theorem string_spelled (s : String) (depth : Nat) : Spelled (Tree.read depth) (.string s) (.string s) := by
  refine ⟨fun rest _ => ?_, ⟨0x22, _, rfl, by decide⟩, rfl, .string s⟩
  have hs := readString_rendered s rest
  rw [render, renderString_append, Tree.read_scalar depth (by decide), Tree.readScalar]
  simp only [hs, show ¬((0x22 : UInt8) = 0x6e) by decide, show ¬((0x22 : UInt8) = 0x74) by decide,
    show ¬((0x22 : UInt8) = 0x66) by decide, if_false, if_true]
  rfl

theorem null_spelled (depth : Nat) : Spelled (Tree.read depth) .null .null := by
  have e : Utf8.encode "null" = 0x6e :: Utf8.encode "ull" := rfl
  refine ⟨fun rest _ => ?_, ⟨0x6e, _, e, by decide⟩, rfl, .null⟩
  rw [render, e, List.cons_append, Tree.read_scalar depth (by decide), Tree.readScalar, if_pos rfl, word_append]
  rfl

theorem bool_spelled (b : Bool) (depth : Nat) : Spelled (Tree.read depth) (.bool b) (.bool b) := by
  cases b with
  | true =>
    have e : renderBool true = 0x74 :: Utf8.encode "rue" := rfl
    refine ⟨fun rest _ => ?_, ⟨0x74, _, e, by decide⟩, rfl, .bool true⟩
    rw [render, e, List.cons_append, Tree.read_scalar depth (by decide), Tree.readScalar, if_neg (by decide),
      if_pos rfl, word_append]
    rfl
  | false =>
    have e : renderBool false = 0x66 :: Utf8.encode "alse" := rfl
    refine ⟨fun rest _ => ?_, ⟨0x66, _, e, by decide⟩, rfl, .bool false⟩
    rw [render, e, List.cons_append, Tree.read_scalar depth (by decide), Tree.readScalar, if_neg (by decide),
      if_neg (by decide), if_pos rfl, word_append]
    rfl

/-- Every plain value is read back from its rendering. -/
theorem Plain.spelled {depth : Nat} {v : Json} (h : v.Plain depth) (hs : v.Sorted) :
    ∃ t, Spelled (Tree.read depth) v t := by
  induction h with
  | null => exact ⟨_, null_spelled _⟩
  | bool b => exact ⟨_, bool_spelled b _⟩
  | integer h => exact ⟨_, integer_spelled h _⟩
  | string s => exact ⟨_, string_spelled s _⟩
  | @array depth vs h ih =>
    cases hs with
    | array hs =>
      obtain ⟨ts, hts, hks, hread⟩ := items_spelled fun v hv => ih v hv (hs v hv)
      refine ⟨.array ts, fun rest _ => ?_, ⟨0x5b, _, rfl, by decide⟩, by rw [Tree.value?, hts]; rfl, .array hks⟩
      have e : render (.array vs) ++ rest = 0x5b :: (separated (renderItems vs) ++ 0x5d :: rest) := by simp [render]
      rw [e, Tree.read, Tree.readWith, skipBlanks_cons (by decide)]
      simp only [if_true, hread]
      rfl
  | @object depth ms h ih =>
    cases hs with
    | object ho hs =>
      obtain ⟨ts, hts, hks, hread⟩ := members_spelled fun m hm => ih m hm (hs m hm)
      have hkeys : (ts.map Prod.fst).Pairwise fun a b => Utf8.encode a < Utf8.encode b := by
        rw [Tree.keys_of_members? hts, List.pairwise_map]
        exact ho.imp fun hlt => Utf8.encode_lt hlt
      refine ⟨.object ts, fun rest _ => ?_, ⟨0x7b, _, rfl, by decide⟩, ?_, .object hkeys hks⟩
      · have e : render (.object ms) ++ rest = 0x7b :: (separated (renderMembers ms) ++ 0x7d :: rest) := by
          simp [render]
        rw [e, Tree.read, Tree.readWith, skipBlanks_cons (by decide)]
        simp only [if_true, hread, show ¬((0x7b : UInt8) = 0x5b) by decide, if_false]
        rfl
      · rw [Tree.value?, hts, Option.map_some, Members.ofList_eq_self ho]

end RegistryPublisher.Json
