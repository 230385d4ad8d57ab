import RegistryPublisher.Proofs.Descriptor.Writing

/-!
# What is passed through

- `contents_eq`: a descriptor that was read is given by the value of its text: the texts of four keys, and all others;
- `Preserved` and `CanonicalOrder`: how the value of the canonical form relates to the value of the text that was read,
  and how its members stand;
- `encode_lossless`: reading a descriptor and writing it loses nothing else, as long as numbers are plain integers.
-/

namespace RegistryPublisher.Descriptor

open Json (Tree)

/-- The text of a member: empty unless it is a string. -/
def textOf : Option Json → String
  | some (.string s) => s
  | _ => ""

/-- A text field holds a string or `null` where it occurs. -/
def HoldsText (V : List (String × Json)) (key : String) : Prop :=
  Members.find? key V = none ∨ Members.find? key V = some .null ∨ ∃ s, Members.find? key V = some (.string s)

/-- The value `V'` is the value `V` with the fields that are always written, and without an empty schema. -/
structure Preserved (V V' : List (String × Json)) : Prop where
  ordered : Members.Ordered V'
  holdsText : ∀ k ∈ textKeys, HoldsText V k
  other : ∀ k, k ∉ textKeys → Members.find? k V' = Members.find? k V
  written : ∀ k ∈ writtenKeys, Members.find? k V' = some (.string (textOf (Members.find? k V)))
  schema : Members.find? "$schema" V' =
    if textOf (Members.find? "$schema" V) = "" then none else some (.string (textOf (Members.find? "$schema" V)))

/-- The members `ts` stand in canonical order: the schema if `V` has one, the fields that are always written, and the
other keys of `V` by their bytes; the keys below them increase too. -/
structure CanonicalOrder (V : List (String × Json)) (ts : List (String × Tree)) : Prop where
  keys : ts.map Prod.fst = (if textOf (Members.find? "$schema" V) = "" then [] else ["$schema"]) ++ writtenKeys ++
    (others V).map Prod.fst
  increasing : ((others V).map Prod.fst).Pairwise fun a b => Utf8.encode a < Utf8.encode b
  nested : ∀ m ∈ ts, m.2.KeysIncrease

/-! ## The value of a document with a descriptor -/

section Values

variable {ms : List (String × Tree)} {vs : List (String × Json)}

theorem find?_members? (h : Tree.members? ms = some vs) (k : String) :
    Members.find? k vs = (Members.find? k ms).bind Tree.value? := by
  rw [Tree.members?_eq_mapM] at h
  induction ms generalizing vs with
  | nil => cases h; rfl
  | cons m ms ih =>
    obtain ⟨n, ws, hn, hws, rfl⟩ := Json.mapM_cons_eq_some.1 h
    obtain ⟨hv, hk⟩ := Json.onValue_eq_some_iff.1 hn
    rw [Members.find?_cons, Members.find?_cons, hk]
    split
    · exact hv.symm
    · exact ih hws

theorem members?_reverse (h : Tree.members? ms = some vs) : Tree.members? ms.reverse = some vs.reverse := by
  rw [Tree.members?_eq_mapM] at h
  induction ms generalizing vs with
  | nil => cases h; rfl
  | cons m ms ih =>
    obtain ⟨n, ws, hn, hws, rfl⟩ := Json.mapM_cons_eq_some.1 h
    obtain ⟨hv, hk⟩ := Json.onValue_eq_some_iff.1 hn
    rw [List.reverse_cons, List.reverse_cons]
    exact members?_append_singleton.2 ⟨ws.reverse, n.2, ih hws, hv, by rw [← hk]⟩

/-- The value of an object has the values of the last members of their keys. -/
theorem find?_ofList_members? (h : Tree.members? ms = some vs) (k : String) :
    Members.find? k (Members.ofList vs) = (Members.find? k ms.reverse).bind Tree.value? := by
  rw [Members.find?_ofList, find?_members? (members?_reverse h)]

theorem members?_others (h : Tree.members? ms = some vs) : Tree.members? (others ms) = some (others vs) := by
  rw [Tree.members?_eq_mapM] at h ⊢
  induction ms generalizing vs with
  | nil => cases h; rfl
  | cons m ms ih =>
    obtain ⟨n, ws, hn, hws, rfl⟩ := Json.mapM_cons_eq_some.1 h
    have hk := (Json.onValue_eq_some_iff.1 hn).2
    have ih := ih hws
    unfold others at ih ⊢
    by_cases hm : m.1 ∈ textKeys
    · rw [List.filter_cons_of_neg (by simpa using hm), List.filter_cons_of_neg (by simpa [hk] using hm)]
      exact ih
    · rw [List.filter_cons_of_pos (by simpa using hm), List.filter_cons_of_pos (by simpa [hk] using hm)]
      exact Json.mapM_cons_eq_some.2 ⟨n, _, hn, ih, rfl⟩

theorem find?_others {α : Type} {k : String} (h : k ∉ textKeys) (vs : List (String × α)) :
    Members.find? k (others vs) = Members.find? k vs :=
  Members.find?_filter (p := fun k => decide (k ∉ textKeys)) (by simpa using h) vs

theorem key_of_mem_others {α : Type} {vs : List (String × α)} : ∀ m ∈ others vs, m.1 ∉ textKeys :=
  fun _ hm => by simpa using (List.mem_filter.1 hm).2

/-- It is the same to sort members and to leave text fields out first. -/
theorem others_ofList (vs : List (String × Json)) : others (Members.ofList vs) = Members.ofList (others vs) := by
  refine Members.eq_of_find?_eq ((Members.ordered_ofList vs).filter _) (Members.ordered_ofList _) fun k => ?_
  by_cases hk : k ∈ textKeys
  · rw [Members.find?_eq_none_iff.2, Members.find?_eq_none_iff.2]
    · intro hmem
      obtain ⟨m, hm, rfl⟩ := List.mem_map.1 hmem
      exact key_of_mem_others m (Members.mem_ofList hm) hk
    · intro hmem
      obtain ⟨m, hm, rfl⟩ := List.mem_map.1 hmem
      exact key_of_mem_others m hm hk
  · rw [find?_others hk, Members.find?_ofList, Members.find?_ofList, others, ← List.filter_reverse]
    exact (find?_others hk vs.reverse).symm

/-- The first and the last value of a text field are the same. -/
theorem find?_text_reverse (ha : Admissible ms) (h : Tree.members? ms = some vs) {k : String} (hk : k ∈ textKeys) :
    Members.find? k vs.reverse = Members.find? k vs := by
  have hkeys : textKeysIn vs = textKeysIn ms := by rw [textKeysIn, textKeysIn, Tree.keys_of_members? h]
  have hp : (fun k => decide (k ∈ textKeys)) k = true := by simpa using hk
  rw [← Members.find?_filter (p := fun k => decide (k ∈ textKeys)) hp, List.filter_reverse, Members.find?_reverse,
    Members.find?_filter (p := fun k => decide (k ∈ textKeys)) hp]
  have hnodup := ha.once
  rw [← hkeys, textKeysIn, List.filter_map] at hnodup
  exact hnodup

theorem text_eq (ha : Admissible ms) (h : Tree.members? ms = some vs) {k : String} (hk : k ∈ textKeys) :
    HoldsText (Members.ofList vs) k ∧ textAt ms k = textOf (Members.find? k (Members.ofList vs)) := by
  have hfind : Members.find? k (Members.ofList vs) = (Members.find? k ms).bind Tree.value? := by
    rw [Members.find?_ofList, find?_text_reverse ha h hk, find?_members? h]
  rw [HoldsText, hfind, textAt]
  cases hm : Members.find? k ms with
  | none => exact ⟨Or.inl rfl, rfl⟩
  | some t =>
    obtain ⟨s, hs⟩ := ha.texts _ (Members.mem_of_find?_eq_some hm) hk
    cases t with
    | null => exact ⟨Or.inr (Or.inl rfl), rfl⟩
    | string s => exact ⟨Or.inr (Or.inr ⟨s, rfl⟩), rfl⟩
    | _ => cases hs

/-- A descriptor that was read is given by the value of its text. -/
theorem contents_eq (ha : Admissible ms) (h : Tree.members? ms = some vs) :
    assemble (textAt ms) (Members.ofList (others vs)) =
      assemble (fun k => textOf (Members.find? k (Members.ofList vs))) (others (Members.ofList vs)) := by
  rw [assemble_congr fun k hk => (text_eq ha h hk).2, others_ofList]

end Values

/-! ## Writing what was read -/

section Canonical

variable {V : List (String × Json)}

/-- The descriptor that the value of a text gives. -/
def ofValue (V : List (String × Json)) : Descriptor := assemble (fun k => textOf (Members.find? k V)) (others V)

theorem preserved_ofValue (ho : Members.Ordered V) (ht : ∀ k ∈ textKeys, HoldsText V k) :
    Preserved V (Members.ofList (ofValue V).members) := by
  have hfind := find?_members (d := ofValue V) (ho.filter _) key_of_mem_others
  refine ⟨Members.ordered_ofList _, ht, fun k hk => ?_, fun k hk => ?_, ?_⟩
  · rw [hfind, find?_members_other hk]
    exact find?_others hk V
  · rw [hfind]
    exact find?_members_text _ _ hk
  · rw [hfind]
    exact find?_members_schema key_of_mem_others

theorem canonicalOrder_ofValue (ho : Members.Ordered V) {ts : List (String × Tree)}
    (h : Tree.members? ts = some (ofValue V).members) (hn : ∀ m ∈ ts, m.2.KeysIncrease) : CanonicalOrder V ts := by
  refine ⟨by rw [Tree.keys_of_members? h, members_keys]; rfl, ?_, hn⟩
  rw [List.pairwise_map]
  exact (ho.filter _).imp fun hlt => Utf8.encode_lt hlt

end Canonical

/-- **Nothing is lost.** A text that is read as a descriptor is a document; when its numbers are plain integers, the
canonical form of the descriptor has the value of the text, except for fields that are always written and an empty
schema, and its members stand in canonical order. -/
theorem encode_lossless {text : Bytes} {d : Descriptor} (hd : decode text = .ok d) :
    ∃ t, Tree.parse text = .ok t ∧ (t.PlainNumbers → ∃ V V' ts, Json.parse text = .ok (.object V) ∧
      Json.parse d.encode = .ok (.object V') ∧ Tree.parse d.encode = .ok (.object ts) ∧ Preserved V V' ∧
      CanonicalOrder V ts) := by
  obtain ⟨t, ht, hof⟩ := decode_eq_ok_iff.1 hd
  obtain ⟨ms, ws, rfl, ha, hws, rfl⟩ := ofTree?_eq_some_iff.1 hof
  refine ⟨_, ht, fun hp => ?_⟩
  have hwritable : ∀ m ∈ ms, ∃ v, m.2.value? = some v ∧ Writable v := by
    intro m hm
    cases hp with
    | object hp =>
      obtain ⟨v, hv, hplain, hsorted⟩ := (Tree.within_members (Tree.parse_within ht) m hm).exists_value (hp m hm)
      exact ⟨v, hv, hplain, hsorted⟩
  obtain ⟨vs, hvs, hall⟩ := Tree.exists_members hwritable
  cases (members?_others hvs).symm.trans hws
  -- from here on only the value of the text matters
  rw [contents_eq ha hvs]
  have hextra : ∀ m ∈ (ofValue (Members.ofList vs)).extra, Writable m.2 :=
    fun m hm => hall m (Members.mem_ofList (List.mem_filter.1 hm).1)
  obtain ⟨ts, hts, hmem, hkeys⟩ := parse_encode hextra
  refine ⟨Members.ofList vs, Members.ofList (ofValue (Members.ofList vs)).members, ts, ?_, ?_, hts, ?_, ?_⟩
  · exact Json.parse_eq_ok_iff.2 ⟨_, ht, by rw [Tree.value?, hvs]; rfl⟩
  · exact Json.parse_eq_ok_iff.2 ⟨_, hts, by rw [Tree.value?, hmem]; rfl⟩
  · exact preserved_ofValue (Members.ordered_ofList vs) fun k hk => (text_eq ha hvs hk).1
  · exact canonicalOrder_ofValue (Members.ordered_ofList vs) hmem hkeys

/-- A text with a repeated key, keys out of order at two depths, and one of the four fields. -/
theorem encode_lossless_repeated :
    let text := Utf8.encode "\x7b\"b\":0,\"name\":null,\"a\":\x7b\"z\":1,\"y\":\"\"\x7d,\"b\":-2\x7d"
    ∃ d t V V' ts, decode text = .ok d ∧ Tree.parse text = .ok t ∧ t.PlainNumbers ∧
      Json.parse text = .ok (.object V) ∧ Json.parse d.encode = .ok (.object V') ∧
      Tree.parse d.encode = .ok (.object ts) ∧ Preserved V V' ∧ CanonicalOrder V ts := by
  intro text
  -- the bytes are written out, so that readers need not encode the string for each of them
  have htext : text = [
    0x7b, 0x22, 0x62, 0x22, 0x3a, 0x30, 0x2c, 0x22, 0x6e, 0x61, 0x6d, 0x65, 0x22, 0x3a, 0x6e, 0x75, 0x6c, 0x6c,
    0x2c, 0x22, 0x61, 0x22, 0x3a, 0x7b, 0x22, 0x7a, 0x22, 0x3a, 0x31, 0x2c, 0x22, 0x79, 0x22, 0x3a, 0x22, 0x22,
    0x7d, 0x2c, 0x22, 0x62, 0x22, 0x3a, 0x2d, 0x32, 0x7d] := by decide
  let t : Tree := .object [("b", .number ⟨false, [0], none, none⟩), ("name", .null),
    ("a", .object [("z", .number ⟨false, [1], none, none⟩), ("y", .string "")]), ("b", .number ⟨true, [2], none, none⟩)]
  let d : Descriptor :=
    ⟨"", "", "", "", [("a", .object [("y", .string ""), ("z", .number (.integer 1))]), ("b", .number (.integer (-2)))]⟩
  have ht : Tree.parse text = .ok t := by rw [htext]; rfl
  have hd : decode text = .ok d := by rw [htext]; rfl
  have hp : t.PlainNumbers := by
    have h0 : Json.Numeral.IsPlain ⟨false, [0], none, none⟩ := ⟨rfl, rfl, nofun, by decide, by decide⟩
    have h1 : Json.Numeral.IsPlain ⟨false, [1], none, none⟩ := ⟨rfl, rfl, nofun, by decide, by decide⟩
    have h2 : Json.Numeral.IsPlain ⟨true, [2], none, none⟩ := ⟨rfl, rfl, fun _ => by decide, by decide, by decide⟩
    refine .object ?_
    simp only [List.forall_mem_cons, List.not_mem_nil, false_implies, implies_true, and_true]
    refine ⟨.number h0, .null, .object ?_, .number h2⟩
    simp only [List.forall_mem_cons, List.not_mem_nil, false_implies, implies_true, and_true]
    exact ⟨.number h1, .string ""⟩
  obtain ⟨t', ht', h⟩ := encode_lossless hd
  cases ht.symm.trans ht'
  obtain ⟨V, V', ts, h⟩ := h hp
  exact ⟨d, t, V, V', ts, hd, ht, hp, h⟩

end RegistryPublisher.Descriptor
