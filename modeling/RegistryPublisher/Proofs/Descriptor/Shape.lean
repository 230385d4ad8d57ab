import RegistryPublisher.Proofs.Descriptor.RoundTrip
import RegistryPublisher.Proofs.Json.Grammar

/-!
# Which documents are descriptors

- `Tree.InRange`: all numbers of a document can be held, so that it has a value (`InRange.exists_value`);
- `decode_document_iff`: the text of a document is read as a descriptor exactly when the document holds it;
- `admissible_iff`: the four text fields come once at most, and hold a string or `null`;
- `exists_decode_iff`: so these are the texts that are accepted;
- `mem_extra_iff`: the other members are the last ones of all other keys;
- `decode_shape`: so exactly these documents are read, with these fields and members.
-/

namespace RegistryPublisher

namespace Json.Tree

/-- Every number of the document is in the range of its decoder. -/
inductive InRange : Tree → Prop
  | null : InRange null
  | bool (b : Bool) : InRange (bool b)
  | number {n : Numeral} {x : Number} (h : n.value = .ok x) : InRange (number n)
  | string (s : String) : InRange (string s)
  | array {ts : List Tree} (h : ∀ t ∈ ts, InRange t) : InRange (array ts)
  | object {ms : List (String × Tree)} (h : ∀ m ∈ ms, InRange m.2) : InRange (object ms)

/-- A document whose numbers are in range has a value. -/
theorem InRange.exists_value {t : Tree} (h : t.InRange) : ∃ v, t.value? = some v := by
  induction h with
  | null => exact ⟨.null, rfl⟩
  | bool b => exact ⟨.bool b, rfl⟩
  | number h => exact ⟨_, by rw [value?, h]; rfl⟩
  | string s => exact ⟨.string s, rfl⟩
  | array _ ih =>
    obtain ⟨vs, hvs, -⟩ := exists_mapM (P := fun _ => True) fun t ht => (ih t ht).imp fun v hv => ⟨hv, trivial⟩
    exact ⟨.array vs, by rw [value?, values?_eq_mapM, hvs]; rfl⟩
  | object _ ih =>
    obtain ⟨vs, hvs, -⟩ := exists_members (P := fun _ => True) fun m hm => (ih m hm).imp fun v hv => ⟨hv, trivial⟩
    exact ⟨_, by rw [value?, hvs]; rfl⟩

/-- Strings and `null` are what a text field may hold. -/
theorem exists_text?_iff {u : Tree} : (∃ s, u.text? = some s) ↔ u = null ∨ ∃ s, u = string s := by
  cases u <;> simp [text?]

end Json.Tree

namespace Descriptor

open Json (Tree)

/-- The text of a document is read as a descriptor exactly when the document holds it. -/
theorem decode_document_iff {text : Bytes} {t : Tree} (ht : t.Document text) (hdepth : t.Within Json.maxDepth)
    {d : Descriptor} : decode text = .ok d ↔ ofTree? t = some d := by
  have hparse : Tree.parse text = .ok t := Tree.parse_eq_ok_iff.2 ⟨ht, hdepth⟩
  rw [decode_eq_ok_iff]
  constructor
  · rintro ⟨t', ht', hd⟩
    cases hparse.symm.trans ht'
    exact hd
  · exact fun hd => ⟨t, hparse, hd⟩

/-- The document of a text that was read holds what was read. -/
theorem ofTree?_of_document {text : Bytes} {t : Tree} {d : Descriptor} (ht : t.Document text)
    (hd : decode text = .ok d) : ofTree? t = some d := by
  obtain ⟨u, hu, hof⟩ := decode_eq_ok_iff.1 hd
  rwa [Tree.document_unique (Tree.parse_eq_ok_iff.1 hu).1 ht]

/-! ## Text fields -/

section Fields

variable {ms : List (String × Tree)}

/-- The four fields come once at most, and where they do there is a string or `null`. -/
theorem admissible_iff : Admissible ms ↔ ∀ k ∈ textKeys,
    (ms.map Prod.fst).count k ≤ 1 ∧ ∀ u, (k, u) ∈ ms → u = .null ∨ ∃ s, u = .string s := by
  constructor
  · intro h k hk
    refine ⟨?_, fun u hu => Tree.exists_text?_iff.1 (h.texts _ hu hk)⟩
    have hcount := List.nodup_iff_count_le_one.1 h.once k
    rwa [textKeysIn, List.count_filter (by simpa using hk)] at hcount
  · intro h
    refine ⟨List.nodup_iff_count_le_one.2 fun k => ?_, fun m hm hk => Tree.exists_text?_iff.2 ((h m.1 hk).2 m.2 hm)⟩
    by_cases hk : k ∈ textKeys
    · rw [textKeysIn, List.count_filter (by simpa using hk)]
      exact (h k hk).1
    · rw [List.count_eq_zero.2 fun hmem => hk (by simpa using (List.mem_filter.1 hmem).2)]
      exact Nat.zero_le 1

theorem fieldText_assemble {text : String → String} {extra : List (String × Json)} {k : String} (hk : k ∈ textKeys) :
    (assemble text extra).fieldText k = text k := by
  simp only [textKeys, List.mem_cons, List.not_mem_nil, or_false] at hk
  rcases hk with rfl | rfl | rfl | rfl <;> rfl

/-- The text of a field is that of its member. -/
theorem textAt_of_mem (ha : Admissible ms) {k : String} (hk : k ∈ textKeys) {u : Tree} (hu : (k, u) ∈ ms) :
    textAt ms k = u.text?.getD "" := by
  rw [textAt, Members.find?_of_mem ((admissible_iff.1 ha k hk).1) hu]
  rfl

theorem textAt_of_absent {k : String} (h : k ∉ ms.map Prod.fst) : textAt ms k = "" := by
  rw [textAt, Members.find?_eq_none_iff.2 h]
  rfl

end Fields

/-- What is accepted: an object in which the four fields come once at most, and hold a string or `null`. -/
theorem exists_decode_iff {text : Bytes} {t : Tree} (ht : t.Document text) (hdepth : t.Within Json.maxDepth)
    (hrange : t.InRange) : (∃ d, decode text = .ok d) ↔ ∃ ms, t = .object ms ∧ ∀ k ∈ textKeys,
      (ms.map Prod.fst).count k ≤ 1 ∧ ∀ u, (k, u) ∈ ms → u = .null ∨ ∃ s, u = .string s := by
  simp only [decode_document_iff ht hdepth, ofTree?_eq_some_iff]
  constructor
  · rintro ⟨d, ms, vs, e, ha, -⟩
    exact ⟨ms, e, admissible_iff.1 ha⟩
  · rintro ⟨ms, rfl, h⟩
    obtain ⟨v, hv⟩ := hrange.exists_value
    obtain ⟨vs, hvs, -⟩ := Option.map_eq_some_iff.1 hv
    exact ⟨_, ms, _, rfl, admissible_iff.2 h, members?_others hvs, rfl⟩

/-! ## Other members -/

section Others

variable {ms : List (String × Tree)} {vs : List (String × Json)}

theorem find?_others_reverse {k : String} (h : k ∉ textKeys) (ms : List (String × Tree)) :
    Members.find? k (others ms).reverse = Members.find? k ms.reverse := by
  rw [others, ← List.filter_reverse]
  exact find?_others h ms.reverse

/-- The other members are the last ones of all other keys. -/
theorem mem_extra_iff (h : Tree.members? (others ms) = some vs) {k : String} {v : Json} :
    (k, v) ∈ Members.ofList vs ↔ k ∉ textKeys ∧ ∃ before u after, ms = before ++ (k, u) :: after ∧
      k ∉ after.map Prod.fst ∧ u.value? = some v := by
  rw [Members.mem_ofList_iff, ← Members.find?_ofList, find?_ofList_members? h, Option.bind_eq_some_iff]
  constructor
  · rintro ⟨u, hu, hv⟩
    have hk : k ∉ textKeys := key_of_mem_others _ (List.mem_reverse.1 (Members.mem_of_find?_eq_some hu))
    obtain ⟨before, after, e, hafter⟩ := Members.find?_reverse_eq_some_iff.1 (find?_others_reverse hk ms ▸ hu)
    exact ⟨hk, before, u, after, e, hafter, hv⟩
  · rintro ⟨hk, before, u, after, e, hafter, hv⟩
    exact ⟨u, (find?_others_reverse hk ms).trans (Members.find?_reverse_eq_some_iff.2 ⟨before, after, e, hafter⟩), hv⟩

end Others

/-- **Which documents are descriptors.** Take a text that is a document, nested no deeper than its decoder allows and
with numbers in range. It is read as a descriptor exactly when it is an object in which each of the four text fields
comes once at most, and holds a string or `null` where it comes; no other member matters. Then each field is its string,
or empty when there is `null` or nothing, and the other members are in key order the last ones of all other keys, each
with the value that it denotes. -/
theorem decode_shape {text : Bytes} {t : Tree} (ht : t.Document text) (hdepth : t.Within Json.maxDepth)
    (hrange : t.InRange) :
    ((∃ d, decode text = .ok d) ↔ ∃ ms, t = .object ms ∧ ∀ k ∈ textKeys,
      (ms.map Prod.fst).count k ≤ 1 ∧ ∀ u, (k, u) ∈ ms → u = .null ∨ ∃ s, u = .string s) ∧
    ∀ d, decode text = .ok d → ∃ ms, t = .object ms ∧
      (∀ k ∈ textKeys, (∀ s, (k, .string s) ∈ ms → d.fieldText k = s) ∧
        (k ∉ ms.map Prod.fst ∨ (k, .null) ∈ ms → d.fieldText k = "")) ∧
      Members.Ordered d.extra ∧
      ∀ k v, (k, v) ∈ d.extra ↔ k ∉ textKeys ∧ ∃ before u after, ms = before ++ (k, u) :: after ∧
        k ∉ after.map Prod.fst ∧ u.value? = some v := by
  refine ⟨exists_decode_iff ht hdepth hrange, ?_⟩
  simp only [decode_document_iff ht hdepth, ofTree?_eq_some_iff]
  rintro _ ⟨ms, vs, e, ha, hvs, rfl⟩
  refine ⟨ms, e, fun k hk => ⟨fun s hs => ?_, fun hnone => ?_⟩, Members.ordered_ofList vs, fun k v => mem_extra_iff hvs⟩
  · rw [fieldText_assemble hk, textAt_of_mem ha hk hs]
    rfl
  · rw [fieldText_assemble hk]
    rcases hnone with habsent | hnull
    · exact textAt_of_absent habsent
    · rw [textAt_of_mem ha hk hnull]
      rfl

/-- Another key may be repeated, and a field may be spelled with an escape; a field may not come twice. -/
theorem decode_shape_repeated :
    let text := Utf8.encode "\x7b\"x\":[1],\"name\":null,\"versio\\u006e\":\"1\",\"x\":\x7b\x7d\x7d"
    let text' := Utf8.encode "\x7b\"name\":\"a\",\"name\":null\x7d"
    (∃ d, decode text = .ok d ∧ d.name = "" ∧ d.version = "1" ∧ ("x", .object []) ∈ d.extra) ∧
    ¬∃ d, decode text' = .ok d := by
  intro text text'
  -- the bytes are written out, so that readers need not encode the string for each of them
  have htext : text = [
    0x7b, 0x22, 0x78, 0x22, 0x3a, 0x5b, 0x31, 0x5d, 0x2c, 0x22, 0x6e, 0x61, 0x6d, 0x65, 0x22, 0x3a, 0x6e, 0x75,
    0x6c, 0x6c, 0x2c, 0x22, 0x76, 0x65, 0x72, 0x73, 0x69, 0x6f, 0x5c, 0x75, 0x30, 0x30, 0x36, 0x65, 0x22, 0x3a,
    0x22, 0x31, 0x22, 0x2c, 0x22, 0x78, 0x22, 0x3a, 0x7b, 0x7d, 0x7d] := by decide
  have htext' : text' = [
    0x7b, 0x22, 0x6e, 0x61, 0x6d, 0x65, 0x22, 0x3a, 0x22, 0x61, 0x22, 0x2c, 0x22, 0x6e, 0x61, 0x6d, 0x65, 0x22,
    0x3a, 0x6e, 0x75, 0x6c, 0x6c, 0x7d] := by decide
  let one : Json.Numeral := ⟨false, [1], none, none⟩
  let ms : List (String × Tree) :=
    [("x", .array [.number one]), ("name", .null), ("version", .string "1"), ("x", .object [])]
  let ms' : List (String × Tree) := [("name", .string "a"), ("name", .null)]
  obtain ⟨ht, hdepth⟩ := Tree.parse_eq_ok_iff.1 (show Tree.parse text = .ok (.object ms) by rw [htext]; rfl)
  obtain ⟨ht', hdepth'⟩ := Tree.parse_eq_ok_iff.1 (show Tree.parse text' = .ok (.object ms') by rw [htext']; rfl)
  have hone : one.IsPlain := ⟨rfl, rfl, nofun, by decide, by decide⟩
  have hrange : (Tree.object ms).InRange := by
    refine .object ?_
    simp only [ms, List.forall_mem_cons, List.not_mem_nil, false_implies, implies_true, and_true]
    exact ⟨.array (List.forall_mem_singleton.2 (.number hone.value_eq)), .null, .string "1", .object (List.forall_mem_nil _)⟩
  have hrange' : (Tree.object ms').InRange := by
    refine .object ?_
    simp only [ms', List.forall_mem_cons, List.not_mem_nil, false_implies, implies_true, and_true]
    exact ⟨.string "a", .null⟩
  constructor
  · obtain ⟨haccepts, hgives⟩ := decode_shape ht hdepth hrange
    obtain ⟨d, hd⟩ := haccepts.2 ⟨ms, rfl, by simp [textKeys, ms]⟩
    obtain ⟨ns, e, htexts, -, hextra⟩ := hgives d hd
    cases e
    refine ⟨d, hd, (htexts "name" (by decide)).2 (Or.inr (by simp [ms])),
      (htexts "version" (by decide)).1 "1" (by simp [ms]),
      (hextra "x" _).2 ⟨by decide, [_, _, _], .object [], [], rfl, List.not_mem_nil, rfl⟩⟩
  · rintro hd
    obtain ⟨ns, e, h⟩ := (decode_shape ht' hdepth' hrange').1.1 hd
    cases e
    exact absurd (h "name" (by decide)).1 (by decide)

end Descriptor

end RegistryPublisher
