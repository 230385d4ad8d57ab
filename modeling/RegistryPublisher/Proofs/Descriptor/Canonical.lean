import RegistryPublisher.Proofs.Command.Anonymous
import RegistryPublisher.Proofs.Descriptor.Alike
import RegistryPublisher.Proofs.Descriptor.Shape

/-!
# The canonical form is canonical

- `eq_of_alike`: documents that say the same hold the same descriptor;
- `stated`: a document without the text fields that are `null`, which holds the same descriptor (`ofTree?_stated`);
- `MadeFor.body`: whatever is requested for a descriptor has its canonical form as body;
- `encode_canonical`: so texts that say the same are published and validated by the same bytes.
-/

namespace RegistryPublisher.Descriptor

open Client (publishRequest validateRequest)
open Json (Tree)

/-! ## Documents that say the same -/

section Alike

variable {ms ms' : List (String × Tree)}

theorem text?_eq_of_alike {u u' : Tree} (h : u.Alike u') : u.text? = u'.text? := by cases h <;> rfl

theorem textAt_congr (keys : (ms.map Prod.fst).Perm (ms'.map Prod.fst))
    (values : ∀ m ∈ ms, ∀ m' ∈ ms', m.1 = m'.1 → m.2.Alike m'.2) (k : String) : textAt ms k = textAt ms' k := by
  rw [textAt, textAt]
  rcases Tree.find?_cases keys values k with ⟨h, h'⟩ | ⟨u, u', h, h', hu⟩
  · rw [h, h']
  · rw [h, h', Option.bind_some, Option.bind_some, text?_eq_of_alike hu]

theorem find?_others_congr (keys : (ms.map Prod.fst).Perm (ms'.map Prod.fst))
    (values : ∀ m ∈ ms, ∀ m' ∈ ms', m.1 = m'.1 → m.2.Alike m'.2) (k : String) :
    (Members.find? k (others ms)).bind Tree.value? = (Members.find? k (others ms')).bind Tree.value? := by
  have hnone {ns : List (String × Tree)} (hk : k ∈ textKeys) : Members.find? k (others ns) = none := by
    refine Members.find?_eq_none_iff.2 fun hmem => ?_
    obtain ⟨m, hm, rfl⟩ := List.mem_map.1 hmem
    exact key_of_mem_others m hm hk
  by_cases hk : k ∈ textKeys
  · rw [hnone hk, hnone hk]
  · rw [find?_others hk, find?_others hk]
    rcases Tree.find?_cases keys values k with ⟨h, h'⟩ | ⟨u, u', h, h', hu⟩
    · rw [h, h']
    · rw [h, h', Option.bind_some, Option.bind_some, hu.value?_eq]

theorem nodup_others (h : (ms.map Prod.fst).Nodup) : ((others ms).map Prod.fst).Nodup :=
  h.sublist (List.filter_sublist.map Prod.fst)

/-- Documents that say the same hold the same descriptor. -/
theorem eq_of_alike {t t' : Tree} {d d' : Descriptor} (h : t.Alike t') (hd : ofTree? t = some d)
    (hd' : ofTree? t' = some d') : d = d' := by
  obtain ⟨ms, vs, rfl, -, hvs, rfl⟩ := ofTree?_eq_some_iff.1 hd
  obtain ⟨ms', vs', rfl, -, hvs', rfl⟩ := ofTree?_eq_some_iff.1 hd'
  cases h with
  | object keys distinct values =>
    have hextra : Members.ofList vs = Members.ofList vs' :=
      Tree.ofList_members?_congr hvs hvs' (nodup_others distinct) (nodup_others (keys.nodup_iff.1 distinct))
        (find?_others_congr keys values)
    rw [hextra, assemble_congr fun k _ => textAt_congr keys values k]

end Alike

/-! ## Fields that are `null` -/

/-- The member is a text field that is `null`. -/
def IsUnset (m : String × Tree) : Prop := m.1 ∈ textKeys ∧ m.2 = .null

instance (m : String × Tree) : Decidable (IsUnset m) :=
  match m with
  | (k, .null) => if h : k ∈ textKeys then .isTrue ⟨h, rfl⟩ else .isFalse fun hm => h hm.1
  | (_, .bool _) | (_, .number _) | (_, .string _) | (_, .array _) | (_, .object _) => .isFalse fun hm => nomatch hm.2

/-- The members without the text fields that are `null`. -/
def statedMembers (ms : List (String × Tree)) : List (String × Tree) := ms.filter fun m => ¬IsUnset m

/-- The document without the text fields that are `null`. -/
def stated : Tree → Tree
  | .object ms => .object (statedMembers ms)
  | t => t

section Stated

variable {ms : List (String × Tree)}

theorem mem_statedMembers {m : String × Tree} : m ∈ statedMembers ms ↔ m ∈ ms ∧ ¬IsUnset m := by
  rw [statedMembers, List.mem_filter, decide_eq_true_iff]

theorem others_statedMembers (ms : List (String × Tree)) : others (statedMembers ms) = others ms := by
  rw [others, statedMembers, List.filter_filter]
  refine List.filter_congr fun m _ => ?_
  by_cases hm : m.1 ∈ textKeys <;> simp [IsUnset, hm]

theorem Admissible.stated (h : Admissible ms) : Admissible (statedMembers ms) := by
  rw [admissible_iff] at h ⊢
  intro k hk
  obtain ⟨hcount, htexts⟩ := h k hk
  exact ⟨(List.Sublist.count_le k (List.filter_sublist.map Prod.fst)).trans hcount,
    fun u hu => htexts u (mem_statedMembers.1 hu).1⟩

/-- A field that is `null` has the text of one that is absent. -/
theorem textAt_statedMembers (ha : Admissible ms) {k : String} (hk : k ∈ textKeys) :
    textAt (statedMembers ms) k = textAt ms k := by
  by_cases hmem : ∃ u, (k, u) ∈ ms ∧ u ≠ .null
  · obtain ⟨u, hu, hnull⟩ := hmem
    rw [textAt_of_mem ha hk hu, textAt_of_mem ha.stated hk (mem_statedMembers.2 ⟨hu, fun h => hnull h.2⟩)]
  · have habsent : k ∉ (statedMembers ms).map Prod.fst := by
      intro hstated
      obtain ⟨m, hm, rfl⟩ := List.mem_map.1 hstated
      obtain ⟨hm, hset⟩ := mem_statedMembers.1 hm
      exact hmem ⟨m.2, hm, fun hnull => hset ⟨hk, hnull⟩⟩
    rw [textAt_of_absent habsent]
    by_cases hkey : k ∈ ms.map Prod.fst
    · obtain ⟨m, hm, rfl⟩ := List.mem_map.1 hkey
      have hnull : m.2 = .null := not_not.1 fun hne => hmem ⟨m.2, hm, hne⟩
      rw [textAt_of_mem ha hk hm, hnull]
      rfl
    · exact (textAt_of_absent hkey).symm

/-- A document without the text fields that are `null` holds the same descriptor. -/
theorem ofTree?_stated {t : Tree} {d : Descriptor} (h : ofTree? t = some d) : ofTree? (stated t) = some d := by
  obtain ⟨ms, vs, rfl, ha, hvs, rfl⟩ := ofTree?_eq_some_iff.1 h
  refine ofTree?_eq_some_iff.2 ⟨statedMembers ms, vs, rfl, ha.stated, ?_, ?_⟩
  · rwa [others_statedMembers]
  · exact (assemble_congr fun k hk => textAt_statedMembers ha hk).symm

end Stated

/-! ## Requests -/

/-- A run asked for the request: the client was called for it, or it was sent by a library that sends requests as they
are. -/
def Asked (net : Network) (j : Journal) (q : Request) : Prop :=
  q ∈ j.tried ∨ (∀ p ∈ j.tried, net.IsDirect p) ∧ q ∈ j.requests

/-- The request is made when the descriptor is published or validated somewhere. -/
def MadeFor (d : Descriptor) (q : Request) : Prop :=
  ∃ (net : Network) (r : Reporter) (e : Endpoint) (room : Option Nat),
    Asked net ((Publish.run net r e d).run (Journal.start room)).2 q ∨
      Asked net ((Validate.run net r e d).run (Journal.start room)).2 q

theorem Asked.mem_tried {net : Network} {j : Journal} {q : Request} (h : Asked net j q) (hj : j.Relayed net) :
    q ∈ j.tried := h.elim id fun ⟨hdirect, hq⟩ => hj.mem_tried hdirect hq

/-- What is sent for a descriptor is its canonical form. -/
theorem MadeFor.body {d : Descriptor} {q : Request} (h : d.MadeFor q) : q.body = d.encode := by
  obtain ⟨net, r, e, room, h | h⟩ := h
  · have htried := h.mem_tried (Publish.run_relays net r e d _ (Journal.start_relayed net room))
    have hmem := (Publish.run_tries net r e d room).begins.subset htried
    simp only [List.mem_cons, List.not_mem_nil, or_false] at hmem
    rcases hmem with rfl | rfl
    · exact (Client.publishRequest_spec e d).body
    · exact (Client.validateRequest_spec e d).body
  · have htried := h.mem_tried (Validate.run_relays net r e d _ (Journal.start_relayed net room))
    have hmem := (Validate.run_plays net r e d).mem_tried htried
    rw [Validate.script_tried, List.mem_singleton] at hmem
    rw [hmem]
    exact (Client.validateRequest_spec e d).body

/-- **Canonical means canonical.** Two texts of documents that say the same, or do so without the text fields that are
`null`, have the same canonical form when they are read as descriptors, and whatever is requested to publish or to
validate the one has the same body as what is requested for the other. -/
theorem encode_canonical {text text' : Bytes} {t t' : Tree} {d d' : Descriptor} (ht : t.Document text)
    (ht' : t'.Document text') (hsame : t.Alike t' ∨ (stated t).Alike (stated t')) (hd : decode text = .ok d)
    (hd' : decode text' = .ok d') :
    d.encode = d'.encode ∧ ∀ q q', d.MadeFor q → d'.MadeFor q' → q.body = q'.body := by
  have hof := ofTree?_of_document ht hd
  have hof' := ofTree?_of_document ht' hd'
  have heq : d = d' := by
    rcases hsame with h | h
    · exact eq_of_alike h hof hof'
    · exact eq_of_alike h (ofTree?_stated hof) (ofTree?_stated hof')
  subst heq
  exact ⟨rfl, fun q q' hq hq' => hq.body.trans hq'.body.symm⟩

/-- The texts differ by blanks, by the order of members at two depths, by escapes, and by a field that is `null`. -/
theorem encode_canonical_reordered :
    let text := Utf8.encode "\x7b\"name\":null,\"b\":\x7b\"y\":[1,\"A\"],\"x\":-2\x7d,\"a\":\"\"\x7d"
    let text' := Utf8.encode "\x7b\"a\":\"\",\"\\u0062\": \x7b\"x\":-2,\"y\":[1,\"\\u0041\"]\x7d\x7d"
    ∃ d d', decode text = .ok d ∧ decode text' = .ok d' ∧ text ≠ text' ∧ d.encode = d'.encode ∧
      ∀ q q', d.MadeFor q → d'.MadeFor q' → q.body = q'.body := by
  intro text text'
  -- the bytes are written out, so that readers need not encode the string for each of them
  have htext : text = [
    0x7b, 0x22, 0x6e, 0x61, 0x6d, 0x65, 0x22, 0x3a, 0x6e, 0x75, 0x6c, 0x6c, 0x2c, 0x22, 0x62, 0x22, 0x3a, 0x7b,
    0x22, 0x79, 0x22, 0x3a, 0x5b, 0x31, 0x2c, 0x22, 0x41, 0x22, 0x5d, 0x2c, 0x22, 0x78, 0x22, 0x3a, 0x2d, 0x32,
    0x7d, 0x2c, 0x22, 0x61, 0x22, 0x3a, 0x22, 0x22, 0x7d] := by decide
  have htext' : text' = [
    0x7b, 0x22, 0x61, 0x22, 0x3a, 0x22, 0x22, 0x2c, 0x22, 0x5c, 0x75, 0x30, 0x30, 0x36, 0x32, 0x22, 0x3a, 0x20,
    0x7b, 0x22, 0x78, 0x22, 0x3a, 0x2d, 0x32, 0x2c, 0x22, 0x79, 0x22, 0x3a, 0x5b, 0x31, 0x2c, 0x22, 0x5c, 0x75,
    0x30, 0x30, 0x34, 0x31, 0x22, 0x5d, 0x7d, 0x7d] := by decide
  let one : Tree := .number ⟨false, [1], none, none⟩
  let two : Tree := .number ⟨true, [2], none, none⟩
  let t : Tree := .object [("name", .null), ("b", .object [("y", .array [one, .string "A"]), ("x", two)]),
    ("a", .string "")]
  let t' : Tree := .object [("a", .string ""), ("b", .object [("x", two), ("y", .array [one, .string "A"])])]
  obtain ⟨ht, -⟩ := Tree.parse_eq_ok_iff.1 (show Tree.parse text = .ok t by rw [htext]; rfl)
  obtain ⟨ht', -⟩ := Tree.parse_eq_ok_iff.1 (show Tree.parse text' = .ok t' by rw [htext']; rfl)
  let d : Descriptor := ⟨"", "", "", "", [("a", .string ""),
    ("b", .object [("x", .number (.integer (-2))), ("y", .array [.number (.integer 1), .string "A"])])]⟩
  have hd : decode text = .ok d := by rw [htext]; rfl
  have hd' : decode text' = .ok d := by rw [htext']; rfl
  have hitems : (Tree.array [one, .string "A"]).Alike (.array [one, .string "A"]) := by
    refine .array rfl ?_
    simp only [List.zip_cons_cons, List.zip_nil_right, List.forall_mem_cons, List.not_mem_nil, false_implies,
      implies_true, and_true]
    exact ⟨.spelled _, .string "A"⟩
  have hsame : (stated t).Alike (stated t') := by
    show Tree.Alike (.object [_, _]) (.object [_, _])
    exact .swap (by decide) (.swap (by decide) hitems (.spelled _)) (.string "")
  obtain ⟨hencode, hbody⟩ := encode_canonical ht ht' (Or.inr hsame) hd hd'
  exact ⟨d, d, hd, hd', by rw [htext, htext']; decide, hencode, hbody⟩

end RegistryPublisher.Descriptor
