import RegistryPublisher.Proofs.Descriptor.Passthrough
import RegistryPublisher.Proofs.Json.Ends
import RegistryPublisher.Proofs.Json.Representable

/-!
# Descriptors that are read back

- `Descriptor.Representable`, `FloatFree` and `Within`: the descriptors whose canonical form is a document that denotes
  their members; whatever was read is one of them, up to doubles (`representable_of_decode`, `within_of_decode`);
- `decode_encode`: such a descriptor is read back as itself when no text field hides among the other members, as in any
  that was read (`keys_of_decode`);
- `decode_encode_collides`: no descriptor is read back when a text field is written twice.
-/

namespace RegistryPublisher.Descriptor

open Json (Tree)

/-- The other members stand in key order, each key once, and their values can be held. -/
structure Representable (d : Descriptor) : Prop where
  ordered : Members.Ordered d.extra
  values : ∀ m ∈ d.extra, m.2.Representable

/-- There are no doubles among the other values. -/
def FloatFree (d : Descriptor) : Prop := ∀ m ∈ d.extra, m.2.FloatFree

/-- The canonical form has no more brackets open at a time than readers allow. -/
def Within (d : Descriptor) : Prop := (Json.object d.members).Within Json.maxDepth

/-- Another member has the key of a text field that is written. -/
def Collides (d : Descriptor) : Prop := ∃ m ∈ d.extra, m.1 ∈ writtenKeys ∨ (m.1 = "$schema" ∧ d.schema ≠ "")

/-! ## What was read -/

section Held

variable {t : Tree} {d : Descriptor} {depth : Nat} (hw : t.Within depth) (h : ofTree? t = some d)
include hw h

/-- Where another member comes from. -/
theorem exists_of_mem_ofTree? {m : String × Json} (hm : m ∈ d.extra) :
    ∃ u : Tree, m.1 ∉ textKeys ∧ u.Within (depth - 1) ∧ u.value? = some m.2 := by
  obtain ⟨ms, vs, rfl, -, hvs, rfl⟩ := ofTree?_eq_some_iff.1 h
  obtain ⟨n, hn, hk, hv⟩ := Tree.exists_of_mem_members? hvs (Members.mem_ofList hm)
  exact ⟨n.2, hk ▸ key_of_mem_others n hn, Tree.within_members hw n (List.mem_filter.1 hn).1, hv⟩

theorem representable_of_ofTree? : d.Representable := by
  constructor
  · obtain ⟨ms, vs, -, -, -, rfl⟩ := ofTree?_eq_some_iff.1 h
    exact Members.ordered_ofList vs
  · intro m hm
    obtain ⟨u, -, hu, hv⟩ := exists_of_mem_ofTree? hw h hm
    exact (hu.value? hv).1

theorem within_of_ofTree? : ∀ m ∈ d.members, m.2.Within (depth - 1) := by
  refine forall_members (fun s => .string s) fun m hm => ?_
  obtain ⟨u, -, hu, hv⟩ := exists_of_mem_ofTree? hw h hm
  exact (hu.value? hv).2

end Held

section Decoded

variable {text : Bytes} {d : Descriptor} (h : decode text = .ok d)
include h

/-- No text field hides among the other members. -/
theorem keys_of_decode : ∀ m ∈ d.extra, m.1 ∉ textKeys := by
  intro m hm
  obtain ⟨t, ht, hof⟩ := decode_eq_ok_iff.1 h
  obtain ⟨u, hk, -⟩ := exists_of_mem_ofTree? (Tree.parse_within ht) hof hm
  exact hk

theorem representable_of_decode : d.Representable := by
  obtain ⟨t, ht, hof⟩ := decode_eq_ok_iff.1 h
  exact representable_of_ofTree? (Tree.parse_within ht) hof

theorem within_of_decode : d.Within := by
  obtain ⟨t, ht, hof⟩ := decode_eq_ok_iff.1 h
  exact .object (within_of_ofTree? (Tree.parse_within ht) hof)

end Decoded

/-! ## Reading back -/

section Back

variable {d : Descriptor}

/-- The text of a field. -/
def fieldText (d : Descriptor) (key : String) : String :=
  if key = "$schema" then d.schema
  else if key = "name" then d.name
  else if key = "description" then d.description
  else d.version

theorem assemble_fieldText (d : Descriptor) : assemble d.fieldText d.extra = d := rfl

/-- What can stand in a written descriptor. -/
theorem string_or_extra {m : String × Json} (hm : m ∈ d.members) : (∃ s, m.2 = .string s) ∨ m ∈ d.extra := by
  rw [members, schemaMember] at hm
  rcases List.mem_append.1 hm with hm | hm
  · left
    split at hm <;> simp only [List.nil_append, List.cons_append, List.mem_cons, List.not_mem_nil, or_false] at hm
    · rcases hm with rfl | rfl | rfl <;> exact ⟨_, rfl⟩
    · rcases hm with rfl | rfl | rfl | rfl <;> exact ⟨_, rfl⟩
  · exact Or.inr hm

section Keys

variable (hk : ∀ m ∈ d.extra, m.1 ∉ textKeys)
include hk

theorem others_members : others d.members = d.extra := by
  have hschema : others d.schemaMember = [] := by
    unfold schemaMember
    split <;> rfl
  have hextra : others d.extra = d.extra := List.filter_eq_self.2 fun m hm => by simpa using hk m hm
  unfold others at hschema hextra ⊢
  rw [members, List.filter_append, List.filter_append, hschema, hextra]
  rfl

/-- The members of a written descriptor are admissible for a reader. -/
theorem admissible_members (ho : Members.Ordered d.extra) {ts : List (String × Tree)}
    (h : Tree.members? ts = some d.members) : Admissible ts := by
  constructor
  · rw [textKeysIn, Tree.keys_of_members? h]
    exact (members_nodup ho hk).filter _
  · intro m hm ht
    obtain ⟨v, hv, hval⟩ := Tree.mem_of_members? h hm
    obtain ⟨s, rfl⟩ := (string_or_extra hv).resolve_right fun hm => hk _ hm ht
    exact ⟨s, by rw [Tree.value?_eq_string hval]; rfl⟩

theorem textAt_members (ho : Members.Ordered d.extra) {ts : List (String × Tree)}
    (h : Tree.members? ts = some d.members) : ∀ k ∈ textKeys, textAt ts k = d.fieldText k := by
  intro k ht
  rw [(text_eq (admissible_members hk ho h) h ht).2, find?_members ho hk]
  rcases List.mem_cons.1 ht with rfl | ht
  · rw [find?_members_schema hk]
    split
    · next e => exact e.symm
    · rfl
  · have := find?_members_text d.fieldText d.extra ht
    rw [assemble_fieldText] at this
    rw [this]
    rfl

end Keys

/-- The document of a written descriptor holds it when no text field hides among the other members. -/
theorem ofTree?_members (ho : Members.Ordered d.extra) (hk : ∀ m ∈ d.extra, m.1 ∉ textKeys) {ts : List (String × Tree)}
    (h : Tree.members? ts = some d.members) : ofTree? (.object ts) = some d := by
  refine ofTree?_eq_some_iff.2 ⟨ts, _, rfl, admissible_members hk ho h, members?_others h, ?_⟩
  rw [others_members hk, Members.ofList_eq_self ho, assemble_congr (textAt_members hk ho h), assemble_fieldText]

/-- A descriptor is read back as itself where it is written. -/
theorem reads {depth : Nat} (hr : d.Representable) (hf : d.FloatFree) (hw : ∀ m ∈ d.extra, m.2.Within depth)
    (hk : ∀ m ∈ d.extra, m.1 ∉ textKeys) : Json.Reads (shape.read (depth + 1)) d.encode d := by
  have hplain : ∀ m ∈ d.extra, m.2.Plain depth ∧ m.2.Sorted :=
    fun m hm => ⟨(hf m hm).plain (hr.values m hm) (hw m hm), (hr.values m hm).sorted⟩
  obtain ⟨ts, hreads, hmem, -⟩ := reads_encode hplain
  exact (read_follows (depth + 1)).reads hreads (ofTree?_members hr.ordered hk hmem)

/-- A descriptor is read back as itself when no text field hides among the other members. -/
theorem decode_encode (hr : d.Representable) (hf : d.FloatFree) (hw : d.Within) (hk : ∀ m ∈ d.extra, m.1 ∉ textKeys) :
    decode d.encode = .ok d := by
  cases hw with
  | object hw => exact (reads hr hf (fun m hm => hw m (List.mem_append_right _ hm)) hk).decode

/-- A text field that hides among the other members is written twice. -/
theorem Collides.not_nodup (h : d.Collides) : ¬(textKeysIn d.members).Nodup := by
  intro hnodup
  obtain ⟨m, hm, hk⟩ := h
  have hfixed : m.1 ∈ (if d.schema = "" then [] else ["$schema"]) ++ writtenKeys := by
    rcases hk with hk | ⟨hk, hs⟩
    · exact List.mem_append_right _ hk
    · rw [if_neg hs, hk]
      exact List.mem_cons_self ..
  have htext : m.1 ∈ textKeys := by
    rcases hk with hk | ⟨hk, -⟩
    · exact List.mem_cons_of_mem _ hk
    · exact hk ▸ List.mem_cons_self ..
  rw [textKeysIn, members_keys, List.filter_append, List.nodup_append] at hnodup
  refine hnodup.2.2 m.1 (List.mem_filter.2 ⟨hfixed, by simpa using htext⟩) m.1 (List.mem_filter.2 ⟨?_, ?_⟩) rfl
  · exact List.mem_map_of_mem hm
  · simpa using htext

/-- Nothing is read back when a text field is written twice. -/
theorem decode_encode_collides (h : d.Collides) : ∃ e, decode d.encode = .error e := by
  cases hd : decode d.encode with
  | error e => exact ⟨e, rfl⟩
  | ok d' =>
    obtain ⟨t, ht, hof⟩ := decode_eq_ok_iff.1 hd
    rw [encode_eq_render] at ht
    obtain ⟨ts, rfl, hkeys⟩ := Json.keys_of_parse_render ht
    obtain ⟨_, -, e, ha, -⟩ := ofTree?_eq_some_iff.1 hof
    cases e
    have honce := ha.once
    rw [textKeysIn, hkeys] at honce
    exact absurd honce h.not_nodup

end Back

/-- **Reading back.** A descriptor without doubles is read back from its canonical form exactly when no text field hides
among its other members, and nothing is read back when a text field is written twice. What was read hides no text field,
so two descriptors that were read are the same when their canonical forms are. -/
theorem encode_roundTrip :
    (∀ d : Descriptor, d.Representable → d.FloatFree → d.Within →
      (decode d.encode = .ok d ↔ ∀ m ∈ d.extra, m.1 ∉ textKeys)) ∧
    (∀ d : Descriptor, d.Collides → ∃ e, decode d.encode = .error e) ∧
    (∀ text d, decode text = .ok d → ∀ m ∈ d.extra, m.1 ∉ textKeys) ∧
    ∀ text text' d d', decode text = .ok d → decode text' = .ok d' → d.FloatFree → d'.FloatFree →
      d.encode = d'.encode → d = d' := by
  refine ⟨fun d hr hf hw => ⟨keys_of_decode, decode_encode hr hf hw⟩, fun _ => decode_encode_collides,
    fun _ _ => keys_of_decode, fun text text' d d' h h' hf hf' e => ?_⟩
  have hd := decode_encode (representable_of_decode h) hf (within_of_decode h) (keys_of_decode h)
  have hd' := decode_encode (representable_of_decode h') hf' (within_of_decode h') (keys_of_decode h')
  exact Except.ok.inj ((e ▸ hd).symm.trans hd')

/-- A descriptor with nested values is read back; one whose name stands among the other members too is not. -/
theorem encode_roundTrip_nested :
    let d : Descriptor := ⟨"", "a\"\n", "", "1", [("x", .array [.number (.integer (-3)), .object [("y", .null)]])]⟩
    decode d.encode = .ok d ∧ ∃ e, decode (d.withExtra "name" (.string "b")).encode = .error e := by
  intro d
  have hr : d.Representable := by
    refine ⟨List.pairwise_singleton .., ?_⟩
    simp only [d, List.forall_mem_singleton]
    refine .array ?_
    simp only [List.forall_mem_cons, List.not_mem_nil, false_implies, implies_true, and_true]
    refine ⟨.integer ⟨by decide, by decide⟩, .object (List.pairwise_singleton ..) ?_⟩
    simpa using .null
  have hf : d.FloatFree := by
    simp only [FloatFree, d, List.forall_mem_singleton]
    refine .array ?_
    simp only [List.forall_mem_cons, List.not_mem_nil, false_implies, implies_true, and_true]
    refine ⟨.integer (-3), .object ?_⟩
    simpa using .null
  have hw : d.Within := by
    refine .object (forall_members (fun s => .string s) ?_)
    simp only [d, List.forall_mem_singleton]
    refine .array ?_
    simp only [List.forall_mem_cons, List.not_mem_nil, false_implies, implies_true, and_true]
    refine ⟨.number _, .object ?_⟩
    simpa using .null
  refine ⟨(encode_roundTrip.1 d hr hf hw).2 (by decide), encode_roundTrip.2.1 _ ⟨("name", .string "b"), ?_, ?_⟩⟩
  · exact List.mem_cons_self ..
  · exact Or.inl (by decide)

end RegistryPublisher.Descriptor
