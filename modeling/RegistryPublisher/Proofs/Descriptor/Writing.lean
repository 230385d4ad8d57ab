import RegistryPublisher.Proofs.Descriptor.Content
import RegistryPublisher.Proofs.Json.Rendering

/-!
# Writing descriptors

- `Descriptor.members`: the members of a written descriptor, in the order of the text;
- `encode_eq_render`: the canonical form is the rendering of the object with these members;
- `reads_encode` and `parse_encode`: so it is read back as a document with these members, if the other values are plain
  and sorted.
-/

namespace RegistryPublisher.Descriptor

open Json (Tree)

/-- The keys of the fields that are always written. -/
def writtenKeys : List String := ["name", "description", "version"]

/-- The schema, when there is one. -/
def schemaMember (d : Descriptor) : List (String × Json) :=
  if d.schema.isEmpty then [] else [("$schema", .string d.schema)]

/-- The members of a written descriptor. -/
def members (d : Descriptor) : List (String × Json) :=
  d.schemaMember ++ [("name", .string d.name), ("description", .string d.description), ("version", .string d.version)]
    ++ d.extra

/-- The canonical form is a rendering. -/
theorem encode_eq_render (d : Descriptor) : d.encode = Json.render (.object d.members) := by
  have hs : Json.renderMembers d.schemaMember = d.schemaMembers := by
    unfold schemaMember schemaMembers
    split <;> rfl
  rw [encode, Json.renderObject, Json.render, members, Json.renderMembers_append, Json.renderMembers_append, hs]
  rfl

/-- A value that may stand below the bracket of a descriptor: it is written without loss and stays within the depth
that readers allow. -/
structure Writable (v : Json) : Prop where
  plain : v.Plain (Json.maxDepth - 1)
  sorted : v.Sorted

theorem forall_members {P : Json → Prop} {d : Descriptor} (hs : ∀ s, P (.string s)) (h : ∀ m ∈ d.extra, P m.2) :
    ∀ m ∈ d.members, P m.2 := by
  intro m hm
  rcases List.mem_append.1 hm with hm | hm
  · rcases List.mem_append.1 hm with hm | hm
    · unfold schemaMember at hm
      split at hm
      · cases hm
      · rw [List.mem_singleton.1 hm]
        exact hs _
    · simp only [List.mem_cons, List.not_mem_nil, or_false] at hm
      rcases hm with rfl | rfl | rfl <;> exact hs _
  · exact h m hm

/-- A written descriptor is read back as a document with the members of the descriptor. -/
theorem reads_encode {d : Descriptor} {depth : Nat} (h : ∀ m ∈ d.extra, m.2.Plain depth ∧ m.2.Sorted) :
    ∃ ts, Json.Reads (Tree.read (depth + 1)) d.encode (.object ts) ∧ Tree.members? ts = some d.members ∧
      ∀ m ∈ ts, m.2.KeysIncrease := by
  have hall := forall_members (P := fun v => v.Plain depth ∧ v.Sorted) (fun s => ⟨.string s, .string s⟩) h
  obtain ⟨ts, hts, hks, hread⟩ := Json.members_spelled fun m hm => (hall m hm).1.spelled (hall m hm).2
  have hstart : d.encode = 0x7b :: (Json.separated (Json.renderMembers d.members) ++ [0x7d]) := by
    rw [encode_eq_render]
    rfl
  refine ⟨ts, ⟨fun rest _ => ?_, 0x7b, _, hstart, by decide⟩, hts, hks⟩
  refine Tree.read_object_iff.2 ⟨depth, _, rfl, ?_, hread rest⟩
  rw [hstart, List.cons_append, List.append_assoc]
  rfl

theorem parse_encode {d : Descriptor} (h : ∀ m ∈ d.extra, Writable m.2) : ∃ ts, Tree.parse d.encode = .ok (.object ts) ∧
    Tree.members? ts = some d.members ∧ ∀ m ∈ ts, m.2.KeysIncrease := by
  obtain ⟨ts, hreads, hts, hks⟩ := reads_encode fun m hm => ⟨(h m hm).plain, (h m hm).sorted⟩
  exact ⟨ts, hreads.decode, hts, hks⟩

/-! ## Finding members -/

section Finding

variable {d : Descriptor}

theorem find?_schemaMember (k : String) : Members.find? k d.schemaMember =
    if k = "$schema" ∧ d.schema ≠ "" then some (.string d.schema) else none := by
  unfold schemaMember
  split
  · next h => simp [Members.find?, String.isEmpty_iff.1 h]
  · next h =>
    have hne : d.schema ≠ "" := fun e => h (String.isEmpty_iff.2 e)
    rw [Members.find?_cons]
    by_cases hk : "$schema" = k
    · rw [if_pos hk, if_pos ⟨hk.symm, hne⟩]
    · rw [if_neg hk, if_neg fun h => hk h.1.symm]
      rfl

theorem schemaMember_keys : d.schemaMember.map Prod.fst = if d.schema = "" then [] else ["$schema"] := by
  unfold schemaMember
  by_cases h : d.schema = "" <;> simp [h]

theorem members_keys : d.members.map Prod.fst =
    (if d.schema = "" then [] else ["$schema"]) ++ writtenKeys ++ d.extra.map Prod.fst := by
  rw [members, List.map_append, List.map_append, schemaMember_keys]
  rfl

/-- Keys are written once when no text field hides among the others. -/
theorem members_nodup (ho : Members.Ordered d.extra) (hk : ∀ m ∈ d.extra, m.1 ∉ textKeys) :
    (d.members.map Prod.fst).Nodup := by
  have hfixed : ∀ k ∈ (if d.schema = "" then [] else ["$schema"]) ++ writtenKeys, k ∈ textKeys := by
    split <;> decide
  rw [members_keys]
  refine List.nodup_append.2 ⟨by split <;> decide, Members.nodup_of_ordered ho, ?_⟩
  rintro a ha b hb rfl
  obtain ⟨m, hm, e⟩ := List.mem_map.1 hb
  exact hk m hm (e ▸ hfixed a ha)

/-- What is found in the value of a written descriptor. -/
theorem find?_members (ho : Members.Ordered d.extra) (hk : ∀ m ∈ d.extra, m.1 ∉ textKeys) (k : String) :
    Members.find? k (Members.ofList d.members) = Members.find? k d.members := by
  rw [Members.find?_ofList, Members.find?_reverse (members_nodup ho hk)]

theorem find?_members_other {k : String} (h : k ∉ textKeys) :
    Members.find? k d.members = Members.find? k d.extra := by
  simp only [textKeys, List.mem_cons, List.not_mem_nil, or_false, not_or] at h
  obtain ⟨h1, h2, h3, h4⟩ := h
  rw [members, Members.find?_append, Members.find?_append, find?_schemaMember, if_neg fun h => h1 h.1,
    Members.find?_cons, if_neg (Ne.symm h2), Members.find?_cons, if_neg (Ne.symm h3), Members.find?_cons,
    if_neg (Ne.symm h4)]
  rfl

theorem find?_members_schema (hk : ∀ m ∈ d.extra, m.1 ∉ textKeys) : Members.find? "$schema" d.members =
    if d.schema = "" then none else some (.string d.schema) := by
  have hextra : Members.find? "$schema" d.extra = none := by
    refine Members.find?_eq_none_iff.2 fun hmem => ?_
    obtain ⟨m, hm, e⟩ := List.mem_map.1 hmem
    exact hk m hm (by rw [e]; decide)
  rw [members, Members.find?_append, Members.find?_append, find?_schemaMember, hextra]
  by_cases h : d.schema = "" <;> simp [h, Members.find?]

theorem find?_members_text (text : String → String) (extra : List (String × Json)) {k : String} (h : k ∈ writtenKeys) :
    Members.find? k (assemble text extra).members = some (.string (text k)) := by
  have hs : k ≠ "$schema" := by rintro rfl; revert h; decide
  rw [members, Members.find?_append, Members.find?_append, find?_schemaMember, if_neg fun h => hs h.1]
  simp only [writtenKeys, List.mem_cons, List.not_mem_nil, or_false] at h
  rcases h with rfl | rfl | rfl <;> rfl

end Finding

end RegistryPublisher.Descriptor
