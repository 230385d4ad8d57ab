import RegistryPublisher.Proofs.Descriptor.Shape
import RegistryPublisher.Proofs.Json.Held
import RegistryPublisher.Proofs.Positional

/-!
# Receipts that are read back

- `Receipt.Parts` are the descriptor and the registry's own data in a document; `decode_eq_ok_iff`: a document is read as a
  receipt exactly when these two hold it, and nothing else in it matters;
- `Receipt.Representable`, `FloatFree` and `Within`: the receipts whose encoding is a document that denotes them, as what
  was read is, up to doubles (`representable_of_decode`, `within_of_decode`);
- `decode_encode`: such a receipt is read back, without data that are `null`;
- `encode_survives`: so a receipt survives its encoding exactly when its data are not `null`, as in any that was read.
-/

namespace RegistryPublisher.Receipt

open Json (Form Tree Accepts Reads Written Shape)

variable {text : Bytes} {r : Receipt}

/-! ## Which documents are receipts -/

/-- What the value of a member does to a receipt, if it is a document. -/
def formValue? (key : String) (f : Form) : Option (Receipt → Receipt) := (f.tree? 126).bind (treeValue? key)

theorem readsForms : shape.ReadsForms formValue? 126 :=
  ⟨fun field hfield => (fields_follow 126 field hfield).accepts (Tree.read_accepts 126), rfl⟩

theorem present?_eq_some_iff {v w : Json} : present? v = some w ↔ v = w ∧ w ≠ .null := by
  cases v <;> cases w <;> simp [present?]

/-- The form of the descriptor in a receipt. -/
def IsServer (f : Form) (d : Descriptor) : Prop := ∃ t : Tree, f = t.form ∧ t.Within 126 ∧ Descriptor.ofTree? t = some d

/-- The form of the registry's own data in a receipt, if there is one; `null` stands for no data. -/
def IsMetadata : Option Form → Option Json → Prop
  | none, m => m = none
  | some f, m => ∃ (t : Tree) (v : Json), f = t.form ∧ t.Within 126 ∧ t.value? = some v ∧ m = present? v

theorem formValue?_server_iff {f : Form} {put : Receipt → Receipt} : formValue? "server" f = some put ↔
    ∃ d, IsServer f d ∧ (fun r => { r with server := d }) = put := by
  simp only [formValue?, treeValue?, if_true, Option.bind_eq_some_iff, Form.tree?_eq_some_iff, Option.map_eq_some_iff,
    IsServer]
  tauto

theorem formValue?_metadata_iff {f : Form} {put : Receipt → Receipt} : formValue? "_meta" f = some put ↔
    ∃ m, IsMetadata (some f) m ∧ (fun r => { r with metadata := m }) = put := by
  have hkey : "_meta" ≠ "server" := by decide
  simp only [formValue?, treeValue?, if_neg hkey, if_true, Option.bind_eq_some_iff, Form.tree?_eq_some_iff,
    Option.map_eq_some_iff, IsMetadata]
  tauto

/-- The parts of a document that is a receipt: the form of the descriptor, and that of the registry's own data. -/
inductive Parts : Form → Form → Option Form → Prop
  | object {ms : List (Option String × Form)} {f : Form} {m : Option Form} (keys : Form.KeysDenote ms)
      (server : Form.valuesAt "server" ms = [f]) (metadata : Form.valuesAt "_meta" ms = m.toList) : Parts (.object ms) f m
  | array (f : Form) (m : Option Form) : Parts (.array (f :: m.toList)) f m

theorem ofMembers?_eq_some_iff {ms : List (Option String × Form)} : shape.ofMembers? formValue? ms = some r ↔
    ∃ f m, Parts (.object ms) f m ∧ IsServer f r.server ∧ IsMetadata m r.metadata := by
  have hcommute : ∀ {f g : Form} {put put' : Receipt → Receipt}, formValue? "server" f = some put →
      formValue? "_meta" g = some put' → put (put' shape.blank) = put' (put shape.blank) := by
    intro f g put put' hput hput'
    obtain ⟨d, -, rfl⟩ := formValue?_server_iff.1 hput
    obtain ⟨m, -, rfl⟩ := formValue?_metadata_iff.1 hput'
    rfl
  obtain ⟨server, metadata⟩ := r
  rw [@Shape.ofMembers?_pair _ shape formValue? ms _ _ rfl (by decide) rfl rfl hcommute]
  constructor
  · rintro ⟨hkeys, f, put, hf, hput, hrest⟩
    obtain ⟨d, hd, rfl⟩ := formValue?_server_iff.1 hput
    rcases hrest with ⟨hnone, hr⟩ | ⟨g, put', hg, hput', hr⟩
    · cases hr
      exact ⟨f, none, .object hkeys hf hnone, hd, rfl⟩
    · obtain ⟨m, hm, rfl⟩ := formValue?_metadata_iff.1 hput'
      cases hr
      exact ⟨f, some g, .object hkeys hf hg, hd, hm⟩
  · rintro ⟨f, m, ⟨hkeys, hf, hg⟩, hd, hm⟩
    refine ⟨hkeys, f, _, hf, formValue?_server_iff.2 ⟨_, hd, rfl⟩, ?_⟩
    cases m with
    | none =>
      cases hm
      exact Or.inl ⟨hg, rfl⟩
    | some g => exact Or.inr ⟨g, _, hg, formValue?_metadata_iff.2 ⟨_, hm, rfl⟩, rfl⟩

theorem ofItems?_eq_some_iff {fs : List Form} : Shape.ofItems? formValue? shape.fields fs shape.blank = some r ↔
    ∃ f m, Parts (.array fs) f m ∧ IsServer f r.server ∧ IsMetadata m r.metadata := by
  obtain ⟨server, metadata⟩ := r
  rw [shape, Shape.ofItems?_pair]
  constructor
  · rintro (⟨-, h, -⟩ | ⟨f, put, rfl, hput, -, hr⟩ | ⟨f, g, put, put', rfl, hput, hput', hr⟩)
    · cases h
    · obtain ⟨d, hd, rfl⟩ := formValue?_server_iff.1 hput
      cases hr
      exact ⟨f, none, .array f none, hd, rfl⟩
    · obtain ⟨d, hd, rfl⟩ := formValue?_server_iff.1 hput
      obtain ⟨m, hm, rfl⟩ := formValue?_metadata_iff.1 hput'
      cases hr
      exact ⟨f, some g, .array f (some g), hd, hm⟩
  · rintro ⟨f, m, hparts, hd, hm⟩
    have hput := formValue?_server_iff.2 ⟨server, hd, rfl⟩
    cases hparts
    cases m with
    | none =>
      cases hm
      exact Or.inr (Or.inl ⟨f, _, rfl, hput, rfl, rfl⟩)
    | some g =>
      exact Or.inr (Or.inr ⟨f, g, _, _, rfl, hput, formValue?_metadata_iff.2 ⟨metadata, hm, rfl⟩, rfl⟩)

/-- **Which documents are receipts**: those with a descriptor and perhaps data of the registry as their parts. -/
theorem decode_eq_ok_iff : decode text = .ok r ↔
    ∃ f g m, f.Text text ∧ Parts f g m ∧ IsServer g r.server ∧ IsMetadata m r.metadata := by
  have hread : decode text = .ok r ↔ _ := (Accepts.record readsForms).decode
  have hform : ∀ f, shape.ofForm? formValue? f = some r ↔
      ∃ g m, Parts f g m ∧ IsServer g r.server ∧ IsMetadata m r.metadata := by
    intro f
    cases f with
    | object ms => exact ofMembers?_eq_some_iff
    | array fs => exact ofItems?_eq_some_iff
    | _ => exact ⟨nofun, fun ⟨_, _, h, _⟩ => nomatch h⟩
  simp only [hread, hform, exists_and_left]

/-! ## What does not matter -/

section Same

variable {f f' : Form} {before after : List (Option String × Form)} {text' : Bytes}

theorem isMetadata_null {m : Option Json} : IsMetadata (some .null) m ↔ m = none := by
  constructor
  · rintro ⟨t, v, ht, -, hv, rfl⟩
    obtain rfl : t = .null := Tree.form_injective (ht.symm.trans (by rw [Tree.form]))
    cases hv
    rfl
  · rintro rfl
    exact ⟨.null, .null, by rw [Tree.form], .null, rfl, rfl⟩

/-- Data that are `null` are like none. -/
theorem exists_isMetadata_null_iff {v : Option Json} :
    (∃ m, [.null] = Option.toList m ∧ IsMetadata m v) ↔ ∃ m, [] = Option.toList m ∧ IsMetadata m v := by
  constructor
  · rintro ⟨m, hm, hv⟩
    cases m with
    | none => cases hm
    | some f =>
      cases hm
      exact ⟨none, rfl, isMetadata_null.1 hv⟩
  · rintro ⟨m, hm, hv⟩
    cases m with
    | none => exact ⟨some .null, rfl, isMetadata_null.2 hv⟩
    | some f => cases hm

/-- Two forms have the same descriptor, and the same data of the registry. -/
def Same (f f' : Form) : Prop :=
  ∀ g v, (∃ m, Parts f g m ∧ IsMetadata m v) ↔ ∃ m, Parts f' g m ∧ IsMetadata m v

/-- What a document holds besides its parts is passed over. -/
theorem Same.decode_iff (h : Same f f') (hf : f.Text text) (hf' : f'.Text text') :
    decode text = .ok r ↔ decode text' = .ok r := by
  have hparts : ∀ {f text}, f.Text text → (decode text = .ok r ↔
      ∃ g, (∃ m, Parts f g m ∧ IsMetadata m r.metadata) ∧ IsServer g r.server) := by
    intro f text hf
    rw [decode_eq_ok_iff]
    constructor
    · rintro ⟨f', g, m, hf', hparts, hserver, hmetadata⟩
      cases hf.unique hf'
      exact ⟨g, ⟨m, hparts, hmetadata⟩, hserver⟩
    · rintro ⟨g, ⟨m, hparts, hmetadata⟩, hserver⟩
      exact ⟨f, g, m, hf, hparts, hserver, hmetadata⟩
  rw [hparts hf, hparts hf']
  exact exists_congr fun g => and_congr_left fun _ => h g r.metadata

theorem parts_object_iff {ms : List (Option String × Form)} {g : Form} {m : Option Form} : Parts (.object ms) g m ↔
    Form.KeysDenote ms ∧ Form.valuesAt "server" ms = [g] ∧ Form.valuesAt "_meta" ms = m.toList := by
  constructor
  · rintro ⟨hkeys, hserver, hmetadata⟩
    exact ⟨hkeys, hserver, hmetadata⟩
  · rintro ⟨hkeys, hserver, hmetadata⟩
    exact .object hkeys hserver hmetadata

theorem parts_array_iff {fs : List Form} {g : Form} {m : Option Form} : Parts (.array fs) g m ↔ fs = g :: m.toList := by
  constructor
  · rintro ⟨⟩
    rfl
  · rintro rfl
    exact .array g m

/-- A member with an unknown key is no part of a receipt. -/
theorem same_insert {key : String} (hserver : key ≠ "server") (hmetadata : key ≠ "_meta") (f : Form) :
    Same (.object (before ++ (some key, f) :: after)) (.object (before ++ after)) := by
  intro g v
  simp only [parts_object_iff, Form.keysDenote_insert, Form.valuesAt_other hserver, Form.valuesAt_other hmetadata]

theorem same_null (h : Form.valuesAt "_meta" (before ++ after) = []) :
    Same (.object (before ++ (some "_meta", .null) :: after)) (.object (before ++ after)) := by
  have hne : "_meta" ≠ "server" := by decide
  have hnull : Form.valuesAt "_meta" (before ++ (some "_meta", .null) :: after) = [.null] := by
    obtain ⟨hbefore, hafter⟩ := List.append_eq_nil_iff.1 (Form.valuesAt_append.symm.trans h)
    rw [Form.valuesAt_same, hbefore, hafter]
    rfl
  intro g v
  simp only [parts_object_iff, Form.keysDenote_insert, Form.valuesAt_other hne, hnull, h, and_assoc, exists_and_left,
    exists_isMetadata_null_iff]

theorem same_null_item (f : Form) : Same (.array [f, .null]) (.array [f]) := by
  intro g v
  simp only [parts_array_iff, List.cons.injEq, and_assoc, exists_and_left, exists_isMetadata_null_iff]

end Same

/-! ## Written receipts -/

/-- The members of a written receipt. -/
def members (r : Receipt) : List (String × Json) :=
  ("server", .object r.server.members) :: (r.metadata.map ("_meta", ·)).toList

/-- The encoding is a rendering. -/
theorem encode_eq_render (r : Receipt) : r.encode = (Json.object r.members).render := by
  obtain ⟨server, metadata⟩ := r
  rw [encode, Descriptor.encode_eq_render]
  cases metadata <;> rfl

/-- The values in a receipt can be held. -/
structure Representable (r : Receipt) : Prop where
  server : r.server.Representable
  metadata : ∀ v ∈ r.metadata, v.Representable

/-- There are no doubles in a receipt. -/
structure FloatFree (r : Receipt) : Prop where
  server : r.server.FloatFree
  metadata : ∀ v ∈ r.metadata, v.FloatFree

/-- The encoding has no more brackets open at a time than readers allow. -/
def Within (r : Receipt) : Prop := (Json.object r.members).Within Json.maxDepth

theorem within_iff : r.Within ↔ (∀ m ∈ r.server.members, m.2.Within 125) ∧ ∀ v ∈ r.metadata, v.Within 126 := by
  have hdepth : r.Within ↔ ∀ m ∈ r.members, m.2.Within 126 := Json.within_object_iff
  rw [hdepth, members, List.forall_mem_cons, Json.within_object_iff]
  simp

/-- The members a receipt is written with. -/
def written (r : Receipt) : List (Written Receipt) :=
  ⟨"server", r.server.encode, fun x => { x with server := r.server }⟩ ::
    (r.metadata.map fun v => ⟨"_meta", v.render, fun x => { x with metadata := present? v }⟩).toList

theorem encode_eq_written (r : Receipt) : r.encode = Json.renderObject (r.written.map Written.render) := by
  obtain ⟨server, metadata⟩ := r
  cases metadata <;> rfl

theorem fill_written (r : Receipt) : Written.fill r.written shape.blank = { r with metadata := r.metadata.bind present? } := by
  obtain ⟨server, metadata⟩ := r
  cases metadata <;> rfl

section Back

variable (hr : r.Representable) (hf : r.FloatFree) (hw : r.Within) (hk : ∀ m ∈ r.server.extra, m.1 ∉ Descriptor.textKeys)
include hr hf hw hk

theorem written_fits : ∀ m ∈ r.written, m.Fits shape 126 := by
  obtain ⟨hserver, hmetadata⟩ := within_iff.1 hw
  intro m hm
  rcases List.mem_cons.1 hm with rfl | hm
  · refine ⟨_, rfl, ?_⟩
    have hreads := Descriptor.reads hr.server hf.server (fun m hm => hserver m (List.mem_append_right _ hm)) hk
    exact hreads.field "server" true _
  · obtain ⟨v, hv, rfl⟩ := Option.map_eq_some_iff.1 (Option.mem_toList.1 hm)
    refine ⟨_, rfl, ?_⟩
    have hplain := (hf.metadata v hv).plain (hr.metadata v hv) (hmetadata v hv)
    obtain ⟨t, ht⟩ := hplain.spelled (hr.metadata v hv).sorted
    refine (fields_follow 126 _ (List.mem_cons_of_mem _ (List.mem_singleton_self _))).reads ht.toReads ?_
    change Option.map _ (Option.map _ t.value?) = _
    rw [ht.value]
    rfl

/-- A receipt is read back without data that are `null`. -/
theorem decode_encode : decode r.encode = .ok { r with metadata := r.metadata.bind present? } := by
  have hkeys : r.written.map Written.key = ["server"] ∨ r.written.map Written.key = ["server", "_meta"] := by
    unfold written
    cases r.metadata <;> simp
  have hnodup : (r.written.map Written.key).Nodup := by
    rcases hkeys with h | h <;> simp [h]
  have hrequired : ∀ field ∈ shape.fields, field.required = true → field.name ∈ r.written.map Written.key := by
    rcases hkeys with h | h <;> simp [h, shape, Json.Field.of]
  have hreads := Reads.record (written_fits hr hf hw hk) hnodup hrequired
  rw [← encode_eq_written, fill_written] at hreads
  exact hreads.decode

end Back

/-! ## What was read -/

/-- Data of the registry come from a document, and are not `null`. -/
theorem IsMetadata.exists_tree {m : Option Form} {v : Json} (h : IsMetadata m (some v)) :
    v ≠ .null ∧ ∃ t : Tree, m = some t.form ∧ t.Within 126 ∧ t.value? = some v := by
  cases m with
  | none => cases h
  | some f =>
    obtain ⟨t, w, rfl, hw, hvalue, hv⟩ := h
    obtain ⟨rfl, hne⟩ := present?_eq_some_iff.1 hv.symm
    exact ⟨hne, t, rfl, hw, hvalue⟩

section Decoded

variable (h : decode text = .ok r)
include h

theorem keys_of_decode : ∀ m ∈ r.server.extra, m.1 ∉ Descriptor.textKeys := by
  obtain ⟨-, -, -, -, -, ⟨t, -, hw, hof⟩, -⟩ := decode_eq_ok_iff.1 h
  intro m hm
  obtain ⟨-, hk, -⟩ := Descriptor.exists_of_mem_ofTree? hw hof hm
  exact hk

theorem metadata_of_decode : r.metadata ≠ some .null := by
  obtain ⟨-, -, m, -, -, -, hm⟩ := decode_eq_ok_iff.1 h
  intro hnull
  rw [hnull] at hm
  exact hm.exists_tree.1 rfl

theorem representable_of_decode : r.Representable := by
  obtain ⟨-, -, m, -, -, ⟨t, -, hw, hof⟩, hm⟩ := decode_eq_ok_iff.1 h
  refine ⟨Descriptor.representable_of_ofTree? hw hof, fun v hv => ?_⟩
  rw [Option.mem_def.1 hv] at hm
  obtain ⟨-, u, -, hu, hvalue⟩ := hm.exists_tree
  exact (hu.value? hvalue).1

theorem within_of_decode : r.Within := by
  obtain ⟨-, -, m, -, -, ⟨t, -, hw, hof⟩, hm⟩ := decode_eq_ok_iff.1 h
  refine within_iff.2 ⟨Descriptor.within_of_ofTree? hw hof, fun v hv => ?_⟩
  rw [Option.mem_def.1 hv] at hm
  obtain ⟨-, u, -, hu, hvalue⟩ := hm.exists_tree
  exact (hu.value? hvalue).2

end Decoded

/-- The descriptor of a receipt keeps the last members of all keys that are no text fields. -/
theorem IsServer.mem_extra_iff {f : Form} {d : Descriptor} (h : IsServer f d) : ∃ ts, f = (Tree.object ts).form ∧
    ∀ k v, (k, v) ∈ d.extra ↔ k ∉ Descriptor.textKeys ∧ ∃ before u after, ts = before ++ (k, u) :: after ∧
      k ∉ after.map Prod.fst ∧ u.value? = some v := by
  obtain ⟨t, rfl, -, hof⟩ := h
  obtain ⟨ts, vs, rfl, -, hvs, rfl⟩ := Descriptor.ofTree?_eq_some_iff.1 hof
  exact ⟨ts, rfl, fun k v => Descriptor.mem_extra_iff hvs⟩

/-- **Receipts survive their encoding.** A receipt whose values can be held, with no doubles and no text field among the
other members of its descriptor, is read back from its encoding exactly when the registry's data in it are not `null`.
Every receipt that was read is like this, up to doubles. Where the registry's data are `null` they are read as if they were
missing, and members with unknown keys are passed over. The descriptor keeps all its members with other keys than its
text fields, also one with the key of the registry's data; these are the value of this key in the receipt itself. -/
theorem encode_survives :
    (∀ r : Receipt, r.Representable → r.FloatFree → r.Within → (∀ m ∈ r.server.extra, m.1 ∉ Descriptor.textKeys) →
      (decode r.encode = .ok r ↔ r.metadata ≠ some .null)) ∧
    (∀ text r, decode text = .ok r → r.Representable ∧ r.Within ∧ (∀ m ∈ r.server.extra, m.1 ∉ Descriptor.textKeys) ∧
      r.metadata ≠ some .null) ∧
    (∀ before after text text', Form.valuesAt "_meta" (before ++ after) = [] →
      (Form.object (before ++ (some "_meta", .null) :: after)).Text text → (Form.object (before ++ after)).Text text' →
      ∀ r, decode text = .ok r ↔ decode text' = .ok r) ∧
    (∀ f text text', (Form.array [f, .null]).Text text → (Form.array [f]).Text text' →
      ∀ r, decode text = .ok r ↔ decode text' = .ok r) ∧
    (∀ before after key f text text', key ≠ "server" → key ≠ "_meta" →
      (Form.object (before ++ (some key, f) :: after)).Text text → (Form.object (before ++ after)).Text text' →
      ∀ r, decode text = .ok r ↔ decode text' = .ok r) ∧
    ∀ text r, decode text = .ok r → ∃ f g m, f.Text text ∧ Parts f g m ∧
      (∃ ts, g = (Tree.object ts).form ∧ ∀ k v, (k, v) ∈ r.server.extra ↔ k ∉ Descriptor.textKeys ∧
        ∃ before u after, ts = before ++ (k, u) :: after ∧ k ∉ after.map Prod.fst ∧ u.value? = some v) ∧
      IsMetadata m r.metadata := by
  refine ⟨?back, ?decoded, ?null, ?nullItem, ?unknown, ?kept⟩
  case back =>
    intro r hr hf hw hk
    rw [decode_encode hr hf hw hk, Except.ok.injEq]
    obtain ⟨server, metadata⟩ := r
    simp only [mk.injEq, true_and]
    cases metadata with
    | none => simp
    | some v => simp [present?_eq_some_iff]
  case decoded =>
    intro text r h
    exact ⟨representable_of_decode h, within_of_decode h, keys_of_decode h, metadata_of_decode h⟩
  case null =>
    intro before after text text' hnone htext htext' r
    exact (same_null hnone).decode_iff htext htext'
  case nullItem =>
    intro f text text' htext htext' r
    exact (same_null_item f).decode_iff htext htext'
  case unknown =>
    intro before after key f text text' hserver hmetadata htext htext' r
    exact (same_insert hserver hmetadata f).decode_iff htext htext'
  case kept =>
    intro text r h
    obtain ⟨f, g, m, htext, hparts, hserver, hmetadata⟩ := decode_eq_ok_iff.1 h
    exact ⟨f, g, m, htext, hparts, hserver.mem_extra_iff, hmetadata⟩

/-- A receipt with `_meta` in its descriptor and its own data is read back, and with `null` for its data it is not. -/
theorem encode_survives_nested :
    let d : Descriptor := ⟨"", "a", "", "1", [("_meta", .bool true)]⟩
    decode (encode ⟨d, some (.array [.null])⟩) = .ok ⟨d, some (.array [.null])⟩ ∧
      decode (encode ⟨d, some .null⟩) ≠ .ok ⟨d, some .null⟩ := by
  intro d
  have hr : d.Representable := ⟨List.pairwise_singleton .., List.forall_mem_singleton.2 (.bool true)⟩
  have hf : d.FloatFree := List.forall_mem_singleton.2 (.bool true)
  have hw : ∀ m ∈ d.members, m.2.Within 125 :=
    Descriptor.forall_members (fun s => .string s) (List.forall_mem_singleton.2 (.bool true))
  have hk : ∀ m ∈ d.extra, m.1 ∉ Descriptor.textKeys := List.forall_mem_singleton.2 (by decide)
  have hback : ∀ v : Json, v.Representable → v.FloatFree → v.Within 126 →
      (decode (encode ⟨d, some v⟩) = .ok ⟨d, some v⟩ ↔ some v ≠ some .null) := by
    intro v hvr hvf hvw
    refine encode_survives.1 ⟨d, some v⟩ ⟨hr, ?_⟩ ⟨hf, ?_⟩ (within_iff.2 ⟨hw, ?_⟩) hk <;> simpa
  refine ⟨(hback _ (.array ?_) (.array ?_) (.array ?_)).2 nofun, fun h => ?_⟩
  · exact List.forall_mem_singleton.2 .null
  · exact List.forall_mem_singleton.2 .null
  · exact List.forall_mem_singleton.2 .null
  · exact (hback .null .null .null .null).1 h rfl

end RegistryPublisher.Receipt
