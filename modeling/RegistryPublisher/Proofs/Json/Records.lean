import RegistryPublisher.Json.Record
import RegistryPublisher.Proofs.Json.Rendering

/-!
# Written records

- `Reads.text`, `Reads.name` and `Reads.flag`: a written leaf is read back;
- `Reads.list`: the texts of items between brackets are read as the list of the items;
- `Reads.record`: the members of an object, each read by its field, are read as the record they are put into, when no key
  comes twice and no required field is missing.
-/

namespace RegistryPublisher.Json

variable {α β : Type}

/-- A whole text is read when it is read with nothing behind it. -/
theorem Reads.decode {read : Reader α} {text : Bytes} {v : α} (h : Reads read text v) : decode read text = .ok v := by
  have hread := h.reads [] nofun
  rw [List.append_nil] at hread
  exact decode_eq_ok_iff.2 ⟨[], hread, rfl⟩

/-- A document that is read back is read as what it holds. -/
theorem Follows.reads {base : Reader β} {f : β → Option α} {read : Reader α} (h : Follows base f read) {text : Bytes}
    {t : β} {v : α} (ht : Reads base text t) (hv : f t = some v) : Reads read text v :=
  ⟨fun rest hd => (h ..).2 ⟨t, ht.reads rest hd, hv⟩, ht.starts⟩

/-! ## Leaves -/

theorem starts_renderString (s : String) : Starts (renderString s) := ⟨0x22, _, rfl, by decide⟩

theorem Reads.text (s : String) : Reads readText (renderString s) s := by
  refine ⟨fun rest _ => ?_, starts_renderString s⟩
  rw [renderString_append, readText, readTextAs, skipBlanks_cons (by decide)]
  exact readString_rendered s rest

theorem Reads.name (depth : Nat) (s : String) : Reads (readName depth) (renderString s) s := by
  refine ⟨fun rest _ => ?_, starts_renderString s⟩
  rw [renderString_append, readName, skipBlanks_cons (by decide)]
  exact readString_rendered s rest

theorem Reads.flag (b : Bool) : Reads readFlag (renderBool b) b := by
  cases b with
  | true => exact ⟨fun rest _ => rfl, 0x74, _, rfl, by decide⟩
  | false => exact ⟨fun rest _ => rfl, 0x66, _, rfl, by decide⟩

/-- What is read may be used to compute the value. -/
theorem Reads.map {read : Reader α} {text : Bytes} {v : α} (h : Reads read text v) (f : α → β) :
    Reads (fun bs => do
      let (v, rest) ← read bs
      return (f v, rest)) text (f v) := by
  refine ⟨fun rest hd => ?_, h.starts⟩
  rw [h.reads rest hd]
  rfl

/-- A value of another shape is never accepted. -/
theorem mismatch_ne_ok {α : Type} (wanted : String) (c : UInt8) (r : Bytes) (x : α) :
    mismatch wanted c r ≠ .ok x := by
  unfold mismatch
  split
  · nofun
  split
  · nofun
  · intro h
    obtain ⟨_, -, h⟩ := bind_eq_ok_iff.1 h
    cases h

/-! ## Lists -/

/-- Written items are read as the list of the items. -/
theorem Reads.list {item : Nat → Reader α} {text : α → Bytes} {depth : Nat} {vs : List α}
    (h : ∀ v ∈ vs, Reads (item depth) (text v) v) :
    Reads (readList item (depth + 1)) (0x5b :: (separated (vs.map text) ++ [0x5d])) vs := by
  refine ⟨fun rest _ => ?_, 0x5b, _, rfl, by decide⟩
  have hpairs : ∀ p ∈ vs.map fun v => (text v, v), Reads (item depth) p.1 p.2 := List.forall_mem_map.2 h
  have htexts : (vs.map fun v => (text v, v)).map Prod.fst = vs.map text := List.map_map
  have hvalues : (vs.map fun v => (text v, v)).map Prod.snd = vs := List.map_map.trans (List.map_id vs)
  have hitems := readItems_written hpairs rest
  rw [htexts, hvalues] at hitems
  have e : 0x5b :: (separated (vs.map text) ++ [0x5d]) ++ rest =
      0x5b :: (separated (vs.map text) ++ 0x5d :: rest) := by simp
  rw [e, readList, skipBlanks_cons (by decide)]
  exact hitems

/-! ## Records -/

/-- A member that is written for a record: its key and text, and what reading the text puts into the record. -/
structure Written (α : Type) where
  key : String
  text : Bytes
  put : α → α

namespace Written

/-- The whole member. -/
def render (m : Written α) : Bytes := renderMember m.key m.text

/-- The record with the members put in, one after the other. -/
def fill (ms : List (Written α)) (record : α) : α := ms.foldl (fun record m => m.put record) record

/-- The field of the key reads the text as what is put into the record. -/
def Fits (s : Shape α) (depth : Nat) (m : Written α) : Prop :=
  ∃ field, s.fields.find? (·.name == m.key) = some field ∧ Reads (field.read depth) m.text m.put

theorem render_ne_nil (m : Written α) : m.render ≠ [] :=
  List.append_ne_nil_of_right_ne_nil _ (List.cons_ne_nil _ _)

end Written

/-- A field reads what its reader reads. -/
theorem Reads.field {read : Nat → Reader β} {depth : Nat} {text : Bytes} {v : β} (h : Reads (read depth) text v)
    (name : String) (required : Bool) (put : β → α → α) :
    Reads ((Field.of name required read put).read depth) text (put v) :=
  h.map put

namespace Shape

theorem readMembersFrom_succ (s : Shape α) (depth fuel : Nat) (first : Bool) {f g : Filling α}
    {bs rest : Bytes} : s.readMembersFrom depth (fuel + 1) first f bs = .ok (g, rest) ↔
      (nextKey first bs = .ok (.close rest) ∧ g = f) ∨
      ∃ r₁ k r₂ f' r₃, nextKey first bs = .ok (.more r₁) ∧ readString r₁ = .ok (k, r₂) ∧
        s.readMember depth k f r₂ = .ok (f', r₃) ∧ s.readMembersFrom depth fuel false f' r₃ = .ok (g, rest) := by
  rw [readMembersFrom, bind_eq_ok_iff]
  constructor
  · rintro ⟨next | next, hn, h⟩
    · cases h
      exact Or.inl ⟨hn, rfl⟩
    · obtain ⟨⟨k, r₂⟩, hk, h⟩ := bind_eq_ok_iff.1 h
      obtain ⟨⟨f', r₃⟩, hf, h⟩ := bind_eq_ok_iff.1 h
      exact Or.inr ⟨_, k, r₂, f', r₃, hn, hk, hf, h⟩
  · rintro (⟨hn, rfl⟩ | ⟨r₁, k, r₂, f', r₃, hn, hk, hf, h⟩)
    · exact ⟨_, hn, rfl⟩
    · exact ⟨_, hn, bind_eq_ok_iff.2 ⟨_, hk, bind_eq_ok_iff.2 ⟨_, hf, h⟩⟩⟩

variable {s : Shape α} {depth : Nat}

/-- A field that did not come yet is put into the record. -/
theorem readMember_written {m : Written α} (h : m.Fits s depth) {f : Filling α} (hnew : m.key ∉ f.seen)
    {rest : Bytes} (hd : Delimited rest) :
    s.readMember depth m.key f (0x3a :: (m.text ++ rest)) = .ok (⟨m.put f.record, m.key :: f.seen⟩, rest) := by
  obtain ⟨field, hfield, hread⟩ := h
  have hput := hread.reads rest hd
  simp only [readMember, hfield, if_neg hnew]
  exact bind_eq_ok_iff.2 ⟨_, rfl, bind_eq_ok_iff.2 ⟨_, hput, rfl⟩⟩

/-- The members are put in one after the other; the keys that came are kept, the last one first. -/
theorem readMembersFrom_written {ms : List (Written α)} (h : ∀ m ∈ ms, m.Fits s depth)
    (hkeys : (ms.map Written.key).Nodup) :
    ∀ (first : Bool) (fuel : Nat) (f : Filling α) (rest : Bytes), (∀ m ∈ ms, m.key ∉ f.seen) →
      (sequel first (ms.map Written.render)).length < fuel →
      s.readMembersFrom depth fuel first f (sequel first (ms.map Written.render) ++ 0x7d :: rest) =
        .ok (⟨Written.fill ms f.record, (ms.map Written.key).reverse ++ f.seen⟩, rest) := by
  induction ms with
  | nil =>
    intro first fuel f rest _ hf
    obtain ⟨fuel, rfl⟩ := Nat.exists_eq_succ_of_ne_zero (Nat.ne_zero_of_lt hf)
    exact (readMembersFrom_succ ..).2 (Or.inl ⟨rfl, rfl⟩)
  | cons m ms ih =>
    intro first fuel f rest hnew hf
    obtain ⟨hm, h⟩ := List.forall_mem_cons.1 h
    obtain ⟨hmnew, hnew⟩ := List.forall_mem_cons.1 hnew
    obtain ⟨hne, hkeys⟩ := List.nodup_cons.1 hkeys
    rw [List.map_cons] at hf ⊢
    obtain ⟨fuel, rfl⟩ := Nat.exists_eq_succ_of_ne_zero (Nat.ne_zero_of_lt hf)
    have hlt := length_sequel_lt m.render_ne_nil (ms.map Written.render) first
    have hd := delimited_sequel (ms.map Written.render) (Or.inr rfl) rest
    have hn := nextKey_written m.key m.text first (ms.map Written.render) rest
    have hk := readString_rendered m.key (0x3a :: (m.text ++ (sequel false (ms.map Written.render) ++ 0x7d :: rest)))
    have hnew' : ∀ n ∈ ms, n.key ∉ m.key :: f.seen := by
      intro n hn hmem
      rcases List.mem_cons.1 hmem with he | hseen
      · exact hne (List.mem_map.2 ⟨n, hn, he⟩)
      · exact hnew n hn hseen
    have hrest := ih h hkeys false fuel ⟨m.put f.record, m.key :: f.seen⟩ rest hnew' (by omega)
    refine (readMembersFrom_succ ..).2 (Or.inr ⟨_, m.key, _, _, _, hn, hk, readMember_written hm hmnew hd, ?_⟩)
    rw [hrest]
    simp [Written.fill]

end Shape

/-- **Written records are read back.** The members may stand in any order. -/
theorem Reads.record {s : Shape α} {depth : Nat} {ms : List (Written α)} (h : ∀ m ∈ ms, m.Fits s depth)
    (hkeys : (ms.map Written.key).Nodup)
    (hrequired : ∀ field ∈ s.fields, field.required = true → field.name ∈ ms.map Written.key) :
    Reads (s.read (depth + 1)) (renderObject (ms.map Written.render)) (Written.fill ms s.blank) := by
  refine ⟨fun rest _ => ?_, 0x7b, _, rfl, by decide⟩
  have e : renderObject (ms.map Written.render) ++ rest = 0x7b :: (sequel true (ms.map Written.render) ++ 0x7d :: rest) := by
    simp [renderObject, separated_eq_sequel]
  have hlength : (sequel true (ms.map Written.render)).length <
      (sequel true (ms.map Written.render) ++ 0x7d :: rest).length + 1 := by
    rw [List.length_append]
    omega
  have hmembers := Shape.readMembersFrom_written h hkeys true _ ⟨s.blank, []⟩ rest (fun _ _ => List.not_mem_nil) hlength
  have hcomplete : s.fields.find? (fun field => field.required &&
      !(((ms.map Written.key).reverse ++ []).contains field.name)) = none := by
    refine List.find?_eq_none.2 fun field hf => ?_
    have := hrequired field hf
    simpa using this
  rw [e, Shape.read, skipBlanks_cons (by decide)]
  change s.readObject depth _ = _
  refine bind_eq_ok_iff.2 ⟨_, hmembers, ?_⟩
  dsimp only
  rw [hcomplete]
  rfl

end RegistryPublisher.Json
