import RegistryPublisher.Descriptor
import RegistryPublisher.Proofs.Json.Records

/-!
# Reading descriptors

- `Descriptor.ofTree?` is the descriptor that a document holds: its members are taken one after the other;
- `decode_eq_ok_iff`: a text is read as a descriptor exactly when it is a document that holds it.
-/

namespace RegistryPublisher

namespace Json

/-! ## Text fields -/

/-- The text of a field: a string, or nothing when there is `null`. -/
def Tree.text? : Tree → Option String
  | .string s => some s
  | .null => some ""
  | _ => none

namespace Tree

/-- Strings and `null` are read by their first byte. -/
theorem read_text_iff {depth : Nat} {bs rest : Bytes} {s : String} :
    (∃ t, read depth bs = .ok (t, rest) ∧ t.text? = some s) ↔
      ∃ c r, skipBlanks bs = c :: r ∧ ∃ t, readScalar c r = .ok (t, rest) ∧ t.text? = some s := by
  constructor
  · rintro ⟨t, ht, hs⟩
    have key : ∃ inner, read depth bs = readWith inner bs := by
      cases depth with
      | zero => exact ⟨none, rfl⟩
      | succ depth => exact ⟨some (read depth), rfl⟩
    obtain ⟨inner, e⟩ := key
    rcases readWith_cases (e ▸ ht) with ⟨c, r, hb, h⟩ | ⟨item, r, -, ⟨-, ts, -, rfl⟩ | ⟨-, ms, -, rfl⟩⟩
    · exact ⟨c, r, hb, t, h, hs⟩
    · cases hs
    · cases hs
  · rintro ⟨c, r, hb, t, ht, hs⟩
    have ha : c ≠ 0x5b := by rintro rfl; cases ht
    have ho : c ≠ 0x7b := by rintro rfl; cases ht
    refine ⟨t, ?_, hs⟩
    cases depth <;> simp only [read, readWith, hb, if_neg ha, if_neg ho, ht]

end Tree

/-- The scalars that are text. -/
theorem Tree.readScalar_text_iff {c : UInt8} {r rest : Bytes} {s : String} :
    (∃ t, readScalar c r = .ok (t, rest) ∧ t.text? = some s) ↔
      (c = 0x6e ∧ word (Utf8.encode "ull") r = .ok rest ∧ s = "") ∨ (c = 0x22 ∧ readString r = .ok (s, rest)) := by
  constructor
  · rintro ⟨t, ht, hs⟩
    rcases readScalar_cases ht with ⟨hc, hw, rfl⟩ | ⟨-, -, rfl⟩ | ⟨-, -, rfl⟩ | ⟨s', hc, hr, rfl⟩ | ⟨n, -, -, rfl⟩
    · cases hs
      exact Or.inl ⟨hc, hw, rfl⟩
    · cases hs
    · cases hs
    · cases hs
      exact Or.inr ⟨hc, hr⟩
    · cases hs
  · rintro (⟨rfl, hw, rfl⟩ | ⟨rfl, hr⟩)
    · exact ⟨null, by rw [readScalar, if_pos rfl, hw]; rfl, rfl⟩
    · refine ⟨string s, ?_, rfl⟩
      rw [readScalar, if_neg (by decide), if_neg (by decide), if_neg (by decide), if_pos rfl, hr]
      rfl

theorem readTextOrNull_eq_ok_iff {bs rest : Bytes} {s : String} : readTextOrNull bs = .ok (s, rest) ↔
    ∃ c r, skipBlanks bs = c :: r ∧
      ((c = 0x6e ∧ word (Utf8.encode "ull") r = .ok rest ∧ s = "") ∨ (c = 0x22 ∧ readString r = .ok (s, rest))) := by
  rw [readTextOrNull]
  have hidem := skipBlanks_skipBlanks bs
  split
  · next r hb =>
    rw [bind_eq_ok_iff, hb]
    constructor
    · rintro ⟨_, hw, h⟩
      cases h
      exact ⟨_, _, rfl, Or.inl ⟨rfl, hw, rfl⟩⟩
    · rintro ⟨c, r', h, ⟨-, hw, rfl⟩ | ⟨rfl, -⟩⟩
      · cases h
        exact ⟨rest, hw, rfl⟩
      · cases h
  · next hne =>
    rw [readText, readTextAs, hidem]
    constructor
    · intro h
      split at h
      · cases h
      next c r hb =>
      split at h
      · exact ⟨c, r, hb, Or.inr ⟨‹_›, h⟩⟩
      · exact absurd h (mismatch_ne_ok _ _ _ _)
    · rintro ⟨c, r, hb, ⟨rfl, -, -⟩ | ⟨rfl, hr⟩⟩
      · exact absurd hb (hne r)
      · rw [hb]
        exact hr

/-- Texts are read where a document is a string or `null`. -/
theorem readTextOrNull_follows (depth : Nat) : Follows (Tree.read depth) Tree.text? readTextOrNull := by
  intro bs s rest
  rw [readTextOrNull_eq_ok_iff, Tree.read_text_iff]
  simp only [Tree.readScalar_text_iff]

/-! ## Records -/

/-- Objects are read after their bracket, in which one bracket less may be opened. -/
theorem Tree.read_object_iff {depth : Nat} {bs rest : Bytes} {ms : List (String × Tree)} :
    read depth bs = .ok (object ms, rest) ↔
      ∃ inner r, depth = inner + 1 ∧ skipBlanks bs = 0x7b :: r ∧ readMembers (read inner) r = .ok (ms, rest) := by
  have hscalar : ∀ c r, readScalar c r ≠ .ok (object ms, rest) := fun c r h => nomatch readScalar_within h 0
  constructor
  · intro h
    cases depth with
    | zero =>
      rcases readWith_cases h with ⟨c, r, -, hs⟩ | ⟨item, r, hi, -⟩
      · exact absurd hs (hscalar c r)
      · cases hi
    | succ inner =>
      rcases readWith_cases h with ⟨c, r, -, hs⟩ | ⟨item, r, hi, ⟨-, ts, -, ht⟩ | ⟨hb, ns, hns, ht⟩⟩
      · exact absurd hs (hscalar c r)
      · cases ht
      · cases hi
        cases ht
        exact ⟨inner, r, rfl, hb, hns⟩
  · rintro ⟨inner, r, rfl, hb, h⟩
    rw [read, readWith]
    simp only [hb, show ¬((0x7b : UInt8) = 0x5b) by decide, if_false, if_true, h]
    rfl

end Json

namespace Descriptor

open Json (Filling Tree Follows bind_eq_ok_iff)

/-! ## Members -/

/-- The keys of the text fields. -/
def textKeys : List String := ["$schema", "name", "description", "version"]

/-- The descriptor with the given text under each key. -/
def assemble (text : String → String) (extra : List (String × Json)) : Descriptor :=
  ⟨text "$schema", text "name", text "description", text "version", extra⟩

/-- Puts a text into the field of a key. -/
def putText (key s : String) (d : Descriptor) : Descriptor :=
  if key = "$schema" then { d with schema := s }
  else if key = "name" then { d with name := s }
  else if key = "description" then { d with description := s }
  else { d with version := s }

/-- Takes one member: text fields come once and hold text, any other key may hold anything. -/
def take? (f : Filling Descriptor) (m : String × Tree) : Option (Filling Descriptor) :=
  if m.1 ∈ textKeys then
    if m.1 ∈ f.seen then none else m.2.text?.map fun s => ⟨putText m.1 s f.record, m.1 :: f.seen⟩
  else m.2.value?.map fun v => ⟨f.record.withExtra m.1 v, f.seen⟩

/-- The descriptor that a document holds. -/
def ofTree? : Tree → Option Descriptor
  | .object ms => (ms.foldlM take? ⟨empty, []⟩).map Filling.record
  | _ => none

theorem find?_text {key : String} (h : key ∈ textKeys) :
    shape.fields.find? (·.name == key) = some (textField key (putText key)) := by
  simp only [textKeys, List.mem_cons, List.not_mem_nil, or_false] at h
  rcases h with rfl | rfl | rfl | rfl <;> rfl

theorem find?_other {key : String} (h : key ∉ textKeys) : shape.fields.find? (·.name == key) = none := by
  simp only [textKeys, List.mem_cons, List.not_mem_nil, or_false, not_or] at h
  obtain ⟨h1, h2, h3, h4⟩ := h
  simp [shape, textField, Json.Field.of, Ne.symm h1, Ne.symm h2, Ne.symm h3, Ne.symm h4]

theorem readMember_eq_ok_iff {depth : Nat} {key : String} {f g : Filling Descriptor} {bs rest : Bytes} :
    shape.readMember depth key f bs = .ok (g, rest) ↔
      ∃ r t, Json.colon bs = .ok r ∧ Tree.read depth r = .ok (t, rest) ∧ take? f (key, t) = some g := by
  unfold Json.Shape.readMember take?
  by_cases hk : key ∈ textKeys
  · simp only [find?_text hk, if_pos hk]
    by_cases hs : key ∈ f.seen
    · simp only [if_pos hs]
      exact ⟨nofun, fun ⟨_, _, _, _, h⟩ => nomatch h⟩
    · simp only [if_neg hs, bind_eq_ok_iff, Option.map_eq_some_iff]
      constructor
      · rintro ⟨r, hc, x, hx, h⟩
        cases h
        obtain ⟨⟨s, rest'⟩, ht, hx⟩ := bind_eq_ok_iff.1 hx
        cases hx
        obtain ⟨t, ht, hs⟩ := (Json.readTextOrNull_follows depth ..).1 ht
        exact ⟨r, t, hc, ht, s, hs, rfl⟩
      · rintro ⟨r, t, hc, ht, s, hs, rfl⟩
        have hr := (Json.readTextOrNull_follows depth ..).2 ⟨t, ht, hs⟩
        exact ⟨r, hc, (putText key s, rest), bind_eq_ok_iff.2 ⟨_, hr, rfl⟩, rfl⟩
  · simp only [find?_other hk, if_neg hk, bind_eq_ok_iff, Option.map_eq_some_iff]
    constructor
    · rintro ⟨r, hc, x, hx, h⟩
      cases h
      obtain ⟨⟨v, rest'⟩, hv, hx⟩ := bind_eq_ok_iff.1 hx
      cases hx
      obtain ⟨t, ht, hv⟩ := (Tree.readValue_follows depth ..).1 hv
      exact ⟨r, t, hc, ht, v, hv, rfl⟩
    · rintro ⟨r, t, hc, ht, v, hv, rfl⟩
      have hr := (Tree.readValue_follows depth ..).2 ⟨t, ht, hv⟩
      exact ⟨r, hc, (fun d => d.withExtra key v, rest), bind_eq_ok_iff.2 ⟨_, hr, rfl⟩, rfl⟩

/-- The members of a record are those of the document, taken one after the other. -/
theorem readMembersFrom_eq_ok_iff (depth fuel : Nat) : ∀ {first : Bool} {f g : Filling Descriptor} {bs rest : Bytes},
    shape.readMembersFrom depth fuel first f bs = .ok (g, rest) ↔
      ∃ ms, Json.membersFrom (Tree.read depth) fuel first bs = .ok (ms, rest) ∧ ms.foldlM take? f = some g := by
  induction fuel with
  | zero => exact fun {_ _ _ _ _} => ⟨nofun, fun ⟨_, h, _⟩ => nomatch h⟩
  | succ fuel ih =>
    intro first f g bs rest
    rw [Json.Shape.readMembersFrom_succ]
    constructor
    · rintro (⟨hn, rfl⟩ | ⟨r₁, k, r₂, f', r₃, hn, hk, hm, h⟩)
      · exact ⟨[], (Json.membersFrom_succ ..).2 (Or.inl ⟨hn, rfl⟩), rfl⟩
      · obtain ⟨r, t, hc, ht, hf⟩ := readMember_eq_ok_iff.1 hm
        obtain ⟨ms, hms, hg⟩ := ih.1 h
        refine ⟨(k, t) :: ms, ?_, by rw [List.foldlM_cons, hf]; exact hg⟩
        exact (Json.membersFrom_succ ..).2 (Or.inr ⟨r₁, k, r₂, r, t, r₃, ms, hn, hk, hc, ht, hms, rfl⟩)
    · rintro ⟨ms, hms, hg⟩
      rcases (Json.membersFrom_succ ..).1 hms with ⟨hn, rfl⟩ | ⟨r₁, k, r₂, r, t, r₃, ns, hn, hk, hc, ht, hns, rfl⟩
      · cases hg
        exact Or.inl ⟨hn, rfl⟩
      · rw [List.foldlM_cons] at hg
        obtain ⟨f', hf, hg⟩ := Option.bind_eq_some_iff.1 hg
        exact Or.inr ⟨r₁, k, r₂, f', r₃, hn, hk, readMember_eq_ok_iff.2 ⟨r, t, hc, ht, hf⟩, ih.2 ⟨ns, hns, hg⟩⟩

theorem readObject_eq_ok_iff {depth : Nat} {d : Descriptor} {bs rest : Bytes} :
    shape.readObject depth bs = .ok (d, rest) ↔
      ∃ ms, Json.readMembers (Tree.read depth) bs = .ok (ms, rest) ∧ ofTree? (.object ms) = some d := by
  have hnone : ∀ f : Filling Descriptor,
      shape.fields.find? (fun field => field.required && !(f.seen.contains field.name)) = none := fun _ => rfl
  rw [Json.Shape.readObject, bind_eq_ok_iff, Json.readMembers]
  constructor
  · rintro ⟨⟨f, r⟩, hf, h⟩
    simp only [hnone] at h
    cases h
    obtain ⟨ms, hms, hf⟩ := (readMembersFrom_eq_ok_iff ..).1 hf
    exact ⟨ms, hms, by rw [ofTree?]; exact congrArg _ hf⟩
  · rintro ⟨ms, hms, hd⟩
    obtain ⟨f, hf, rfl⟩ := Option.map_eq_some_iff.1 hd
    exact ⟨(f, rest), (readMembersFrom_eq_ok_iff ..).2 ⟨ms, hms, hf⟩, by simp only [hnone]; rfl⟩

theorem read_eq_ok_iff {depth : Nat} {d : Descriptor} {bs rest : Bytes} : shape.read depth bs = .ok (d, rest) ↔
    ∃ inner r, depth = inner + 1 ∧ Json.skipBlanks bs = 0x7b :: r ∧ shape.readObject inner r = .ok (d, rest) := by
  have hp : shape.positional = false := rfl
  unfold Json.Shape.read
  simp only [hp, Bool.and_false, Bool.or_false, decide_eq_true_eq]
  constructor
  · intro h
    split at h
    · cases h
    next c r hb =>
    split at h
    · next hc =>
      subst hc
      cases depth with
      | zero => cases h
      | succ inner => exact ⟨inner, r, rfl, hb, h⟩
    · exact absurd h (Json.mismatch_ne_ok _ _ _ _)
  · rintro ⟨inner, r, rfl, hb, h⟩
    simpa only [hb, if_true] using h

theorem read_follows (depth : Nat) : Follows (Tree.read depth) ofTree? (shape.read depth) := by
  intro bs d rest
  rw [read_eq_ok_iff]
  constructor
  · rintro ⟨inner, r, rfl, hb, h⟩
    obtain ⟨ms, hms, hd⟩ := readObject_eq_ok_iff.1 h
    exact ⟨_, Tree.read_object_iff.2 ⟨inner, r, rfl, hb, hms⟩, hd⟩
  · rintro ⟨t, ht, hd⟩
    cases t with
    | object ms =>
      obtain ⟨inner, r, rfl, hb, hms⟩ := Tree.read_object_iff.1 ht
      exact ⟨inner, r, rfl, hb, readObject_eq_ok_iff.2 ⟨ms, hms, hd⟩⟩
    | _ => cases hd

/-- **Reading descriptors.** A text is read as a descriptor exactly when it is a document that holds it. -/
theorem decode_eq_ok_iff {text : Bytes} {d : Descriptor} :
    decode text = .ok d ↔ ∃ t, Tree.parse text = .ok t ∧ ofTree? t = some d :=
  (read_follows Json.maxDepth).decode

end Descriptor

end RegistryPublisher
