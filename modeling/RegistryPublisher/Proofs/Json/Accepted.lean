import RegistryPublisher.Proofs.Json.Records
import RegistryPublisher.Proofs.Json.Skipping

/-!
# Forms that readers accept

- `Accepts read g`: what the reader accepts are the values whose form `g` has a result for, which is what is read;
- `Accepts.text`, `Accepts.flag`, `Accepts.name` and `Accepts.list`: strings, booleans, names and arrays.
-/

namespace RegistryPublisher.Json

variable {α β : Type}

/-- The values that the reader accepts are those whose form has a result, and this is what it gives. -/
def Accepts (read : Reader α) (g : Form → Option α) : Prop :=
  ∀ bs v rest, read bs = .ok (v, rest) ↔ ∃ f, Spans (.value f) bs rest ∧ g f = some v

theorem Accepts.decode {read : Reader α} {g : Form → Option α} (h : Accepts read g) {text : Bytes} {v : α} :
    decode read text = .ok v ↔ ∃ f : Form, f.Text text ∧ g f = some v := by
  rw [decode_eq_ok_iff]
  constructor
  · rintro ⟨rest, hread, hend⟩
    obtain ⟨f, hf, hg⟩ := (h ..).1 hread
    exact ⟨f, ⟨rest, hf, hend⟩, hg⟩
  · rintro ⟨f, ⟨rest, hf, hend⟩, hg⟩
    exact ⟨rest, (h ..).2 ⟨f, hf, hg⟩, hend⟩

/-- What is read may be used to compute the value. -/
theorem map_read_iff {φ : Type} {At : φ → Bytes → Bytes → Prop} {read : Reader α} {g : φ → Option α}
    (h : ∀ bs v rest, read bs = .ok (v, rest) ↔ ∃ x, At x bs rest ∧ g x = some v) (u : α → β) (bs : Bytes) (w : β)
    (rest : Bytes) : (do
      let (v, rest) ← read bs
      return (u v, rest) : Except Fault (β × Bytes)) = .ok (w, rest) ↔ ∃ x, At x bs rest ∧ (g x).map u = some w := by
  simp only [bind_eq_ok_iff, Option.map_eq_some_iff]
  constructor
  · rintro ⟨⟨v, r⟩, hv, hw⟩
    cases hw
    obtain ⟨x, hx, hg⟩ := (h ..).1 hv
    exact ⟨x, hx, v, hg, rfl⟩
  · rintro ⟨x, hx, v, hg, rfl⟩
    exact ⟨(v, rest), (h ..).2 ⟨x, hx, hg⟩, rfl⟩

theorem Accepts.map {read : Reader α} {g : Form → Option α} (h : Accepts read g) (u : α → β) :
    Accepts (fun bs => do
      let (v, rest) ← read bs
      return (u v, rest)) fun f => (g f).map u :=
  map_read_iff h u

theorem Follows.map {φ : Type} {base : Reader φ} {read : Reader α} {g : φ → Option α} (h : Follows base g read)
    (u : α → β) : Follows base (fun x => (g x).map u) fun bs => do
      let (v, rest) ← read bs
      return (u v, rest) :=
  map_read_iff h u

/-! ## Scalars -/

namespace Form

/-- The text that a string denotes. -/
def text? : Form → Option String
  | string s => s
  | _ => none

/-- A boolean. -/
def flag? : Form → Option Bool
  | bool b => some b
  | _ => none

/-- A name: a string, or the key of an object with the value `null`. -/
def name? : Form → Option String
  | string s => s
  | object [(k, null)] => k
  | _ => none

/-- The values of the items of an array. -/
def list? (g : Form → Option α) : Form → Option (List α)
  | array fs => fs.mapM g
  | _ => none

end Form

section Scalars

variable {bs rest : Bytes}

theorem spans_string_iff {s : Option String} : Spans (.value (.string s)) bs rest ↔
    ∃ r, skipBlanks bs = 0x22 :: r ∧ readToken r = .ok (s, rest) := by
  constructor
  · intro h
    cases h with
    | scalar start read =>
      rcases Form.readScalar_cases read with ⟨-, -, h⟩ | ⟨-, -, h⟩ | ⟨-, -, h⟩ | ⟨s, rfl, hs, h⟩ | ⟨n, -, -, h⟩ <;>
        cases h
      exact ⟨_, start, hs⟩
  · rintro ⟨r, start, hs⟩
    refine .scalar start ?_
    rw [Form.readScalar, if_neg (by decide), if_neg (by decide), if_neg (by decide), if_pos rfl, hs]
    rfl

theorem spans_null_iff : Spans (.value .null) bs rest ↔
    ∃ r, skipBlanks bs = 0x6e :: r ∧ word (Utf8.encode "ull") r = .ok rest := by
  constructor
  · intro h
    cases h with
    | scalar start read =>
      rcases Form.readScalar_cases read with ⟨rfl, hw, h⟩ | ⟨-, -, h⟩ | ⟨-, -, h⟩ | ⟨s, -, -, h⟩ | ⟨n, -, -, h⟩ <;>
        cases h
      exact ⟨_, start, hw⟩
  · rintro ⟨r, start, hw⟩
    refine .scalar start ?_
    rw [Form.readScalar, if_pos rfl, hw]
    rfl

theorem spans_bool_iff {b : Bool} : Spans (.value (.bool b)) bs rest ↔
    (b = true ∧ ∃ r, skipBlanks bs = 0x74 :: r ∧ word (Utf8.encode "rue") r = .ok rest) ∨
      (b = false ∧ ∃ r, skipBlanks bs = 0x66 :: r ∧ word (Utf8.encode "alse") r = .ok rest) := by
  constructor
  · intro h
    cases h with
    | scalar start read =>
      rcases Form.readScalar_cases read with ⟨-, -, h⟩ | ⟨rfl, hw, h⟩ | ⟨rfl, hw, h⟩ | ⟨s, -, -, h⟩ | ⟨n, -, -, h⟩ <;>
        cases h
      · exact Or.inl ⟨rfl, _, start, hw⟩
      · exact Or.inr ⟨rfl, _, start, hw⟩
  · rintro (⟨rfl, r, start, hw⟩ | ⟨rfl, r, start, hw⟩)
    · refine .scalar start ?_
      rw [Form.readScalar, if_neg (by decide), if_pos rfl, hw]
      rfl
    · refine .scalar start ?_
      rw [Form.readScalar, if_neg (by decide), if_neg (by decide), if_pos rfl, hw]
      rfl

/-- A string is read as what it denotes. -/
theorem readTextAs_eq_ok_iff {wanted s : String} :
    readTextAs wanted bs = .ok (s, rest) ↔ Spans (.value (.string (some s))) bs rest := by
  rw [spans_string_iff, readTextAs]
  cases skipBlanks bs with
  | nil =>
    constructor
    · intro h
      cases h
    · rintro ⟨_, h, -⟩
      cases h
  | cons c r =>
    simp only [List.cons.injEq, ← readString_eq_ok_iff]
    constructor
    · intro h
      split at h
      · exact ⟨r, ⟨‹_›, rfl⟩, h⟩
      · exact absurd h (mismatch_ne_ok _ _ _ _)
    · rintro ⟨_, ⟨rfl, rfl⟩, h⟩
      exact h

end Scalars

theorem Accepts.text : Accepts readText Form.text? := by
  intro bs s rest
  rw [readText, readTextAs_eq_ok_iff]
  constructor
  · exact fun h => ⟨_, h, rfl⟩
  · rintro ⟨f, h, hs⟩
    cases f with
    | string t =>
      rw [Form.text?] at hs
      exact hs ▸ h
    | _ => cases hs

theorem Accepts.flag : Accepts readFlag Form.flag? := by
  intro bs b rest
  have hread : readFlag bs = .ok (b, rest) ↔ Spans (.value (.bool b)) bs rest := by
    rw [spans_bool_iff, readFlag]
    cases skipBlanks bs with
    | nil => exact ⟨nofun, by rintro (⟨-, _, h, -⟩ | ⟨-, _, h, -⟩) <;> cases h⟩
    | cons c r =>
      simp only [List.cons.injEq]
      constructor
      · intro h
        split at h
        · obtain ⟨_, hw, h⟩ := bind_eq_ok_iff.1 h
          cases h
          exact Or.inl ⟨rfl, r, ⟨‹_›, rfl⟩, hw⟩
        split at h
        · obtain ⟨_, hw, h⟩ := bind_eq_ok_iff.1 h
          cases h
          exact Or.inr ⟨rfl, r, ⟨‹_›, rfl⟩, hw⟩
        · exact absurd h (mismatch_ne_ok _ _ _ _)
      · rintro (⟨rfl, _, ⟨rfl, rfl⟩, hw⟩ | ⟨rfl, _, ⟨rfl, rfl⟩, hw⟩)
        · exact bind_eq_ok_iff.2 ⟨rest, hw, rfl⟩
        · exact bind_eq_ok_iff.2 ⟨rest, hw, rfl⟩
  rw [hread]
  constructor
  · exact fun h => ⟨_, h, rfl⟩
  · rintro ⟨f, h, hb⟩
    cases f with
    | bool b' =>
      cases hb
      exact h
    | _ => cases hb

/-! ## Names -/

section Names

variable {bs rest : Bytes}

theorem nextKey_first_iff : nextKey true bs = .ok (.more rest) ↔ skipBlanks bs = 0x22 :: rest := by
  unfold nextKey
  cases skipBlanks bs with
  | nil => exact ⟨nofun, nofun⟩
  | cons c r =>
    simp only [List.cons.injEq, if_true, openKey]
    constructor
    · intro h
      split at h
      · cases h
      split at h
      · cases h
        exact ⟨‹_›, rfl⟩
      · cases h
    · rintro ⟨rfl, rfl⟩
      rfl

theorem readUnit_eq_ok_iff : readUnit bs = .ok rest ↔ Spans (.value .null) bs rest := by
  rw [spans_null_iff, readUnit]
  cases skipBlanks bs with
  | nil => exact ⟨nofun, nofun⟩
  | cons c r =>
    simp only [List.cons.injEq]
    constructor
    · intro h
      split at h
      · exact ⟨r, ⟨‹_›, rfl⟩, h⟩
      · exact absurd h (mismatch_ne_ok _ _ _ _)
    · rintro ⟨_, ⟨rfl, rfl⟩, h⟩
      exact h

theorem closeName_eq_ok_iff : closeName bs = .ok rest ↔ skipBlanks bs = 0x7d :: rest := by
  unfold closeName
  cases skipBlanks bs with
  | nil => exact ⟨nofun, nofun⟩
  | cons c r =>
    simp only [List.cons.injEq]
    constructor
    · intro h
      split at h
      · cases h
        exact ⟨‹_›, rfl⟩
      · cases h
    · rintro ⟨rfl, rfl⟩
      rfl

theorem spans_object_iff {ms : List (Option String × Form)} : Spans (.value (.object ms)) bs rest ↔
    ∃ r, skipBlanks bs = 0x7b :: r ∧ Spans (.members true ms) r rest := by
  constructor
  · intro h
    cases h with
    | scalar start read => rcases Form.readScalar_cases read with h | h | h | ⟨_, h⟩ | ⟨_, h⟩ <;> cases h.2.2
    | object start members => exact ⟨_, start, members⟩
  · exact fun ⟨_, start, members⟩ => .object start members

theorem spans_array_iff {fs : List Form} : Spans (.value (.array fs)) bs rest ↔
    ∃ r, skipBlanks bs = 0x5b :: r ∧ Spans (.items true fs) r rest := by
  constructor
  · intro h
    cases h with
    | scalar start read => rcases Form.readScalar_cases read with h | h | h | ⟨_, h⟩ | ⟨_, h⟩ <;> cases h.2.2
    | array start items => exact ⟨_, start, items⟩
  · exact fun ⟨_, start, items⟩ => .array start items

/-- An object with one member, whose value is `null`. -/
theorem spans_name_iff {k : Option String} : Spans (.value (.object [(k, .null)])) bs rest ↔ ∃ r r₁ r₂ r₃,
    skipBlanks bs = 0x7b :: r ∧ Spans (.value (.string k)) r r₁ ∧ colon r₁ = .ok r₂ ∧ readUnit r₂ = .ok r₃ ∧
      closeName r₃ = .ok rest := by
  constructor
  · intro h
    obtain ⟨r, start, members⟩ := spans_object_iff.1 h
    cases members with
    | member next key colon value members =>
      cases members with
      | noMember close =>
        have hkey := spans_string_iff.2 ⟨_, nextKey_first_iff.1 next, key⟩
        exact ⟨r, _, _, _, start, hkey, colon, readUnit_eq_ok_iff.2 value, closeName_eq_ok_iff.2 close⟩
  · rintro ⟨r, r₁, r₂, r₃, start, hkey, hcolon, hunit, hclose⟩
    obtain ⟨r', hquote, hkey⟩ := spans_string_iff.1 hkey
    refine .object start (.member (nextKey_first_iff.2 hquote) hkey hcolon (readUnit_eq_ok_iff.1 hunit) ?_)
    exact .noMember (closeName_eq_ok_iff.1 hclose)

end Names

theorem Form.name?_eq_some_iff {f : Form} {s : String} :
    f.name? = some s ↔ f = string (some s) ∨ f = object [(some s, null)] := by
  unfold name?
  split
  · simp
  · simp
  · next hstring hobject =>
    refine ⟨nofun, ?_⟩
    rintro (rfl | rfl)
    · exact absurd rfl (hstring _)
    · exact absurd rfl (hobject _)

theorem Accepts.name (depth : Nat) : Accepts (readName (depth + 1)) Form.name? := by
  intro bs s rest
  have hread : readName (depth + 1) bs = .ok (s, rest) ↔
      Spans (.value (.string (some s))) bs rest ∨ Spans (.value (.object [(some s, .null)])) bs rest := by
    rw [spans_string_iff, spans_name_iff, readName]
    cases skipBlanks bs with
    | nil =>
      constructor
      · intro h
        cases h
      · rintro (⟨_, h, -⟩ | ⟨_, _, _, _, h, -⟩) <;> cases h
    | cons c r =>
      simp only [List.cons.injEq, ← readString_eq_ok_iff]
      constructor
      · intro h
        split at h
        · exact Or.inl ⟨r, ⟨‹_›, rfl⟩, h⟩
        split at h
        · obtain ⟨⟨t, r₁⟩, hkey, h⟩ := bind_eq_ok_iff.1 h
          obtain ⟨r₂, hcolon, h⟩ := bind_eq_ok_iff.1 h
          obtain ⟨r₃, hunit, h⟩ := bind_eq_ok_iff.1 h
          obtain ⟨r₄, hclose, h⟩ := bind_eq_ok_iff.1 h
          cases h
          exact Or.inr ⟨r, r₁, r₂, r₃, ⟨‹_›, rfl⟩, readTextAs_eq_ok_iff.1 hkey, hcolon, hunit, hclose⟩
        · cases h
      · rintro (⟨_, ⟨rfl, rfl⟩, h⟩ | ⟨_, r₁, r₂, r₃, ⟨rfl, rfl⟩, hkey, hcolon, hunit, hclose⟩)
        · exact h
        · have hkey : readTextAs "variant identifier" _ = _ := readTextAs_eq_ok_iff.2 hkey
          exact bind_eq_ok_iff.2 ⟨_, hkey, bind_eq_ok_iff.2 ⟨r₂, hcolon, bind_eq_ok_iff.2 ⟨r₃, hunit,
            bind_eq_ok_iff.2 ⟨rest, hclose, rfl⟩⟩⟩⟩
  rw [hread]
  constructor
  · rintro (h | h)
    · exact ⟨_, h, rfl⟩
    · exact ⟨_, h, rfl⟩
  · rintro ⟨f, h, hs⟩
    rcases Form.name?_eq_some_iff.1 hs with rfl | rfl
    · exact Or.inl h
    · exact Or.inr h

/-! ## Arrays -/

/-- Items are read where the reader of an item accepts each of them. -/
theorem Accepts.itemsFrom {item : Reader α} {g : Form → Option α} (h : Accepts item g) : ∀ (fuel : Nat) {first : Bool}
    {bs rest : Bytes} {vs : List α}, bs.length < fuel →
      (itemsFrom item fuel first bs = .ok (vs, rest) ↔ ∃ fs, Spans (.items first fs) bs rest ∧ fs.mapM g = some vs) := by
  intro fuel
  induction fuel with
  | zero => exact fun hf => absurd hf (Nat.not_lt_zero _)
  | succ fuel ih =>
    intro first bs rest vs hf
    rw [itemsFrom_succ]
    constructor
    · rintro (⟨hclose, rfl⟩ | ⟨r₁, v, r₂, ws, hnext, hv, hws, rfl⟩)
      · exact ⟨[], .noItem (nextItem_close_iff.1 hclose), rfl⟩
      · obtain ⟨f, hspans, hg⟩ := (h ..).1 hv
        have hlength := length_of_nextItem hnext
        rw [Next.length] at hlength
        have hshort := hspans.shorter
        obtain ⟨fs, hfs, hgs⟩ := (ih (by omega)).1 hws
        exact ⟨f :: fs, .item hnext hspans hfs, mapM_cons_eq_some.2 ⟨v, ws, hg, hgs, rfl⟩⟩
    · rintro ⟨fs, hspans, hg⟩
      cases hspans with
      | noItem close =>
        cases hg
        exact Or.inl ⟨nextItem_close_iff.2 close, rfl⟩
      | item next value items =>
        obtain ⟨v, ws, hv, hws, rfl⟩ := mapM_cons_eq_some.1 hg
        have hlength := length_of_nextItem next
        rw [Next.length] at hlength
        have hshort := value.shorter
        exact Or.inr ⟨_, v, _, ws, next, (h ..).2 ⟨_, value, hv⟩, (ih (by omega)).2 ⟨_, items, hws⟩, rfl⟩

theorem Accepts.list {item : Nat → Reader α} {depth : Nat} {g : Form → Option α} (h : Accepts (item depth) g) :
    Accepts (readList item (depth + 1)) (Form.list? g) := by
  intro bs vs rest
  have hread : readList item (depth + 1) bs = .ok (vs, rest) ↔
      ∃ r, skipBlanks bs = 0x5b :: r ∧ readItems (item depth) r = .ok (vs, rest) := by
    rw [readList]
    cases skipBlanks bs with
    | nil =>
      constructor
      · intro h
        cases h
      · rintro ⟨_, h, -⟩
        cases h
    | cons c r =>
      simp only [List.cons.injEq]
      constructor
      · intro h
        split at h
        · exact ⟨r, ⟨‹_›, rfl⟩, h⟩
        · exact absurd h (mismatch_ne_ok _ _ _ _)
      · rintro ⟨_, ⟨rfl, rfl⟩, h⟩
        exact h
  rw [hread]
  constructor
  · rintro ⟨r, start, hr⟩
    obtain ⟨fs, hfs, hg⟩ := (h.itemsFrom _ (Nat.lt_succ_self _)).1 hr
    exact ⟨.array fs, .array start hfs, hg⟩
  · rintro ⟨f, hf, hg⟩
    cases f with
    | array fs =>
      obtain ⟨r, start, items⟩ := spans_array_iff.1 hf
      exact ⟨r, start, (h.itemsFrom _ (Nat.lt_succ_self _)).2 ⟨fs, items, hg⟩⟩
    | _ => cases hg

end RegistryPublisher.Json
