import RegistryPublisher.Proofs.Json.Accepted
import RegistryPublisher.Proofs.Json.TreeForm

/-!
# Records in arrays

- `Items At first xs bs rest`: the items `xs` of an array begin the text `bs`, each where `At` says, and `rest` comes after
  the bracket that closes the array (`spans_items_iff`, `itemsFrom_eq_ok_iff`, `Tree.read_array_iff`);
- `Shape.ofItems?` is the record that the items hold, one for each field in order, and `Shape.readFields_eq_ok_iff` says that
  it is read;
- `Shape.decode_listed_iff`: a text that is no object is read as a record when it is an array of the fields, and the shape
  allows it.
-/

namespace RegistryPublisher.Json

/-! ## Items -/

section Items

variable {φ : Type}

/-- The items of an array, from the first one or a later one on, with the closing bracket. -/
inductive Items (At : φ → Bytes → Bytes → Prop) : Bool → List φ → Bytes → Bytes → Prop
  | close {first : Bool} {bs rest : Bytes} (close : skipBlanks bs = 0x5d :: rest) : Items At first [] bs rest
  | item {first : Bool} {bs r₁ r₂ rest : Bytes} {x : φ} {xs : List φ} (next : nextItem first bs = .ok (.more r₁))
      (item : At x r₁ r₂) (items : Items At false xs r₂ rest) : Items At first (x :: xs) bs rest

theorem spans_items_iff {fs : List Form} : ∀ {first : Bool} {bs rest : Bytes}, Spans (.items first fs) bs rest ↔
    Items (fun f => Spans (.value f)) first fs bs rest := by
  induction fs with
  | nil =>
    intro first bs rest
    constructor
    · intro h
      cases h with
      | noItem close => exact .close close
    · intro h
      cases h with
      | close close => exact .noItem close
  | cons f fs ih =>
    intro first bs rest
    constructor
    · intro h
      cases h with
      | item next value items => exact .item next value (ih.1 items)
    · intro h
      cases h with
      | item next value items => exact .item next value (ih.2 items)

/-- The text is an array of the items. -/
def IsArray (At : φ → Bytes → Bytes → Prop) (xs : List φ) (text : Bytes) : Prop :=
  ∃ r rest, skipBlanks text = 0x5b :: r ∧ Items At true xs r rest ∧ skipBlanks rest = []

/-- A reader of items reads them all when there is a step for each byte. -/
theorem itemsFrom_eq_ok_iff {item : Reader φ} (hitem : ∀ {bs x rest}, item bs = .ok (x, rest) → rest.length < bs.length) :
    ∀ (fuel : Nat) {first : Bool} {xs : List φ} {bs rest : Bytes}, bs.length < fuel →
      (itemsFrom item fuel first bs = .ok (xs, rest) ↔
        Items (fun x bs rest => item bs = .ok (x, rest)) first xs bs rest) := by
  intro fuel
  induction fuel with
  | zero => exact fun hf => absurd hf (Nat.not_lt_zero _)
  | succ fuel ih =>
    intro first xs bs rest hf
    have hlast : ∀ {r₁ x r₂}, nextItem first bs = .ok (.more r₁) → item r₁ = .ok (x, r₂) → r₂.length < fuel := by
      intro r₁ x r₂ hnext hx
      have hlength := length_of_nextItem hnext
      rw [Next.length] at hlength
      have hshort := hitem hx
      omega
    rw [itemsFrom_succ]
    constructor
    · rintro (⟨hclose, rfl⟩ | ⟨r₁, x, r₂, ys, hnext, hx, hys, rfl⟩)
      · exact .close (nextItem_close_iff.1 hclose)
      · exact .item hnext hx ((ih (hlast hnext hx)).1 hys)
    · intro h
      cases h with
      | close close => exact Or.inl ⟨nextItem_close_iff.2 close, rfl⟩
      | item next hx items => exact Or.inr ⟨_, _, _, _, next, hx, (ih (hlast next hx)).2 items, rfl⟩

/-- Arrays are read after their bracket, in which one bracket less may be opened. -/
theorem Tree.read_array_iff {depth : Nat} {bs rest : Bytes} {ts : List Tree} :
    read (depth + 1) bs = .ok (array ts, rest) ↔
      ∃ r, skipBlanks bs = 0x5b :: r ∧ Items (fun t bs rest => read depth bs = .ok (t, rest)) true ts r rest := by
  have hitems : ∀ r, readItems (read depth) r = .ok (ts, rest) ↔
      Items (fun t bs rest => read depth bs = .ok (t, rest)) true ts r rest :=
    fun r => itemsFrom_eq_ok_iff (fun h => (spans_of_read depth h).shorter) _ (Nat.lt_succ_self _)
  constructor
  · intro h
    rcases readWith_cases h with ⟨c, r, -, hs⟩ | ⟨item, r, hi, ⟨start, us, hus, ht⟩ | ⟨-, ms, -, ht⟩⟩
    · rcases readScalar_cases hs with ⟨-, -, h⟩ | ⟨-, -, h⟩ | ⟨-, -, h⟩ | ⟨_, -, -, h⟩ | ⟨_, -, -, h⟩ <;> cases h
    · cases hi
      cases ht
      exact ⟨r, start, (hitems r).1 hus⟩
    · cases ht
  · rintro ⟨r, start, h⟩
    rw [read, readWith]
    simp only [start, if_true, (hitems r).2 h]
    rfl

end Items

/-! ## Fields -/

namespace Shape

variable {α φ : Type}

/-- The record of the items of an array, with fields that are left. -/
def ofItems? (value : String → φ → Option (α → α)) : List (Field α) → List φ → α → Option α
  | [], [], record => some record
  | [], _ :: _, _ => none
  | field :: left, [], record => if (field :: left).any (·.required) then none else some record
  | field :: left, x :: xs, record => (value field.name x).bind fun put => ofItems? value left xs (put record)

/-- Two fields take two items at most, and the optional ones at the end may be left out. -/
theorem ofItems?_pair {value : String → φ → Option (α → α)} {first second : Field α} {xs : List φ} {record v : α} :
    ofItems? value [first, second] xs record = some v ↔
      (xs = [] ∧ first.required = false ∧ second.required = false ∧ record = v) ∨
      (∃ x put, xs = [x] ∧ value first.name x = some put ∧ second.required = false ∧ put record = v) ∨
      ∃ x y put put', xs = [x, y] ∧ value first.name x = some put ∧ value second.name y = some put' ∧
        put' (put record) = v := by
  rcases xs with _ | ⟨x, _ | ⟨y, _ | ⟨z, xs⟩⟩⟩
  · simp [ofItems?, and_assoc]
  · simp [ofItems?, Option.bind_eq_some_iff]
  · simp [ofItems?, Option.bind_eq_some_iff, and_assoc]
  · simp [ofItems?]

theorem closeFields_eq_ok_iff {bs rest : Bytes} : closeFields bs = .ok rest ↔ skipBlanks bs = 0x5d :: rest := by
  unfold closeFields
  cases skipBlanks bs with
  | nil => exact ⟨nofun, nofun⟩
  | cons c r =>
    simp only [List.cons.injEq]
    constructor
    · intro h
      split at h
      · cases h
        exact ⟨‹_›, rfl⟩
      split at h
      · split at h <;> cases h
      · cases h
    · rintro ⟨rfl, rfl⟩
      rfl

variable {s : Shape α} {depth : Nat}

/-- A field that is left is read from the next item, or the array ends and what is left is optional. -/
theorem readFields_cons {field : Field α} {left : List (Field α)} {first : Bool} {record v : α} {bs rest : Bytes} :
    s.readFields depth (field :: left) first record bs = .ok (v, rest) ↔
      (nextItem first bs = .ok (.close rest) ∧ ¬(field :: left).any (·.required) = true ∧ v = record) ∨
      ∃ r₁ put r₂, nextItem first bs = .ok (.more r₁) ∧ field.read depth r₁ = .ok (put, r₂) ∧
        s.readFields depth left false (put record) r₂ = .ok (v, rest) := by
  have hoptional : (field :: left).findIdx? (·.required) = none ↔ ¬(field :: left).any (·.required) = true := by
    simp only [List.findIdx?_eq_none_iff, List.any_eq_true, not_exists, not_and, Bool.not_eq_true]
  rw [readFields, bind_eq_ok_iff]
  constructor
  · rintro ⟨r | r, hnext, hv⟩
    · simp only at hv
      split at hv
      · cases hv
      next hnone =>
      cases hv
      exact Or.inl ⟨hnext, hoptional.1 hnone, rfl⟩
    · obtain ⟨⟨put, r₂⟩, hput, hv⟩ := bind_eq_ok_iff.1 hv
      exact Or.inr ⟨r, put, r₂, hnext, hput, hv⟩
  · rintro (⟨hclose, hnone, rfl⟩ | ⟨r₁, put, r₂, hnext, hput, hv⟩)
    · refine ⟨_, hclose, ?_⟩
      simp only [hoptional.2 hnone]
      rfl
    · exact ⟨_, hnext, bind_eq_ok_iff.2 ⟨_, hput, hv⟩⟩

/-- The fields that are left take the items one after the other. -/
theorem readFields_eq_ok_iff {At : φ → Bytes → Bytes → Prop} {value : String → φ → Option (α → α)}
    {left : List (Field α)} (h : ∀ field ∈ left, ∀ {bs put rest}, field.read depth bs = .ok (put, rest) ↔
      ∃ x, At x bs rest ∧ value field.name x = some put) :
    ∀ {first : Bool} {record v : α} {bs rest : Bytes}, s.readFields depth left first record bs = .ok (v, rest) ↔
      ∃ xs, Items At first xs bs rest ∧ ofItems? value left xs record = some v := by
  induction left with
  | nil =>
    intro first record v bs rest
    rw [readFields, bind_eq_ok_iff]
    constructor
    · rintro ⟨r, hclose, h⟩
      cases h
      exact ⟨[], .close (closeFields_eq_ok_iff.1 hclose), rfl⟩
    · rintro ⟨xs, hitems, hv⟩
      cases hitems with
      | close close =>
        cases hv
        exact ⟨rest, closeFields_eq_ok_iff.2 close, rfl⟩
      | item => cases hv
  | cons field left ih =>
    obtain ⟨hfield, hleft⟩ := List.forall_mem_cons.1 h
    intro first record v bs rest
    rw [readFields_cons]
    constructor
    · rintro (⟨hclose, hnone, rfl⟩ | ⟨r₁, put, r₂, hnext, hput, hv⟩)
      · exact ⟨[], .close (nextItem_close_iff.1 hclose), if_neg hnone⟩
      · obtain ⟨x, hx, hvalue⟩ := hfield.1 hput
        obtain ⟨xs, hxs, hrest⟩ := (ih hleft).1 hv
        exact ⟨x :: xs, .item hnext hx hxs, Option.bind_eq_some_iff.2 ⟨put, hvalue, hrest⟩⟩
    · rintro ⟨xs, hitems, hv⟩
      cases hitems with
      | close close =>
        rw [ofItems?] at hv
        split at hv
        · cases hv
        next hnone =>
        exact Or.inl ⟨nextItem_close_iff.2 close, hnone, (Option.some.inj hv).symm⟩
      | item next hx items =>
        obtain ⟨put, hvalue, hv⟩ := Option.bind_eq_some_iff.1 hv
        exact Or.inr ⟨_, put, _, next, hfield.2 ⟨_, hx, hvalue⟩, (ih hleft).2 ⟨_, items, hv⟩⟩

/-- A record is read from an object, or from an array of its fields when its shape allows it. -/
theorem read_eq_ok_iff {bs rest : Bytes} {v : α} : s.read (depth + 1) bs = .ok (v, rest) ↔
    (∃ r, skipBlanks bs = 0x7b :: r ∧ s.readObject depth r = .ok (v, rest)) ∨
      ∃ r, s.positional = true ∧ skipBlanks bs = 0x5b :: r ∧
        s.readFields depth s.fields true s.blank r = .ok (v, rest) := by
  rw [read]
  cases skipBlanks bs with
  | nil =>
    constructor
    · intro h
      cases h
    · rintro (⟨_, h, -⟩ | ⟨_, -, h, -⟩) <;> cases h
  | cons c r =>
    simp only [List.cons.injEq]
    constructor
    · intro h
      split at h
      · next hc =>
        split at h
        · exact Or.inl ⟨r, ⟨‹_›, rfl⟩, h⟩
        · next hobject =>
          simp only [Bool.or_eq_true, decide_eq_true_eq, Bool.and_eq_true, hobject, false_or] at hc
          exact Or.inr ⟨r, hc.2, ⟨hc.1, rfl⟩, h⟩
      · exact absurd h (mismatch_ne_ok _ _ _ _)
    · rintro (⟨_, ⟨rfl, rfl⟩, h⟩ | ⟨_, hpositional, ⟨rfl, rfl⟩, h⟩)
      · exact h
      · rw [hpositional]
        exact h

/-- A text that is no object is read as a record when it is an array of the fields in order. -/
theorem decode_listed_iff {At : φ → Bytes → Bytes → Prop} {value : String → φ → Option (α → α)}
    (h : ∀ field ∈ s.fields, ∀ {bs put rest}, field.read 126 bs = .ok (put, rest) ↔
      ∃ x, At x bs rest ∧ value field.name x = some put)
    {text : Bytes} (hobject : ∀ r, skipBlanks text ≠ 0x7b :: r) {v : α} : s.decode text = .ok v ↔
      s.positional = true ∧ ∃ xs, IsArray At xs text ∧ ofItems? value s.fields xs s.blank = some v := by
  have hread : ∀ rest, s.read maxDepth text = .ok (v, rest) ↔ _ := fun rest => read_eq_ok_iff
  rw [decode, decode_eq_ok_iff]
  simp only [hread]
  constructor
  · rintro ⟨rest, ⟨r, start, -⟩ | ⟨r, hpositional, start, hv⟩, hend⟩
    · exact absurd start (hobject r)
    · obtain ⟨xs, hxs, hv⟩ := (readFields_eq_ok_iff h).1 hv
      exact ⟨hpositional, xs, ⟨r, rest, start, hxs, hend⟩, hv⟩
  · rintro ⟨hpositional, xs, ⟨r, rest, start, hxs, hend⟩, hv⟩
    exact ⟨rest, Or.inr ⟨r, hpositional, start, (readFields_eq_ok_iff h).2 ⟨xs, hxs, hv⟩⟩, hend⟩

end Shape

/-! ## Texts -/

section Texts

variable {text : Bytes}

theorem Form.array_text_iff {fs : List Form} : (array fs).Text text ↔ IsArray (fun f => Spans (.value f)) fs text := by
  constructor
  · rintro ⟨rest, h, hend⟩
    obtain ⟨r, start, items⟩ := spans_array_iff.1 h
    exact ⟨r, rest, start, spans_items_iff.1 items, hend⟩
  · rintro ⟨r, rest, start, items, hend⟩
    exact ⟨rest, .array start (spans_items_iff.2 items), hend⟩

theorem Tree.parse_array_iff {ts : List Tree} :
    parse text = .ok (array ts) ↔ IsArray (fun t bs rest => read 126 bs = .ok (t, rest)) ts text := by
  have hread : ∀ rest, read maxDepth text = .ok (array ts, rest) ↔ _ := fun rest => read_array_iff
  rw [parse, decode_eq_ok_iff]
  simp only [hread]
  constructor
  · rintro ⟨rest, ⟨r, start, items⟩, hend⟩
    exact ⟨r, rest, start, items, hend⟩
  · rintro ⟨r, rest, start, items, hend⟩
    exact ⟨rest, ⟨r, start, items⟩, hend⟩

end Texts

end RegistryPublisher.Json
