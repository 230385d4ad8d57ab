import RegistryPublisher.Proofs.Json.Listed

/-!
# Records that forms hold

- `Shape.ofForm?` is the record that a form holds: known keys come once and are read by their fields, any other member is
  passed over, and an array has the fields in order;
- `Shape.ReadsForms`: the fields of a record read what they accept of a form, and other keys are passed over;
- `Accepts.record`: then a record is read where a form holds it.
-/

namespace RegistryPublisher.Json

variable {α β : Type}

namespace Shape

variable (s : Shape α) (value : String → Form → Option (α → α))

/-- Takes one member: a field comes once and holds what its reader accepts, any other key may hold anything. -/
def takeForm? (f : Filling α) : Option String × Form → Option (Filling α)
  | (some key, form) =>
    if key ∈ s.fields.map Field.name then
      if key ∈ f.seen then none else (value key form).map fun put => ⟨put f.record, key :: f.seen⟩
    else some f
  | (none, _) => none

/-- The record of the members of an object: no required field is missing. -/
def ofMembers? (ms : List (Option String × Form)) : Option α := do
  let f ← ms.foldlM (s.takeForm? value) ⟨s.blank, []⟩
  if ∀ field ∈ s.fields, field.required = true → field.name ∈ f.seen then some f.record else none

/-- The record that a form holds. -/
def ofForm? : Form → Option α
  | .object ms => s.ofMembers? value ms
  | .array fs => if s.positional then ofItems? value s.fields fs s.blank else none
  | _ => none

/-- Each field reads what it accepts of a form, and other keys are passed over. -/
structure ReadsForms (depth : Nat) : Prop where
  fields : ∀ field ∈ s.fields, Accepts (field.read depth) (value field.name)
  other : s.other = ignoreOther

/-! ## Objects -/

variable {s : Shape α} {value : String → Form → Option (α → α)} {depth : Nat}

theorem find?_eq_some_field {key : String} {field : Field α} (h : s.fields.find? (·.name == key) = some field) :
    field ∈ s.fields ∧ field.name = key := by
  have hname := List.find?_some h
  exact ⟨List.mem_of_find?_eq_some h, beq_iff_eq.1 hname⟩

theorem skipOther_eq_ok_iff {key : String} {bs rest : Bytes} {put : α → α} :
    ignoreOther key depth bs = .ok (put, rest) ↔ put = id ∧ ∃ f, Spans (.value f) bs rest := by
  rw [ignoreOther, bind_eq_ok_iff, ← skip_eq_ok_iff]
  constructor
  · rintro ⟨r, hr, h⟩
    cases h
    exact ⟨rfl, hr⟩
  · rintro ⟨rfl, hr⟩
    exact ⟨rest, hr, rfl⟩

theorem ReadsForms.readMember (h : s.ReadsForms value depth) {key : String} {f g : Filling α} {bs rest : Bytes} :
    s.readMember depth key f bs = .ok (g, rest) ↔
      ∃ r form, colon bs = .ok r ∧ Spans (.value form) r rest ∧ s.takeForm? value f (some key, form) = some g := by
  unfold Shape.readMember takeForm?
  cases hfield : s.fields.find? (·.name == key) with
  | some field =>
    obtain ⟨hmem, rfl⟩ := find?_eq_some_field hfield
    simp only [if_pos (List.mem_map_of_mem (f := Field.name) hmem)]
    by_cases hseen : field.name ∈ f.seen
    · simp only [if_pos hseen]
      exact ⟨nofun, fun ⟨_, _, _, _, h⟩ => nomatch h⟩
    · simp only [if_neg hseen, bind_eq_ok_iff, Option.map_eq_some_iff]
      constructor
      · rintro ⟨r, hcolon, ⟨put, rest'⟩, hput, hg⟩
        cases hg
        obtain ⟨form, hform, hvalue⟩ := (h.fields field hmem ..).1 hput
        exact ⟨r, form, hcolon, hform, put, hvalue, rfl⟩
      · rintro ⟨r, form, hcolon, hform, put, hvalue, rfl⟩
        exact ⟨r, hcolon, (put, rest), (h.fields field hmem ..).2 ⟨form, hform, hvalue⟩, rfl⟩
  | none =>
    have hkey : key ∉ s.fields.map Field.name := by
      intro hk
      obtain ⟨field, hmem, hname⟩ := List.mem_map.1 hk
      exact List.find?_eq_none.1 hfield field hmem (beq_iff_eq.2 hname)
    simp only [if_neg hkey, bind_eq_ok_iff, h.other]
    constructor
    · rintro ⟨r, hcolon, ⟨put, rest'⟩, hput, hg⟩
      cases hg
      obtain ⟨rfl, form, hform⟩ := skipOther_eq_ok_iff.1 hput
      exact ⟨r, form, hcolon, hform, rfl⟩
    · rintro ⟨r, form, hcolon, hform, hg⟩
      cases hg
      exact ⟨r, hcolon, (id, rest), skipOther_eq_ok_iff.2 ⟨rfl, form, hform⟩, rfl⟩

/-- The members of a record are those of the form, taken one after the other. -/
theorem ReadsForms.readMembersFrom (h : s.ReadsForms value depth) : ∀ (fuel : Nat) {first : Bool} {f g : Filling α}
    {bs rest : Bytes}, bs.length < fuel → (s.readMembersFrom depth fuel first f bs = .ok (g, rest) ↔
      ∃ ms, Spans (.members first ms) bs rest ∧ ms.foldlM (s.takeForm? value) f = some g) := by
  intro fuel
  induction fuel with
  | zero => exact fun hf => absurd hf (Nat.not_lt_zero _)
  | succ fuel ih =>
    intro first f g bs rest hf
    rw [readMembersFrom_succ]
    constructor
    · rintro (⟨hclose, rfl⟩ | ⟨r₁, k, r₂, f', r₃, hnext, hkey, hmember, hrest⟩)
      · exact ⟨[], .noMember (nextKey_close_iff.1 hclose), rfl⟩
      · have hkey := readString_eq_ok_iff.1 hkey
        obtain ⟨r, form, hcolon, hform, htake⟩ := h.readMember.1 hmember
        have hlength := length_of_nextKey hnext
        rw [Next.length] at hlength
        have hshortKey := length_of_readToken hkey
        have hshortColon := length_of_colon hcolon
        have hshort := hform.shorter
        obtain ⟨ms, hms, hfold⟩ := (ih (by omega)).1 hrest
        refine ⟨(some k, form) :: ms, .member hnext hkey hcolon hform hms, ?_⟩
        rw [List.foldlM_cons, htake]
        exact hfold
    · rintro ⟨ms, hspans, hfold⟩
      cases hspans with
      | noMember close =>
        cases hfold
        exact Or.inl ⟨nextKey_close_iff.2 close, rfl⟩
      | @member _ _ _ _ _ _ _ k form ms next key colon spans members =>
        rw [List.foldlM_cons] at hfold
        obtain ⟨f', htake, hrest⟩ := Option.bind_eq_some_iff.1 hfold
        cases k with
        | none => cases htake
        | some k =>
          have hlength := length_of_nextKey next
          rw [Next.length] at hlength
          have hshortKey := length_of_readToken key
          have hshortColon := length_of_colon colon
          have hshort := spans.shorter
          have hmember := h.readMember.2 ⟨_, form, colon, spans, htake⟩
          exact Or.inr ⟨_, k, _, f', _, next, readString_eq_ok_iff.2 key, hmember,
            (ih (by omega)).2 ⟨ms, members, hrest⟩⟩

theorem ReadsForms.readObject (h : s.ReadsForms value depth) {bs rest : Bytes} {v : α} :
    s.readObject depth bs = .ok (v, rest) ↔
      ∃ ms, Spans (.members true ms) bs rest ∧ s.ofMembers? value ms = some v := by
  have hmissing : ∀ f : Filling α, (s.fields.find? fun field => field.required && !(f.seen.contains field.name)) = none ↔
      ∀ field ∈ s.fields, field.required = true → field.name ∈ f.seen := by
    intro f
    simp [List.find?_eq_none]
  rw [Shape.readObject, bind_eq_ok_iff]
  constructor
  · rintro ⟨⟨f, r⟩, hf, hv⟩
    obtain ⟨ms, hms, hfold⟩ := (h.readMembersFrom _ (Nat.lt_succ_self _)).1 hf
    simp only at hv
    split at hv
    · cases hv
    next hnone =>
    cases hv
    exact ⟨ms, hms, Option.bind_eq_some_iff.2 ⟨f, hfold, if_pos ((hmissing f).1 hnone)⟩⟩
  · rintro ⟨ms, hms, hv⟩
    obtain ⟨f, hfold, hv⟩ := Option.bind_eq_some_iff.1 hv
    split at hv
    · next hall =>
      cases hv
      refine ⟨(f, rest), (h.readMembersFrom _ (Nat.lt_succ_self _)).2 ⟨ms, hms, hfold⟩, ?_⟩
      simp only [(hmissing f).2 hall]
      rfl
    · cases hv

/-! ## Arrays -/

/-- The fields take the items of the form in order. -/
theorem ReadsForms.readFields (h : s.ReadsForms value depth) {bs rest : Bytes} {v : α} :
    s.readFields depth s.fields true s.blank bs = .ok (v, rest) ↔
      ∃ fs, Spans (.items true fs) bs rest ∧ ofItems? value s.fields fs s.blank = some v := by
  simp only [spans_items_iff]
  exact readFields_eq_ok_iff fun field hfield {bs put rest} => h.fields field hfield bs put rest

end Shape

/-- A field accepts what its reader does. -/
theorem Accepts.field {read : Nat → Reader β} {depth : Nat} {g : Form → Option β} (h : Accepts (read depth) g)
    (name : String) (required : Bool) (put : β → α → α) :
    Accepts ((Field.of name required read put).read depth) fun f => (g f).map put :=
  h.map put

/-- **A record is read** where a form holds it. -/
theorem Accepts.record {s : Shape α} {value : String → Form → Option (α → α)} {depth : Nat}
    (h : s.ReadsForms value depth) : Accepts (s.read (depth + 1)) (s.ofForm? value) := by
  intro bs v rest
  rw [Shape.read_eq_ok_iff]
  constructor
  · rintro (⟨r, start, hv⟩ | ⟨r, hpositional, start, hv⟩)
    · obtain ⟨ms, hms, hv⟩ := h.readObject.1 hv
      exact ⟨.object ms, .object start hms, hv⟩
    · obtain ⟨fs, hfs, hv⟩ := h.readFields.1 hv
      refine ⟨.array fs, .array start hfs, ?_⟩
      rw [Shape.ofForm?, if_pos hpositional, hv]
  · rintro ⟨f, hspans, hv⟩
    cases f with
    | object ms =>
      obtain ⟨r, start, members⟩ := spans_object_iff.1 hspans
      exact Or.inl ⟨r, start, h.readObject.2 ⟨ms, members, hv⟩⟩
    | array fs =>
      obtain ⟨r, start, items⟩ := spans_array_iff.1 hspans
      rw [Shape.ofForm?] at hv
      split at hv
      · next hpositional =>
        exact Or.inr ⟨r, hpositional, start, h.readFields.2 ⟨fs, items, hv⟩⟩
      · cases hv
    | _ => cases hv

end RegistryPublisher.Json
