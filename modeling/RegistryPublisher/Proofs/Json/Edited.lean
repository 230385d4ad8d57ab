import RegistryPublisher.Proofs.Json.FormRecords

/-!
# Edited records

- `Form.OneMore`, `Form.OneLess` and `Form.Renamed`: one member of an object is put in, taken out, or gets a string as its
  value;
- `Shape.ofMembers?_insert`: a member with an unknown key changes nothing;
- `Shape.Independent`: a field is not seen in the others, and only its last value counts;
- `Shape.Apart`: two fillings of a record that differ in the value of one field; what is read after that keeps them so
  (`Apart.take`), hence the records differ in the same (`ofMembers?_replace`, `ofMembers?_remove`).
-/

namespace RegistryPublisher.Json

namespace Form

/-- An object gets a member whose key is not known. -/
inductive OneMore (known : List String) : Form → Form → Prop
  | put {before after : List (Option String × Form)} {key : String} (unknown : key ∉ known) (f : Form) :
      OneMore known (object (before ++ after)) (object (before ++ (some key, f) :: after))

/-- An object loses a member. -/
inductive OneLess (key : String) : Form → Form → Prop
  | take {before after : List (Option String × Form)} (f : Form) :
      OneLess key (object (before ++ (some key, f) :: after)) (object (before ++ after))

/-- A member of an object gets a string that is not known. -/
inductive Renamed (key : String) (known : List String) : Form → Form → Prop
  | rename {before after : List (Option String × Form)} (f : Form) {s : String} (unknown : s ∉ known) :
      Renamed key known (object (before ++ (some key, f) :: after)) (object (before ++ (some key, string (some s)) :: after))

/-- An edit of the item with the given index, in the array that a member of an object holds. -/
inductive InItem (key : String) (n : Nat) (edit : Form → Form → Prop) : Form → Form → Prop
  | item {before after : List (Option String × Form)} {fs gs : List Form} {f f' : Form} (index : fs.length = n)
      (h : edit f f') : InItem key n edit (object (before ++ (some key, array (fs ++ f :: gs)) :: after))
        (object (before ++ (some key, array (fs ++ f' :: gs)) :: after))

end Form

namespace Shape

variable {α : Type} {s : Shape α} {value : String → Form → Option (α → α)}

/-- A member with an unknown key is passed over. -/
theorem ofMembers?_insert {before after : List (Option String × Form)} {key : String}
    (h : key ∉ s.fields.map Field.name) (f : Form) :
    s.ofMembers? value (before ++ (some key, f) :: after) = s.ofMembers? value (before ++ after) := by
  have htake : ∀ filling, s.takeForm? value filling (some key, f) = some filling := by
    intro filling
    rw [takeForm?, if_neg h]
  simp only [ofMembers?, List.foldlM_append, List.foldlM_cons, htake, Option.bind_eq_bind, Option.bind_some]

/-! ## One field changes -/

/-- What a value does to a record is not seen in other fields, and of two values for a field the last one counts. -/
structure Independent (value : String → Form → Option (α → α)) : Prop where
  other : ∀ {key key' : String} {form form' : Form} {put put' : α → α}, value key form = some put →
    value key' form' = some put' → key' ≠ key → ∀ record, put (put' record) = put' (put record)
  same : ∀ {key : String} {form form' : Form} {put put' : α → α}, value key form = some put →
    value key form' = some put' → ∀ record, put (put' record) = put record

/-- The field came in the first filling, and the second one differs from it in what `u` does, and in whether the field
came. -/
structure Apart (key : String) (u : α → α) (f f' : Filling α) : Prop where
  record : f'.record = u f.record
  came : key ∈ f.seen
  seen : ∀ k, k ≠ key → (k ∈ f'.seen ↔ k ∈ f.seen)

section Changes

variable {key : String} {form : Form} {u : α → α} (hi : Independent value) (hu : value key form = some u)
include hi hu

/-- One more member keeps fillings apart in the same way. -/
theorem Apart.take {f f' g : Filling α} (h : Apart key u f f') {m : Option String × Form}
    (htake : s.takeForm? value f m = some g) :
    ∃ g', s.takeForm? value f' m = some g' ∧ Apart key u g g' ∧ f'.seen ⊆ g'.seen := by
  obtain ⟨_ | k, form⟩ := m
  · cases htake
  rw [takeForm?] at htake ⊢
  split at htake
  · next hknown =>
    rw [if_pos hknown]
    split at htake
    · cases htake
    next hnew =>
    obtain ⟨put, hput, rfl⟩ := Option.map_eq_some_iff.1 htake
    have hne : k ≠ key := by
      rintro rfl
      exact hnew h.came
    rw [if_neg fun hseen => hnew ((h.seen k hne).1 hseen), hput]
    refine ⟨_, rfl, ⟨?record, List.mem_cons_of_mem _ h.came, fun k' hk' => ?seen⟩, List.subset_cons_self ..⟩
    case record =>
      change put f'.record = u (put f.record)
      rw [h.record, hi.other hu hput hne]
    case seen => rw [List.mem_cons, List.mem_cons, h.seen k' hk']
  · next hunknown =>
    cases htake
    rw [if_neg hunknown]
    exact ⟨f', rfl, h, List.Subset.refl _⟩

/-- All members that are left keep fillings apart in the same way. -/
theorem Apart.takes {ms : List (Option String × Form)} : ∀ {f f' g : Filling α}, Apart key u f f' →
    ms.foldlM (s.takeForm? value) f = some g →
    ∃ g', ms.foldlM (s.takeForm? value) f' = some g' ∧ Apart key u g g' ∧ f'.seen ⊆ g'.seen := by
  induction ms with
  | nil =>
    intro f f' g h hfold
    cases hfold
    exact ⟨f', rfl, h, List.Subset.refl _⟩
  | cons m ms ih =>
    intro f f' g h hfold
    rw [List.foldlM_cons] at hfold
    obtain ⟨f₁, htake, hrest⟩ := Option.bind_eq_some_iff.1 hfold
    obtain ⟨f₁', htake', h₁, hsub₁⟩ := h.take hi hu htake
    obtain ⟨g', hfold', hg, hsub⟩ := ih h₁ hrest
    refine ⟨g', ?_, hg, List.Subset.trans hsub₁ hsub⟩
    rw [List.foldlM_cons, htake']
    exact hfold'

/-- Before the field comes, a value that is there already changes nothing. -/
theorem fixed_of_not_came {ms : List (Option String × Form)} : ∀ {f g : Filling α},
    (key ∉ f.seen → u f.record = f.record) → ms.foldlM (s.takeForm? value) f = some g →
    key ∉ g.seen → u g.record = g.record := by
  induction ms with
  | nil =>
    intro f g h hfold
    cases hfold
    exact h
  | cons m ms ih =>
    intro f g h hfold
    rw [List.foldlM_cons] at hfold
    obtain ⟨f₁, htake, hrest⟩ := Option.bind_eq_some_iff.1 hfold
    refine ih ?_ hrest
    obtain ⟨_ | k, form⟩ := m
    · cases htake
    rw [takeForm?] at htake
    split at htake
    · split at htake
      · cases htake
      obtain ⟨put, hput, rfl⟩ := Option.map_eq_some_iff.1 htake
      intro hnew
      obtain ⟨hne, hnew⟩ := List.ne_and_not_mem_of_not_mem_cons hnew
      change u (put f.record) = put f.record
      rw [hi.other hu hput (Ne.symm hne), h hnew]
    · cases htake
      exact h

end Changes

section Edits

variable {key : String} {u : α → α} {before after : List (Option String × Form)} {form form' : Form} {record : α}

/-- The filling before a member of a field, and the one after all members. -/
theorem exists_take (hkey : key ∈ s.fields.map Field.name)
    (h : s.ofMembers? value (before ++ (some key, form) :: after) = some record) : ∃ (f g : Filling α) (put : α → α),
      before.foldlM (s.takeForm? value) ⟨s.blank, []⟩ = some f ∧ key ∉ f.seen ∧ value key form = some put ∧
      after.foldlM (s.takeForm? value) ⟨put f.record, key :: f.seen⟩ = some g ∧ g.record = record ∧
      ∀ field ∈ s.fields, field.required = true → field.name ∈ g.seen := by
  obtain ⟨g, hfold, hrecord⟩ := Option.bind_eq_some_iff.1 h
  rw [List.foldlM_append] at hfold
  obtain ⟨f, hbefore, hfold⟩ := Option.bind_eq_some_iff.1 hfold
  rw [List.foldlM_cons] at hfold
  obtain ⟨f', htake, hafter⟩ := Option.bind_eq_some_iff.1 hfold
  rw [takeForm?, if_pos hkey] at htake
  split at htake
  · cases htake
  next hnew =>
  obtain ⟨put, hput, rfl⟩ := Option.map_eq_some_iff.1 htake
  split at hrecord
  · next hall => exact ⟨f, g, put, hbefore, hnew, hput, hafter, Option.some.inj hrecord, hall⟩
  · cases hrecord

/-- Another value of a field changes the record in this field. -/
theorem ofMembers?_replace (hi : Independent value) (hkey : key ∈ s.fields.map Field.name)
    (hu : value key form' = some u) (h : s.ofMembers? value (before ++ (some key, form) :: after) = some record) :
    s.ofMembers? value (before ++ (some key, form') :: after) = some (u record) := by
  obtain ⟨f, g, put, hbefore, hnew, hput, hafter, rfl, hall⟩ := exists_take hkey h
  have hapart : Apart key u ⟨put f.record, key :: f.seen⟩ ⟨u f.record, key :: f.seen⟩ :=
    ⟨(hi.same hu hput f.record).symm, List.mem_cons_self .., fun _ _ => Iff.rfl⟩
  obtain ⟨g', hafter', hg, hsub⟩ := hapart.takes hi hu hafter
  have hall' : ∀ field ∈ s.fields, field.required = true → field.name ∈ g'.seen := by
    intro field hfield hrequired
    by_cases hne : field.name = key
    · rw [hne]
      exact hsub (List.mem_cons_self ..)
    · exact (hg.seen _ hne).2 (hall field hfield hrequired)
  have htake : s.takeForm? value f (some key, form') = some ⟨u f.record, key :: f.seen⟩ := by
    rw [takeForm?, if_pos hkey, if_neg hnew, hu]
    rfl
  simp only [ofMembers?, List.foldlM_append, List.foldlM_cons, hbefore, htake, hafter', Option.bind_eq_bind,
    Option.bind_some, if_pos hall', hg.record]

/-- The value of a member is in the record. -/
theorem value_in_record (hi : Independent value) (hkey : key ∈ s.fields.map Field.name)
    (h : s.ofMembers? value (before ++ (some key, form) :: after) = some record) :
    ∃ put, value key form = some put ∧ put record = record := by
  obtain ⟨_, _, put, -, -, hput, -⟩ := exists_take hkey h
  exact ⟨put, hput, Option.some.inj ((ofMembers?_replace hi hkey hput h).symm.trans h)⟩

/-- Without the member of a field that may be missing, the record has there what a blank record has. -/
theorem ofMembers?_remove (hi : Independent value) (hkey : key ∈ s.fields.map Field.name)
    (hoptional : ∀ field ∈ s.fields, field.name = key → field.required = false) (hu : value key form' = some u)
    (hblank : u s.blank = s.blank) (h : s.ofMembers? value (before ++ (some key, form) :: after) = some record) :
    s.ofMembers? value (before ++ after) = some (u record) := by
  obtain ⟨f, g, put, hbefore, hnew, hput, hafter, rfl, hall⟩ := exists_take hkey h
  have hfixed : u f.record = f.record := fixed_of_not_came hi hu (fun _ => hblank) hbefore hnew
  have hapart : Apart key u ⟨put f.record, key :: f.seen⟩ f := by
    refine ⟨?record, List.mem_cons_self .., fun k hk => ?seen⟩
    case record =>
      change f.record = u (put f.record)
      rw [hi.same hu hput, hfixed]
    case seen =>
      rw [List.mem_cons]
      exact ⟨Or.inr, fun hmem => hmem.resolve_left hk⟩
  obtain ⟨g', hafter', hg, -⟩ := hapart.takes hi hu hafter
  have hall' : ∀ field ∈ s.fields, field.required = true → field.name ∈ g'.seen := by
    intro field hfield hrequired
    have hne : field.name ≠ key := by
      intro he
      rw [hoptional field hfield he] at hrequired
      cases hrequired
    exact (hg.seen _ hne).2 (hall field hfield hrequired)
  simp only [ofMembers?, List.foldlM_append, hbefore, hafter', Option.bind_eq_bind, Option.bind_some, if_pos hall',
    hg.record]

end Edits

end Shape

end RegistryPublisher.Json
