import RegistryPublisher.Proofs.Json.FormRecords
import RegistryPublisher.Proofs.Json.Grammar
import RegistryPublisher.Proofs.Json.Plain

/-!
# What forms hold

- `Form.tree?` is the document of a form, if it has one with no more open brackets than may be (`tree?_eq_some_iff`);
  this is what is read of it (`Tree.read_accepts`), so that readers of documents accept forms (`Follows.accepts`);
- `Form.valuesAt`: the values that an object has under a key; `Shape.known`: its members that are fields;
- `Shape.ofMembers?_eq_some_iff`: the record of the members is what the fields among them put into a blank one, when each
  comes once and none that is required is missing; `Shape.ofMembers?_pair` spells this out for two fields.
-/

namespace RegistryPublisher.Json

variable {α β : Type}

/-! ## Documents -/

/-- Where a partial function undoes another one, it undoes it on lists. -/
theorem mapM_eq_some_iff_map {g : α → Option β} {u : β → α} {P : β → Prop}
    (h : ∀ a b, g a = some b ↔ a = u b ∧ P b) (as : List α) : ∀ bs : List β,
    as.mapM g = some bs ↔ as = bs.map u ∧ ∀ b ∈ bs, P b := by
  induction as with
  | nil =>
    intro bs
    cases bs <;> simp
  | cons a as ih =>
    intro bs
    rw [mapM_cons_eq_some]
    constructor
    · rintro ⟨b, cs, hb, hcs, rfl⟩
      obtain ⟨rfl, hp⟩ := (h ..).1 hb
      obtain ⟨rfl, hps⟩ := (ih cs).1 hcs
      exact ⟨rfl, List.forall_mem_cons.2 ⟨hp, hps⟩⟩
    · rintro ⟨hmap, hall⟩
      cases bs with
      | nil => cases hmap
      | cons b cs =>
        obtain ⟨ha, has⟩ := List.cons.inj hmap
        obtain ⟨hp, hps⟩ := List.forall_mem_cons.1 hall
        exact ⟨b, cs, (h ..).2 ⟨ha, hp⟩, (ih cs).2 ⟨has, hps⟩, rfl⟩

namespace Tree

theorem forms_eq_map (ts : List Tree) : forms ts = ts.map form := by
  induction ts with
  | nil => simp [forms]
  | cons t ts ih => simp [forms, ih]

theorem memberForms_eq_map (ms : List (String × Tree)) : memberForms ms = ms.map fun m => (some m.1, m.2.form) := by
  induction ms with
  | nil => simp [memberForms]
  | cons m ms ih => simp [memberForms, ih]

end Tree

namespace Form

/-- A member of a document: its key must denote a text. -/
def member? (g : Form → Option Tree) (m : Option String × Form) : Option (String × Tree) :=
  m.1.bind fun key => (g m.2).map (key, ·)

/-- The document of a form, in which at most `depth` brackets are open at a time. -/
def tree? : Nat → Form → Option Tree
  | _, null => some .null
  | _, bool b => some (.bool b)
  | _, number n => some (.number n)
  | _, string s => s.map .string
  | 0, _ => none
  | depth + 1, array fs => (fs.mapM (tree? depth)).map .array
  | depth + 1, object ms => (ms.mapM (member? (tree? depth))).map .object

theorem member?_eq_some_iff {g : Form → Option Tree} {P : Tree → Prop} (h : ∀ f t, g f = some t ↔ f = t.form ∧ P t) :
    ∀ m n, member? g m = some n ↔ m = (some n.1, n.2.form) ∧ P n.2 := by
  rintro ⟨key, f⟩ ⟨key', t⟩
  cases key with
  | none => exact ⟨nofun, fun h => by cases h.1⟩
  | some key => simp [member?, h, and_assoc, and_left_comm, and_comm]

/-- The document of a form is the one that has this form. -/
theorem tree?_eq_some_iff : ∀ depth f t, tree? depth f = some t ↔ f = t.form ∧ t.Within depth
  | depth, null, t => by cases t <;> simp [tree?, Tree.form, Tree.Within.null]
  | depth, bool b, t => by cases t <;> simp [tree?, Tree.form, Tree.Within.bool]
  | depth, number n, t => by cases t <;> simp [tree?, Tree.form, Tree.Within.number]
  | depth, string s, t => by cases t <;> simp [tree?, Tree.form, Tree.Within.string]
  | 0, array fs, t => ⟨nofun, fun ⟨hf, hw⟩ => by cases hw <;> simp [Tree.form] at hf⟩
  | 0, object ms, t => ⟨nofun, fun ⟨hf, hw⟩ => by cases hw <;> simp [Tree.form] at hf⟩
  | depth + 1, array fs, t => by
    have hitems := mapM_eq_some_iff_map (tree?_eq_some_iff depth) fs
    rw [tree?, Option.map_eq_some_iff]
    constructor
    · rintro ⟨ts, hts, rfl⟩
      obtain ⟨rfl, hw⟩ := (hitems ts).1 hts
      exact ⟨by rw [Tree.form, Tree.forms_eq_map], .array hw⟩
    · rintro ⟨hf, hw⟩
      cases hw with
      | @array _ ts hw =>
        rw [Tree.form, array.injEq, Tree.forms_eq_map] at hf
        exact ⟨ts, (hitems ts).2 ⟨hf, hw⟩, rfl⟩
      | _ => simp [Tree.form] at hf
  | depth + 1, object ms, t => by
    have hmembers := mapM_eq_some_iff_map (member?_eq_some_iff (tree?_eq_some_iff depth)) ms
    rw [tree?, Option.map_eq_some_iff]
    constructor
    · rintro ⟨ns, hns, rfl⟩
      obtain ⟨rfl, hw⟩ := (hmembers ns).1 hns
      exact ⟨by rw [Tree.form, Tree.memberForms_eq_map], .object hw⟩
    · rintro ⟨hf, hw⟩
      cases hw with
      | @object _ ns hw =>
        rw [Tree.form, object.injEq, Tree.memberForms_eq_map] at hf
        exact ⟨ns, (hmembers ns).2 ⟨hf, hw⟩, rfl⟩
      | _ => simp [Tree.form] at hf

end Form

/-- A document is read where its form is. -/
theorem Tree.read_accepts (depth : Nat) : Accepts (read depth) (Form.tree? depth) := by
  intro bs t rest
  simp only [Form.tree?_eq_some_iff]
  constructor
  · exact fun h => ⟨t.form, spans_of_read depth h, rfl, read_within depth _ _ _ h⟩
  · rintro ⟨_, hspans, rfl, hw⟩
    exact read_of_spans hw hspans

/-- A reader of documents accepts the forms of those that it reads. -/
theorem Follows.accepts {base : Reader β} {f : β → Option α} {read : Reader α} (h : Follows base f read)
    {g : Form → Option β} (hbase : Accepts base g) : Accepts read fun x => (g x).bind f := by
  intro bs v rest
  rw [h]
  constructor
  · rintro ⟨b, hb, hv⟩
    obtain ⟨x, hx, hg⟩ := (hbase ..).1 hb
    exact ⟨x, hx, Option.bind_eq_some_iff.2 ⟨b, hg, hv⟩⟩
  · rintro ⟨x, hx, hv⟩
    obtain ⟨b, hg, hv⟩ := Option.bind_eq_some_iff.1 hv
    exact ⟨b, (hbase ..).2 ⟨x, hx, hg⟩, hv⟩

/-! ## Members -/

namespace Form

/-- Every key denotes a text. -/
def KeysDenote (ms : List (Option String × Form)) : Prop := ∀ m ∈ ms, m.1 ≠ none

/-- The values of the members with a key, in the order of the text. -/
def valuesAt (key : String) (ms : List (Option String × Form)) : List Form :=
  (ms.filter fun m => m.1 = some key).map Prod.snd

variable {key key' : String} {f : Form} {before after : List (Option String × Form)}

theorem valuesAt_append : valuesAt key (before ++ after) = valuesAt key before ++ valuesAt key after := by
  simp [valuesAt]

theorem valuesAt_same : valuesAt key (before ++ (some key, f) :: after) = valuesAt key before ++ f :: valuesAt key after := by
  simp [valuesAt]

theorem valuesAt_other (h : key' ≠ key) : valuesAt key (before ++ (some key', f) :: after) = valuesAt key (before ++ after) := by
  simp [valuesAt, h]

theorem keysDenote_insert : KeysDenote (before ++ (some key, f) :: after) ↔ KeysDenote (before ++ after) := by
  simp only [KeysDenote, List.forall_mem_append, List.forall_mem_cons, ne_eq, reduceCtorEq, not_false_eq_true, true_and]

end Form

namespace Shape

variable (s : Shape α) {value : String → Form → Option (α → α)}

/-- The members whose keys are fields. -/
def known : List (Option String × Form) → List (String × Form)
  | [] => []
  | (none, _) :: ms => known ms
  | (some key, f) :: ms => if key ∈ s.fields.map Field.name then (key, f) :: known ms else known ms

variable {s} {ms : List (Option String × Form)}

/-- The values under the key of a field are those of the known members. -/
theorem valuesAt_eq_known {key : String} (h : key ∈ s.fields.map Field.name) :
    Form.valuesAt key ms = ((s.known ms).filter fun m => m.1 = key).map Prod.snd := by
  induction ms with
  | nil => rfl
  | cons m ms ih =>
    obtain ⟨_ | key', f⟩ := m
    · simpa [Form.valuesAt, known] using ih
    by_cases he : key' = key
    · subst he
      rw [known, if_pos h]
      simpa [Form.valuesAt] using ih
    · rw [known]
      split <;> simpa [Form.valuesAt, he] using ih

theorem fst_mem_of_known : ∀ m ∈ s.known ms, m.1 ∈ s.fields.map Field.name := by
  fun_induction known s ms with
  | case1 => exact List.forall_mem_nil _
  | case2 _ _ ih => exact ih
  | case3 _ _ _ h ih => exact List.forall_mem_cons.2 ⟨h, ih⟩
  | case4 _ _ _ _ ih => exact ih

theorem length_valuesAt {key : String} (h : key ∈ s.fields.map Field.name) :
    (Form.valuesAt key ms).length = ((s.known ms).map Prod.fst).count key := by
  rw [valuesAt_eq_known h, List.length_map, ← List.countP_eq_length_filter, List.count, List.countP_map]
  rfl

theorem mem_known_iff {key : String} (h : key ∈ s.fields.map Field.name) :
    key ∈ (s.known ms).map Prod.fst ↔ Form.valuesAt key ms ≠ [] := by
  rw [← List.count_pos_iff, ← length_valuesAt h, List.length_pos_iff]

theorem nodup_known_iff : ((s.known ms).map Prod.fst).Nodup ↔
    ∀ field ∈ s.fields, (Form.valuesAt field.name ms).length ≤ 1 := by
  rw [List.nodup_iff_count_le_one]
  constructor
  · intro h field hfield
    rw [length_valuesAt (List.mem_map_of_mem hfield)]
    exact h field.name
  · intro h key
    by_cases hkey : key ∈ (s.known ms).map Prod.fst
    · obtain ⟨m, hm, rfl⟩ := List.mem_map.1 hkey
      have hknown := fst_mem_of_known m hm
      obtain ⟨field, hfield, hname⟩ := List.mem_map.1 hknown
      rw [← length_valuesAt hknown, ← hname]
      exact h field hfield
    · rw [List.count_eq_zero.2 hkey]
      exact Nat.zero_le 1

/-- Puts the value of a member into a record. -/
def put? (value : String → Form → Option (α → α)) (record : α) (m : String × Form) : Option α :=
  (value m.1 m.2).map fun put => put record

/-- Fields are put in one after the other, if they did not come before. -/
theorem foldlM_takeForm?_eq_some_iff : ∀ {f g : Filling α}, ms.foldlM (s.takeForm? value) f = some g ↔
    Form.KeysDenote ms ∧ ((s.known ms).map Prod.fst).Nodup ∧ ((s.known ms).map Prod.fst).Disjoint f.seen ∧
      ∃ record, (s.known ms).foldlM (put? value) f.record = some record ∧
        g = ⟨record, ((s.known ms).map Prod.fst).reverse ++ f.seen⟩ := by
  -- the filling stays general: a field must not have come before either
  induction ms with
  | nil =>
    intro f g
    constructor
    · rintro ⟨rfl⟩
      exact ⟨List.forall_mem_nil _, List.nodup_nil, List.disjoint_nil_left _, _, rfl, rfl⟩
    · rintro ⟨-, -, -, _, ⟨rfl⟩, rfl⟩
      rfl
  | cons m ms ih =>
    intro f g
    obtain ⟨_ | key, form⟩ := m
    · exact ⟨nofun, fun h => absurd rfl (h.1 _ (List.mem_cons_self ..))⟩
    have hdenote : Form.KeysDenote ((some key, form) :: ms) ↔ Form.KeysDenote ms := @Form.keysDenote_insert key form [] ms
    rw [List.foldlM_cons, Option.bind_eq_bind, Option.bind_eq_some_iff, takeForm?, known, hdenote]
    by_cases hkey : key ∈ s.fields.map Field.name
    · have hfirst : (key :: (s.known ms).map Prod.fst).Nodup ∧ (key :: (s.known ms).map Prod.fst).Disjoint f.seen ↔
          key ∉ f.seen ∧ ((s.known ms).map Prod.fst).Nodup ∧ ((s.known ms).map Prod.fst).Disjoint (key :: f.seen) := by
        rw [List.nodup_cons, List.disjoint_cons_left, List.disjoint_cons_right]
        tauto
      have hlast : ((s.known ms).map Prod.fst).reverse ++ key :: f.seen =
          (key :: (s.known ms).map Prod.fst).reverse ++ f.seen := by
        simp
      simp only [if_pos hkey, List.map_cons, List.foldlM_cons, Option.bind_eq_bind, Option.bind_eq_some_iff, put?,
        Option.map_eq_some_iff]
      constructor
      · rintro ⟨f', htake, hrest⟩
        split at htake
        · cases htake
        next hnew =>
        obtain ⟨put, hput, rfl⟩ := Option.map_eq_some_iff.1 htake
        obtain ⟨hkeys, hnodup, hdisjoint, record, hrecord, rfl⟩ := ih.1 hrest
        obtain ⟨hnodup, hdisjoint⟩ := hfirst.2 ⟨hnew, hnodup, hdisjoint⟩
        exact ⟨hkeys, hnodup, hdisjoint, record, ⟨_, ⟨put, hput, rfl⟩, hrecord⟩, by rw [← hlast]⟩
      · rintro ⟨hkeys, hnodup, hdisjoint, record, ⟨_, ⟨put, hput, rfl⟩, hrecord⟩, rfl⟩
        obtain ⟨hnew, hnodup, hdisjoint⟩ := hfirst.1 ⟨hnodup, hdisjoint⟩
        refine ⟨⟨put f.record, key :: f.seen⟩, ?_, ih.2 ⟨hkeys, hnodup, hdisjoint, record, hrecord, by rw [← hlast]⟩⟩
        rw [if_neg hnew, hput]
        rfl
    · simp only [if_neg hkey]
      constructor
      · rintro ⟨f', ⟨rfl⟩, hrest⟩
        exact ih.1 hrest
      · exact fun h => ⟨f, rfl, ih.2 h⟩

/-- **The record of members**: fields come once, no required one is missing, and what they hold is put into a blank
record. -/
theorem ofMembers?_eq_some_iff {v : α} : s.ofMembers? value ms = some v ↔
    Form.KeysDenote ms ∧ (∀ field ∈ s.fields, (Form.valuesAt field.name ms).length ≤ 1) ∧
      (∀ field ∈ s.fields, field.required = true → Form.valuesAt field.name ms ≠ []) ∧
      (s.known ms).foldlM (put? value) s.blank = some v := by
  have hrequired : (∀ field ∈ s.fields, field.required = true → Form.valuesAt field.name ms ≠ []) ↔
      ∀ field ∈ s.fields, field.required = true → field.name ∈ (s.known ms).map Prod.fst :=
    forall₂_congr fun field hfield => imp_congr_right fun _ => (mem_known_iff (List.mem_map_of_mem hfield)).symm
  rw [ofMembers?, Option.bind_eq_bind, Option.bind_eq_some_iff, hrequired, ← nodup_known_iff]
  constructor
  · rintro ⟨f, hfold, hv⟩
    obtain ⟨hkeys, hnodup, -, record, hrecord, rfl⟩ := foldlM_takeForm?_eq_some_iff.1 hfold
    split at hv
    · next hcame =>
      cases hv
      simp only [List.append_nil, List.mem_reverse] at hcame
      exact ⟨hkeys, hnodup, hcame, hrecord⟩
    · cases hv
  · rintro ⟨hkeys, hnodup, hcame, hrecord⟩
    refine ⟨_, foldlM_takeForm?_eq_some_iff.2 ⟨hkeys, hnodup, List.disjoint_nil_right _, v, hrecord, rfl⟩, if_pos ?_⟩
    simpa only [List.append_nil, List.mem_reverse] using hcame

/-! ## Records of two fields -/

section Pairs

variable {first second : Field α} (hfields : s.fields = [first, second]) (hne : first.name ≠ second.name)
include hfields hne

/-- If the first one of two fields comes, and each at most once, the known members are those of one field or both. -/
theorem known_cases (honce : ∀ field ∈ s.fields, (Form.valuesAt field.name ms).length ≤ 1)
    (hcame : Form.valuesAt first.name ms ≠ []) :
    ∃ x, Form.valuesAt first.name ms = [x] ∧
      ((Form.valuesAt second.name ms = [] ∧ s.known ms = [(first.name, x)]) ∨
        ∃ y, Form.valuesAt second.name ms = [y] ∧
          (s.known ms = [(first.name, x), (second.name, y)] ∨ s.known ms = [(second.name, y), (first.name, x)])) := by
  have hnames : s.fields.map Field.name = [first.name, second.name] := by rw [hfields]; rfl
  have hone : first.name ∈ s.fields.map Field.name := by simp [hnames]
  have htwo : second.name ∈ s.fields.map Field.name := by simp [hnames]
  have hknown : ∀ m ∈ s.known ms, m.1 = first.name ∨ m.1 = second.name := by
    intro m hm
    simpa [hnames] using fst_mem_of_known m hm
  have hnodup := nodup_known_iff.2 honce
  have hcame := (mem_known_iff hone).2 hcame
  rw [valuesAt_eq_known hone, valuesAt_eq_known htwo]
  generalize s.known ms = ks at hknown hnodup hcame
  -- of three members with two keys, two have the same
  rcases ks with _ | ⟨⟨k, x⟩, _ | ⟨⟨k', y⟩, _ | ⟨⟨k'', z⟩, ks⟩⟩⟩
  · cases hcame
  · obtain rfl := List.mem_singleton.1 hcame
    exact ⟨x, by simp, Or.inl ⟨by simp [hne], rfl⟩⟩
  · simp only [List.forall_mem_cons] at hknown
    obtain ⟨rfl | rfl, rfl | rfl, -⟩ := hknown
    · simp at hnodup
    · exact ⟨x, by simp [hne.symm], Or.inr ⟨y, by simp [hne], Or.inl rfl⟩⟩
    · exact ⟨y, by simp [hne.symm], Or.inr ⟨x, by simp [hne], Or.inr rfl⟩⟩
    · simp at hnodup
  · simp only [List.forall_mem_cons] at hknown
    obtain ⟨rfl | rfl, rfl | rfl, rfl | rfl, -⟩ := hknown <;> simp at hnodup

/-- The record of two fields, of which the first one is required. -/
theorem ofMembers?_pair (hfirst : first.required = true) (hsecond : second.required = false)
    (hcommute : ∀ {x y put put'}, value first.name x = some put → value second.name y = some put' →
      put (put' s.blank) = put' (put s.blank)) {v : α} : s.ofMembers? value ms = some v ↔
    Form.KeysDenote ms ∧ ∃ x put, Form.valuesAt first.name ms = [x] ∧ value first.name x = some put ∧
      ((Form.valuesAt second.name ms = [] ∧ put s.blank = v) ∨
        ∃ y put', Form.valuesAt second.name ms = [y] ∧ value second.name y = some put' ∧ put' (put s.blank) = v) := by
  have hall : ∀ P : Field α → Prop, (∀ field ∈ s.fields, P field) ↔ P first ∧ P second := by simp [hfields]
  rw [ofMembers?_eq_some_iff]
  refine and_congr_right fun _ => ⟨?_, ?_⟩
  · rintro ⟨honce, hrequired, hrecord⟩
    have hcame := ((hall _).1 hrequired).1 hfirst
    obtain ⟨x, hx, ⟨hy, hknown⟩ | ⟨y, hy, hknown | hknown⟩⟩ := known_cases hfields hne honce hcame <;>
      simp only [hknown, List.foldlM_cons, List.foldlM_nil, bind_pure, put?, Option.bind_eq_bind,
        Option.bind_eq_some_iff, Option.map_eq_some_iff] at hrecord
    · obtain ⟨put, hput, rfl⟩ := hrecord
      exact ⟨x, put, hx, hput, Or.inl ⟨hy, rfl⟩⟩
    · obtain ⟨_, ⟨put, hput, rfl⟩, put', hput', rfl⟩ := hrecord
      exact ⟨x, put, hx, hput, Or.inr ⟨y, put', hy, hput', rfl⟩⟩
    · obtain ⟨_, ⟨put', hput', rfl⟩, put, hput, rfl⟩ := hrecord
      exact ⟨x, put, hx, hput, Or.inr ⟨y, put', hy, hput', (hcommute hput hput').symm⟩⟩
  · rintro ⟨x, put, hx, hput, hlast⟩
    have hcame : Form.valuesAt first.name ms ≠ [] := by simp [hx]
    have honce : ∀ field ∈ s.fields, (Form.valuesAt field.name ms).length ≤ 1 := by
      refine (hall _).2 ⟨by simp [hx], ?_⟩
      rcases hlast with ⟨hy, -⟩ | ⟨y, _, hy, -⟩ <;> simp [hy]
    refine ⟨honce, (hall _).2 ⟨fun _ => hcame, fun h => absurd (hsecond.symm.trans h) nofun⟩, ?_⟩
    obtain ⟨x', hx', hknown⟩ := known_cases hfields hne honce hcame
    cases hx.symm.trans hx'
    rcases hlast with ⟨hy, rfl⟩ | ⟨y, put', hy, hput', rfl⟩ <;>
      rcases hknown with ⟨hy', hknown⟩ | ⟨y', hy', hknown⟩ <;> cases hy.symm.trans hy'
    · simp [hknown, put?, hput]
    · rcases hknown with hknown | hknown
      · simp [hknown, put?, hput, hput']
      · simp [hknown, put?, hput, hput', hcommute hput hput']

end Pairs

end Shape

end RegistryPublisher.Json
