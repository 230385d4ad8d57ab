import RegistryPublisher.Proofs.Descriptor.Shape
import RegistryPublisher.Proofs.Json.Decimals

/-!
# Places in documents

- `Tree.at?` and `Json.at?`: what stands at the end of a path, in a document and in a value, where each `Step` leads to a
  member or an item;
- `Tree.at?_value?`: numbers of a document are at the same places of its value;
- `Mirrors`: a value is written as a document that has its numbers at the same places, as is every value that can be
  held (`Representable.exists_mirror`) and every object whose keys come once (`exists_object_mirror`).
-/

namespace RegistryPublisher.Json

/-- A step from an object to the member of a key, or from an array to an item. -/
inductive Step where
  | key (k : String)
  | item (i : Nat)

/-- The part of a document that a step leads to. Of the members with one key it is the last. -/
def Tree.step? : Step → Tree → Option Tree
  | .key k, .object ms => Members.find? k ms.reverse
  | .item i, .array ts => ts[i]?
  | _, _ => none

/-- The part of a document at the end of a path. -/
def Tree.at? : List Step → Tree → Option Tree
  | [], t => some t
  | s :: p, t => (t.step? s).bind (Tree.at? p)

/-- The part of a value that a step leads to. -/
def step? : Step → Json → Option Json
  | .key k, .object ms => Members.find? k ms
  | .item i, .array vs => vs[i]?
  | _, _ => none

/-- The part of a value at the end of a path. -/
def at? : List Step → Json → Option Json
  | [], v => some v
  | s :: p, v => (v.step? s).bind (at? p)

/-! ## Reading -/

namespace Tree

theorem getElem?_values? {ts : List Tree} {vs : List Json} (h : values? ts = some vs) (i : Nat) :
    vs[i]? = ts[i]?.bind value? := by
  rw [values?_eq_mapM] at h
  induction ts generalizing vs i with
  | nil => cases h; rfl
  | cons t ts ih =>
    obtain ⟨v, vs, hv, hvs, rfl⟩ := mapM_cons_eq_some.1 h
    cases i with
    | zero => exact hv.symm
    | succ i => exact ih hvs i

/-- A step in a document is a step in its value. -/
theorem step?_value? {s : Step} {t u : Tree} {v : Json} (hv : t.value? = some v) (hu : t.step? s = some u) :
    ∃ w, u.value? = some w ∧ v.step? s = some w := by
  cases s with
  | key k =>
    cases t with
    | object ms =>
      rw [value?] at hv
      obtain ⟨vs, hvs, rfl⟩ := Option.map_eq_some_iff.1 hv
      have hu : Members.find? k ms.reverse = some u := hu
      obtain ⟨w, -, hw⟩ := mem_of_members? hvs (List.mem_reverse.1 (Members.mem_of_find?_eq_some hu))
      refine ⟨w, hw, ?_⟩
      rw [Json.step?, Descriptor.find?_ofList_members? hvs, hu]
      exact hw
    | _ => cases hu
  | item i =>
    cases t with
    | array ts =>
      rw [value?] at hv
      obtain ⟨vs, hvs, rfl⟩ := Option.map_eq_some_iff.1 hv
      have hu : ts[i]? = some u := hu
      obtain ⟨w, -, hw⟩ := mem_of_mapM (values?_eq_mapM ts ▸ hvs) (List.mem_of_getElem? hu)
      refine ⟨w, hw, ?_⟩
      rw [Json.step?, getElem?_values? hvs, hu]
      exact hw
    | _ => cases hu

theorem number_value? {n : Numeral} {v : Json} (h : (number n).value? = some v) :
    ∃ x, n.value = .ok x ∧ v = .number x := by
  rw [value?] at h
  obtain ⟨x, hx, rfl⟩ := Option.map_eq_some_iff.1 h
  cases hn : n.value with
  | ok y =>
    rw [hn] at hx
    cases hx
    exact ⟨x, rfl, rfl⟩
  | error k =>
    rw [hn] at hx
    cases hx

/-- A number of a document is at the same place of its value. -/
theorem at?_value? {n : Numeral} (p : List Step) : ∀ {t : Tree} {v : Json}, t.value? = some v →
    t.at? p = some (.number n) → ∃ x, n.value = .ok x ∧ v.at? p = some (.number x) := by
  induction p with
  | nil =>
    intro t v hv ht
    cases ht
    obtain ⟨x, hx, rfl⟩ := number_value? hv
    exact ⟨x, hx, rfl⟩
  | cons s p ih =>
    intro t v hv ht
    obtain ⟨u, hu, hat⟩ := Option.bind_eq_some_iff.1 ht
    obtain ⟨w, hw, hstep⟩ := step?_value? hv hu
    obtain ⟨x, hx, hplace⟩ := ih hw hat
    exact ⟨x, hx, Option.bind_eq_some_iff.2 ⟨w, hstep, hplace⟩⟩

end Tree

/-! ## Spelling what is written -/

theorem StringText.rendered (s : String) : StringText s (renderString s) := by
  obtain ⟨w, h, hw⟩ := readString_spelled_iff.1 (readString_rendered s [])
  rw [renderString, List.append_cancel_right h]
  exact .mk hw

/-- A value without white space around it. -/
theorem Spells.bare {t : Tree} {w : Bytes} (h : Spells (.value t) w) : Spells (.element t) w := by
  have := Spells.element Blank.nil h Blank.nil
  rwa [List.nil_append, List.append_nil] at this

theorem Spells.bareMember {k : String} {t : Tree} {w : Bytes} (h : Spells (.value t) w) :
    Spells (.member k t) (renderMember k w) :=
  .member Blank.nil (StringText.rendered k) Blank.nil h.bare

/-! ## Writing -/

/-- The value is written as the document, which has the same numbers at the same places. -/
structure Mirrors (v : Json) (t : Tree) : Prop where
  spells : Spells (.value t) v.render
  numbers : ∀ p x, v.at? p = some (.number x) → t.at? p = some (.number x.numeral)

/-- It is enough that numbers are at the same place where the two begin, and that each step leads to values and
documents of that kind. -/
theorem mirrors_of_steps {v : Json} {t : Tree} (spells : Spells (.value t) v.render)
    (root : ∀ x, v = .number x → t = .number x.numeral)
    (steps : ∀ s w, v.step? s = some w → ∃ u, t.step? s = some u ∧ Mirrors w u) : Mirrors v t := by
  refine ⟨spells, fun p x hx => ?_⟩
  cases p with
  | nil => exact congrArg some (root x (Option.some.inj hx))
  | cons s p =>
    obtain ⟨w, hw, hat⟩ := Option.bind_eq_some_iff.1 hx
    obtain ⟨u, hu, hmirrors⟩ := steps s w hw
    exact Option.bind_eq_some_iff.2 ⟨u, hu, hmirrors.numbers p x hat⟩

section Lists

variable {α β : Type} {R : α → β → Prop} {as : List α} {bs : List β}

theorem exists_forall₂ (h : ∀ a ∈ as, ∃ b, R a b) : ∃ bs, List.Forall₂ R as bs := by
  induction as with
  | nil => exact ⟨[], .nil⟩
  | cons a as ih =>
    obtain ⟨⟨b, hb⟩, h⟩ := List.forall_mem_cons.1 h
    obtain ⟨bs, hbs⟩ := ih h
    exact ⟨b :: bs, .cons hb hbs⟩

theorem forall₂_getElem? (h : List.Forall₂ R as bs) {i : Nat} {a : α} (ha : as[i]? = some a) :
    ∃ b, bs[i]? = some b ∧ R a b := by
  induction h generalizing i with
  | nil => cases ha
  | cons hab _ ih =>
    cases i with
    | zero =>
      cases ha
      exact ⟨_, rfl, hab⟩
    | succ i => exact ih ha

end Lists

section Arrays

variable {vs : List Json} {ts : List Tree}

theorem elements_spelled (h : List.Forall₂ Mirrors vs ts) (hne : vs ≠ []) :
    Spells (.elements ts) (separated (renderItems vs)) := by
  induction h with
  | nil => exact absurd rfl hne
  | cons hv hvs ih =>
    cases hvs with
    | nil => exact .lastElement hv.spells.bare
    | cons _ _ => exact .elements hv.spells.bare (ih (List.cons_ne_nil _ _))

theorem array_mirrors (h : List.Forall₂ Mirrors vs ts) : Mirrors (.array vs) (.array ts) := by
  refine mirrors_of_steps ?_ nofun fun s w hw => ?_
  · cases h with
    | nil => exact .emptyArray Blank.nil
    | cons hv hvs => exact .array (elements_spelled (.cons hv hvs) (List.cons_ne_nil _ _))
  · cases s with
    | key k => cases hw
    | item i => exact forall₂_getElem? h hw

end Arrays

section Objects

variable {ms : List (String × Json)} {ts : List (String × Tree)}

/-- Members with the same keys, one list written as the other. -/
def MirrorMembers (ms : List (String × Json)) (ts : List (String × Tree)) : Prop :=
  List.Forall₂ (fun m t => t.1 = m.1 ∧ Mirrors m.2 t.2) ms ts

theorem MirrorMembers.keys (h : MirrorMembers ms ts) : ts.map Prod.fst = ms.map Prod.fst := by
  induction h with
  | nil => rfl
  | cons hm _ ih => rw [List.map_cons, List.map_cons, hm.1, ih]

theorem MirrorMembers.find? (h : MirrorMembers ms ts) {k : String} {v : Json} (hv : Members.find? k ms = some v) :
    ∃ t, Members.find? k ts = some t ∧ Mirrors v t := by
  induction h with
  | nil => cases hv
  | cons hm _ ih =>
    rw [Members.find?_cons] at hv ⊢
    rw [hm.1]
    split at hv
    · next hk =>
      cases hv
      exact ⟨_, if_pos hk, hm.2⟩
    · next hk =>
      obtain ⟨t, ht, hmirrors⟩ := ih hv
      exact ⟨t, (if_neg hk).trans ht, hmirrors⟩

theorem MirrorMembers.spelled (h : MirrorMembers ms ts) (hne : ms ≠ []) :
    Spells (.members ts) (separated (renderMembers ms)) := by
  induction h with
  | nil => exact absurd rfl hne
  | @cons m t ms ts hm hms ih =>
    obtain ⟨k, v⟩ := m
    obtain ⟨k', t⟩ := t
    obtain ⟨rfl, hv⟩ := hm
    cases hms with
    | nil => exact .lastMember hv.spells.bareMember
    | cons _ _ => exact .members hv.spells.bareMember (ih (List.cons_ne_nil _ _))

/-- Objects whose keys come once mirror their members. -/
theorem object_mirrors (h : MirrorMembers ms ts) (hnodup : (ms.map Prod.fst).Nodup) :
    Mirrors (.object ms) (.object ts) := by
  refine mirrors_of_steps ?_ nofun fun s w hw => ?_
  · cases h with
    | nil => exact .emptyObject Blank.nil
    | cons hm hms => exact .object (MirrorMembers.spelled (.cons hm hms) (List.cons_ne_nil _ _))
  · cases s with
    | item i => cases hw
    | key k =>
      rw [Tree.step?, Members.find?_reverse (h.keys ▸ hnodup)]
      exact h.find? hw

end Objects

/-- An object whose keys come once is written as a document when its members are. -/
theorem exists_object_mirror {ms : List (String × Json)} (hnodup : (ms.map Prod.fst).Nodup)
    (h : ∀ m ∈ ms, ∃ t, Mirrors m.2 t) : ∃ ts, Mirrors (.object ms) (.object ts) := by
  obtain ⟨ts, hts⟩ := exists_forall₂ (R := fun m t => t.1 = m.1 ∧ Mirrors m.2 t.2) fun m hm =>
    let ⟨t, ht⟩ := h m hm
    ⟨(m.1, t), rfl, ht⟩
  exact ⟨ts, object_mirrors hts hnodup⟩

theorem number_mirrors (x : Number) : Mirrors (.number x) (.number x.numeral) :=
  mirrors_of_steps (.number x.render_spelled) (fun _ h => by cases h; rfl) fun s _ h => by cases s <;> cases h

/-- **Every value that can be held is written as a document** with the same numbers at the same places. -/
theorem Representable.exists_mirror {v : Json} (h : v.Representable) : ∃ t, Mirrors v t := by
  induction h with
  | null => exact ⟨.null, mirrors_of_steps .null nofun fun s _ h => by cases s <;> cases h⟩
  | bool b => exact ⟨.bool b, mirrors_of_steps (.bool b) nofun fun s _ h => by cases s <;> cases h⟩
  | integer => exact ⟨_, number_mirrors _⟩
  | float x => exact ⟨_, number_mirrors _⟩
  | string s => exact ⟨.string s, mirrors_of_steps (.string (.rendered s)) nofun fun s _ h => by cases s <;> cases h⟩
  | array _ ih =>
    obtain ⟨ts, hts⟩ := exists_forall₂ ih
    exact ⟨.array ts, array_mirrors hts⟩
  | object ho _ ih =>
    obtain ⟨ts, hts⟩ := exists_object_mirror (Members.nodup_of_ordered ho) ih
    exact ⟨.object ts, hts⟩

end RegistryPublisher.Json
