import Mathlib.Data.List.Perm.Basic
import RegistryPublisher.Proofs.Descriptor.Passthrough
import RegistryPublisher.Proofs.Json.Representable

/-!
# Documents that say the same

- `Tree.Alike`: two documents differ in the order of the members of their objects only, at any depth, where keys come
  once; numbers are plain integers that are the same, or spelled the same;
- `find?_cases`: the members of two such objects agree under each key;
- `Alike.value?_eq`: such documents denote the same value.
-/

namespace RegistryPublisher.Json.Tree

/-- The documents differ in the order of members only, and keys come once in their objects. -/
inductive Alike : Tree → Tree → Prop
  | null : Alike null null
  | bool (b : Bool) : Alike (bool b) (bool b)
  | integer {n n' : Numeral} (h : n.IsPlain) (h' : n'.IsPlain) (same : n.int = n'.int) : Alike (number n) (number n')
  | spelled (n : Numeral) : Alike (number n) (number n)
  | string (s : String) : Alike (string s) (string s)
  | array {ts ts' : List Tree} (length : ts.length = ts'.length) (items : ∀ p ∈ ts.zip ts', Alike p.1 p.2) :
      Alike (array ts) (array ts')
  | object {ms ms' : List (String × Tree)} (keys : (ms.map Prod.fst).Perm (ms'.map Prod.fst))
      (distinct : (ms.map Prod.fst).Nodup) (values : ∀ m ∈ ms, ∀ m' ∈ ms', m.1 = m'.1 → Alike m.2 m'.2) :
      Alike (object ms) (object ms')

/-- Two members may change places. -/
theorem Alike.swap {k l : String} {u u' v v' : Tree} (hne : k ≠ l) (hu : u.Alike u') (hv : v.Alike v') :
    Alike (.object [(k, u), (l, v)]) (.object [(l, v'), (k, u')]) := by
  refine .object (List.Perm.swap l k []) (by simpa using hne) ?_
  simp only [List.forall_mem_cons, List.not_mem_nil, false_implies, implies_true, and_true]
  exact ⟨⟨fun h => absurd h hne, fun _ => hu⟩, fun _ => hv, fun h => absurd h.symm hne⟩

/-! ## Items -/

theorem values?_congr {ts ts' : List Tree} (length : ts.length = ts'.length)
    (items : ∀ p ∈ ts.zip ts', p.1.value? = p.2.value?) : values? ts = values? ts' := by
  induction ts generalizing ts' with
  | nil =>
    cases ts' with
    | nil => rfl
    | cons t' ts' => cases length
  | cons t ts ih =>
    cases ts' with
    | nil => cases length
    | cons t' ts' =>
      obtain ⟨hhead, hitems⟩ := List.forall_mem_cons.1 items
      rw [values?, values?, hhead, ih (Nat.succ.inj length) hitems]

/-! ## Members -/

section Members

variable {ms ms' : List (String × Tree)} {vs vs' : List (String × Json)}

/-- The value of an object whose keys come once has the values of its members. -/
theorem find?_ofList_of_nodup (h : members? ms = some vs) (hnodup : (ms.map Prod.fst).Nodup) (k : String) :
    Members.find? k (Members.ofList vs) = (Members.find? k ms).bind value? := by
  rw [Descriptor.find?_ofList_members? h, Members.find?_reverse hnodup]

theorem isSome_members?_iff : (∃ vs, members? ms = some vs) ↔ ∀ m ∈ ms, ∃ v, m.2.value? = some v := by
  constructor
  · rintro ⟨vs, hvs⟩ m hm
    obtain ⟨v, -, hv⟩ := mem_of_members? hvs hm
    exact ⟨v, hv⟩
  · intro h
    obtain ⟨vs, hvs, -⟩ := exists_members (P := fun _ => True) fun m hm => (h m hm).imp fun v hv => ⟨hv, trivial⟩
    exact ⟨vs, hvs⟩

/-- Objects have the same value when under each key there is the same value, or nothing. -/
theorem ofList_members?_congr (h : members? ms = some vs) (h' : members? ms' = some vs')
    (hnodup : (ms.map Prod.fst).Nodup) (hnodup' : (ms'.map Prod.fst).Nodup)
    (hfind : ∀ k, (Members.find? k ms).bind value? = (Members.find? k ms').bind value?) :
    Members.ofList vs = Members.ofList vs' := by
  refine Members.eq_of_find?_eq (Members.ordered_ofList vs) (Members.ordered_ofList vs') fun k => ?_
  rw [find?_ofList_of_nodup h hnodup, find?_ofList_of_nodup h' hnodup', hfind]

/-- Under each key there are members that are related, or none. -/
theorem find?_cases {R : Tree → Tree → Prop} (keys : (ms.map Prod.fst).Perm (ms'.map Prod.fst))
    (values : ∀ m ∈ ms, ∀ m' ∈ ms', m.1 = m'.1 → R m.2 m'.2) (k : String) :
    (Members.find? k ms = none ∧ Members.find? k ms' = none) ∨
      ∃ u u', Members.find? k ms = some u ∧ Members.find? k ms' = some u' ∧ R u u' := by
  have hkeys : k ∈ ms.map Prod.fst ↔ k ∈ ms'.map Prod.fst := keys.mem_iff
  cases h : Members.find? k ms with
  | none => exact Or.inl ⟨rfl, Members.find?_eq_none_iff.2 (mt hkeys.2 (Members.find?_eq_none_iff.1 h))⟩
  | some u =>
    have hu := Members.mem_of_find?_eq_some h
    cases h' : Members.find? k ms' with
    | none => exact absurd (hkeys.1 (List.mem_map_of_mem hu)) (Members.find?_eq_none_iff.1 h')
    | some u' => exact Or.inr ⟨u, u', rfl, rfl, values _ hu _ (Members.mem_of_find?_eq_some h') rfl⟩

theorem object_value?_congr (keys : (ms.map Prod.fst).Perm (ms'.map Prod.fst)) (distinct : (ms.map Prod.fst).Nodup)
    (values : ∀ m ∈ ms, ∀ m' ∈ ms', m.1 = m'.1 → m.2.value? = m'.2.value?) :
    (object ms).value? = (object ms').value? := by
  -- one object has a value when the other one has, since each member has a counterpart
  have hiff : (∃ vs, members? ms = some vs) ↔ ∃ vs, members? ms' = some vs := by
    rw [isSome_members?_iff, isSome_members?_iff]
    constructor
    · intro h m' hm'
      obtain ⟨m, hm, hk⟩ := List.mem_map.1 (keys.mem_iff.2 (List.mem_map_of_mem hm'))
      exact values m hm m' hm' hk ▸ h m hm
    · intro h m hm
      obtain ⟨m', hm', hk⟩ := List.mem_map.1 (keys.mem_iff.1 (List.mem_map_of_mem hm))
      exact values m hm m' hm' hk.symm ▸ h m' hm'
  have hfind : ∀ k, (Members.find? k ms).bind value? = (Members.find? k ms').bind value? := by
    intro k
    rcases find?_cases (R := fun u u' => u.value? = u'.value?) keys values k with ⟨h, h'⟩ | ⟨u, u', h, h', hu⟩
    · rw [h, h']
    · rw [h, h']
      exact hu
  rw [value?, value?]
  cases h : members? ms with
  | none =>
    cases h' : members? ms' with
    | none => rfl
    | some vs' =>
      obtain ⟨vs, hvs⟩ := hiff.2 ⟨vs', h'⟩
      cases h.symm.trans hvs
  | some vs =>
    obtain ⟨vs', h'⟩ := hiff.1 ⟨vs, h⟩
    rw [h', Option.map_some, Option.map_some, ofList_members?_congr h h' distinct (keys.nodup_iff.1 distinct) hfind]

end Members

/-- Documents that say the same denote the same value. -/
theorem Alike.value?_eq {t t' : Tree} (h : t.Alike t') : t.value? = t'.value? := by
  induction h with
  | null => rfl
  | bool b => rfl
  | integer h h' same => rw [value?, value?, h.value_eq, h'.value_eq, same]
  | spelled n => rfl
  | string s => rfl
  | array length _ ih => rw [value?, value?, values?_congr length ih]
  | object keys distinct _ ih => exact object_value?_congr keys distinct ih

end RegistryPublisher.Json.Tree
