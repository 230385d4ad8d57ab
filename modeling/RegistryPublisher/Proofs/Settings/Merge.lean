import RegistryPublisher.Proofs.Members
import RegistryPublisher.Settings.Value

/-!
# Merged values

- `Value.Sorted`: the keys of every table increase; merging keeps this (`Sorted.merge`);
- `Value.IsLayer`: a sorted table, which every source of settings gives;
- `get?_merge`: under each key, a merged table has what one of the two has there, or the two merged (`overlaid`);
- `get?_merge_congr`: what a merge has under a key depends on what both have under this key.
-/

namespace RegistryPublisher.Settings.Value

/-- The keys of every table increase. -/
inductive Sorted : Value → Prop
  | string (s : String) : Sorted (string s)
  | bool (b : Bool) : Sorted (bool b)
  | signed (i : Int) : Sorted (signed i)
  | unsigned (n : Nat) : Sorted (unsigned n)
  | float (x : Extended) : Sorted (float x)
  | array {vs : List Value} (h : ∀ v ∈ vs, Sorted v) : Sorted (array vs)
  | table {ms : List (String × Value)} (ordered : Members.Ordered ms) (h : ∀ m ∈ ms, Sorted m.2) : Sorted (table ms)

theorem Sorted.ordered {ms : List (String × Value)} (h : (Value.table ms).Sorted) : Members.Ordered ms := by
  cases h with
  | table ordered _ => exact ordered

theorem Sorted.members {ms : List (String × Value)} (h : (Value.table ms).Sorted) : ∀ m ∈ ms, m.2.Sorted := by
  cases h with
  | table _ h => exact h

theorem Sorted.empty : (Value.table []).Sorted := .table .nil fun _ hm => nomatch hm

theorem Sorted.insert {k : String} {v : Value} {ms : List (String × Value)} (hv : v.Sorted) (h : (Value.table ms).Sorted) :
    (Value.table (Members.insert k v ms)).Sorted := by
  refine .table (Members.ordered_insert h.ordered) fun m hm => ?_
  rcases Members.mem_insert hm with rfl | hm
  · exact hv
  · exact h.members m hm

theorem Sorted.ofList {ms : List (String × Value)} (h : ∀ m ∈ ms, m.2.Sorted) : (Value.table (Members.ofList ms)).Sorted :=
  .table (Members.ordered_ofList ms) fun m hm => h m (Members.mem_ofList hm)

theorem Sorted.find? {k : String} {v : Value} {ms : List (String × Value)} (h : (Value.table ms).Sorted)
    (hv : Members.find? k ms = some v) : v.Sorted :=
  h.members (k, v) (Members.mem_of_find?_eq_some hv)

theorem Sorted.nest {v : Value} (h : v.Sorted) (keys : List String) : (Value.nest keys v).Sorted := by
  induction keys with
  | nil => exact h
  | cons k keys ih => exact Sorted.insert ih .empty

/-- A sorted table, the form of all that a source of settings says. -/
structure IsLayer (v : Value) : Prop where
  isTable : ∃ ms, v = table ms
  sorted : v.Sorted

theorem IsLayer.empty : (Value.table []).IsLayer := ⟨⟨[], rfl⟩, .empty⟩

theorem IsLayer.nest {v : Value} (h : v.Sorted) {keys : List String} (hne : keys ≠ []) : (Value.nest keys v).IsLayer := by
  refine ⟨?_, h.nest keys⟩
  cases keys with
  | nil => exact absurd rfl hne
  | cons k keys => exact ⟨_, rfl⟩

/-! ## Merging -/

theorem merge_table (ms ns : List (String × Value)) : (table ms).merge (table ns) = table (mergeMembers ms ns) := by
  rw [merge]

/-- Merged values are sorted when both are. -/
theorem Sorted.merge {v : Value} (h : v.Sorted) : ∀ {old : Value}, old.Sorted → (old.merge v).Sorted := by
  induction h with
  | @table ns ordered h ih =>
    have hmembers : ∀ ns : List (String × Value), (∀ m ∈ ns, m.2.Sorted) →
        (∀ m ∈ ns, ∀ {old : Value}, old.Sorted → (old.merge m.2).Sorted) →
        ∀ ms, (Value.table ms).Sorted → (Value.table (mergeMembers ms ns)).Sorted := by
      intro ns
      induction ns with
      | nil => exact fun _ _ ms hms => by rwa [mergeMembers]
      | cons n ns ihns =>
        intro h ih ms hms
        obtain ⟨k, v⟩ := n
        obtain ⟨hv, h⟩ := List.forall_mem_cons.1 h
        obtain ⟨hmerge, ih⟩ := List.forall_mem_cons.1 ih
        rw [mergeMembers]
        refine ihns h ih _ (Sorted.insert ?_ hms)
        split
        · next o ho => exact hmerge (hms.find? ho)
        · exact hv
    intro old hold
    cases old with
    | table ms => rw [merge_table]; exact hmembers ns h ih ms hold
    | _ => simp only [Value.merge]; exact .table ordered h
  -- a value that is no table replaces what was there
  | string s => intro old _; simp only [Value.merge]; exact .string s
  | bool b => intro old _; simp only [Value.merge]; exact .bool b
  | signed i => intro old _; simp only [Value.merge]; exact .signed i
  | unsigned n => intro old _; simp only [Value.merge]; exact .unsigned n
  | float x => intro old _; simp only [Value.merge]; exact .float x
  | array h _ => intro old _; simp only [Value.merge]; exact .array h

/-- With a table over it anything becomes a table. -/
theorem merge_isTable (old : Value) {v : Value} (h : ∃ ms, v = table ms) : ∃ ms, old.merge v = table ms := by
  obtain ⟨ns, rfl⟩ := h
  cases old with
  | table ms => exact ⟨_, merge_table ms ns⟩
  | _ => exact ⟨ns, by simp only [merge]⟩

theorem IsLayer.merge {old v : Value} (ho : old.IsLayer) (h : v.IsLayer) : (old.merge v).IsLayer :=
  ⟨merge_isTable old h.isTable, h.sorted.merge ho.sorted⟩

/-! ## Keys of merged tables -/

/-- The value under a key of a table. -/
def get? (k : String) : Value → Option Value
  | table ms => Members.find? k ms
  | _ => none

/-- What is under a key when a table is put over another, from what both have there. -/
def overlaid : Option Value → Option Value → Option Value
  | old, none => old
  | none, some v => some v
  | some o, some v => some (o.merge v)

theorem overlaid_none (old : Option Value) : overlaid old none = old := by cases old <;> rfl

theorem none_overlaid (new : Option Value) : overlaid none new = new := by cases new <;> rfl

theorem find?_mergeMembers (k : String) {ns : List (String × Value)} (h : (ns.map Prod.fst).Nodup) :
    ∀ ms, Members.find? k (mergeMembers ms ns) = overlaid (Members.find? k ms) (Members.find? k ns) := by
  induction ns with
  | nil => exact fun ms => by rw [mergeMembers]; exact (overlaid_none _).symm
  | cons n ns ih =>
    intro ms
    obtain ⟨a, v⟩ := n
    obtain ⟨hnew, h⟩ := List.nodup_cons.1 h
    rw [mergeMembers, ih h, Members.find?_insert, Members.find?_cons]
    by_cases ha : a = k
    · -- the rest of the new table does not come back to the key
      subst ha
      rw [if_pos rfl, if_pos rfl, Members.find?_eq_none_iff.2 hnew]
      cases Members.find? a ms <;> rfl
    · rw [if_neg ha, if_neg ha]

/-- Under a key of a merged table is what one of the two has there, or the two merged. -/
theorem get?_merge (k : String) (old : Value) {v : Value} (h : v.IsLayer) :
    (old.merge v).get? k = overlaid (old.get? k) (v.get? k) := by
  obtain ⟨⟨ns, rfl⟩, hs⟩ := h
  cases old with
  | table ms => rw [merge_table]; exact find?_mergeMembers k (Members.nodup_of_ordered hs.ordered) ms
  | _ =>
    simp only [merge, get?]
    cases Members.find? k ns <;> rfl

/-- What a merge has under a key depends on what both have there. -/
theorem get?_merge_congr {k : String} {old old' v v' : Value} (h : v.IsLayer) (h' : v'.IsLayer)
    (hold : old'.get? k = old.get? k) (hnew : v'.get? k = v.get? k) :
    (old'.merge v').get? k = (old.merge v).get? k := by
  rw [get?_merge k old' h', get?_merge k old h, hold, hnew]

/-- A table inside a layer is one too. -/
theorem IsLayer.get? {k : String} {v : Value} {ns : List (String × Value)} (h : v.IsLayer)
    (hk : v.get? k = some (Value.table ns)) : (Value.table ns).IsLayer := by
  obtain ⟨⟨ms, rfl⟩, hs⟩ := h
  exact ⟨⟨ns, rfl⟩, hs.find? hk⟩

theorem get?_nest (k a : String) (keys : List String) (v : Value) :
    (nest (a :: keys) v).get? k = if a = k then some (nest keys v) else none :=
  Members.find?_cons k (a, nest keys v) []

end RegistryPublisher.Settings.Value
