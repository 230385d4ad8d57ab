import RegistryPublisher.Proofs.Json.Plain

/-!
# Values that can be held

- `Json.Representable`: integers fit 64 bits and objects are maps, as in every value that was read
  (`Tree.Within.value?`);
- `Json.FloatFree`: there are no doubles; `Json.Within`: how many brackets are open at a time when it is written;
- `FloatFree.plain`: with all three a value is plain, so that it is written without loss.
-/

namespace RegistryPublisher

namespace Json

/-! ## What values are like -/

/-- Integers fit 64 bits, and the members of every object stand in key order, each key once. -/
inductive Representable : Json → Prop
  | null : Representable null
  | bool (b : Bool) : Representable (bool b)
  | integer {i : Int} (h : Number.Holds i) : Representable (number (.integer i))
  | float (x : Binary64) : Representable (number (.float x))
  | string (s : String) : Representable (string s)
  | array {vs : List Json} (h : ∀ v ∈ vs, Representable v) : Representable (array vs)
  | object {ms : List (String × Json)} (ordered : Members.Ordered ms) (h : ∀ m ∈ ms, Representable m.2) :
      Representable (object ms)

/-- There are no doubles. -/
inductive FloatFree : Json → Prop
  | null : FloatFree null
  | bool (b : Bool) : FloatFree (bool b)
  | integer (i : Int) : FloatFree (number (.integer i))
  | string (s : String) : FloatFree (string s)
  | array {vs : List Json} (h : ∀ v ∈ vs, FloatFree v) : FloatFree (array vs)
  | object {ms : List (String × Json)} (h : ∀ m ∈ ms, FloatFree m.2) : FloatFree (object ms)

/-- At most `depth` brackets are open at a time when the value is written. -/
inductive Within : Nat → Json → Prop
  | null {depth : Nat} : Within depth null
  | bool {depth : Nat} (b : Bool) : Within depth (bool b)
  | number {depth : Nat} (n : Number) : Within depth (number n)
  | string {depth : Nat} (s : String) : Within depth (string s)
  | array {depth : Nat} {vs : List Json} (h : ∀ v ∈ vs, Within depth v) : Within (depth + 1) (array vs)
  | object {depth : Nat} {ms : List (String × Json)} (h : ∀ m ∈ ms, Within depth m.2) : Within (depth + 1) (object ms)

/-- An object takes one bracket more than its members. -/
theorem within_object_iff {depth : Nat} {ms : List (String × Json)} :
    (object ms).Within (depth + 1) ↔ ∀ m ∈ ms, m.2.Within depth := by
  constructor
  · rintro ⟨⟩
    assumption
  · exact .object

theorem Representable.sorted {v : Json} (h : v.Representable) : v.Sorted := by
  induction h with
  | null => exact .null
  | bool b => exact .bool b
  | integer h => exact .number _
  | float x => exact .number _
  | string s => exact .string s
  | array _ ih => exact .array ih
  | object ho _ ih => exact .object ho ih

/-- Without doubles a value is plain as far as its brackets go. -/
theorem FloatFree.plain {v : Json} (hf : v.FloatFree) (h : v.Representable) {depth : Nat} (hd : v.Within depth) :
    v.Plain depth := by
  induction hd with
  | null => exact .null
  | bool b => exact .bool b
  | number n =>
    cases h with
    | integer h => exact .integer h
    | float x => cases hf
  | string s => exact .string s
  | array _ ih =>
    cases hf with | array hf =>
    cases h with | array h => exact .array fun v hv => ih v hv (hf v hv) (h v hv)
  | object _ ih =>
    cases hf with | object hf =>
    cases h with | object _ h => exact .object fun m hm => ih m hm (hf m hm) (h m hm)

/-! ## Values of documents -/

theorem absorb_le {ds : List Nat} : ∀ {n : Nat}, n ≤ maxInteger → (absorb n ds).1 ≤ maxInteger := by
  induction ds with
  | nil => exact fun h => h
  | cons d ds ih =>
    intro n h
    rw [absorb]
    split
    · next hd => exact ih hd
    · exact h

/-- An integer that was read fits 64 bits. -/
theorem Numeral.integer?_holds {n : Numeral} {i : Int} (h : n.integer? = some i) : Number.Holds i := by
  have h63 : Number.pow2 63 = 9223372036854775808 := rfl
  have h64 : Number.pow2 64 = 18446744073709551616 := rfl
  have hm : (absorb 0 n.whole).1 ≤ Number.pow2 64 - 1 := absorb_le (Nat.zero_le _)
  rw [integer?] at h
  split at h
  · next m _ _ ha =>
    rw [ha] at hm
    simp only at hm
    split at h
    · split at h
      · next hb =>
        cases h
        exact ⟨by omega, by omega⟩
      · cases h
    · cases h
      exact ⟨by omega, by omega⟩
  · cases h

theorem Numeral.value_representable {n : Numeral} {x : Number} (h : n.value = .ok x) :
    (Json.number x).Representable := by
  rw [value] at h
  split at h
  · next i hi =>
    cases h
    exact .integer (integer?_holds hi)
  · cases hd : n.double with
    | ok y => rw [hd] at h; cases h; exact .float y
    | error k => rw [hd] at h; cases h

section Lists

variable {α β : Type} {g : α → Option β} {as : List α} {bs : List β}

theorem exists_of_mem_mapM (h : as.mapM g = some bs) {b : β} (hb : b ∈ bs) : ∃ a ∈ as, g a = some b := by
  induction as generalizing bs with
  | nil => cases h; cases hb
  | cons a as ih =>
    obtain ⟨c, cs, hc, hcs, rfl⟩ := mapM_cons_eq_some.1 h
    rcases List.mem_cons.1 hb with rfl | hb
    · exact ⟨a, List.mem_cons_self .., hc⟩
    · obtain ⟨a', ha', hg⟩ := ih hcs hb
      exact ⟨a', List.mem_cons_of_mem _ ha', hg⟩

theorem mem_of_mapM (h : as.mapM g = some bs) {a : α} (ha : a ∈ as) : ∃ b ∈ bs, g a = some b := by
  induction as generalizing bs with
  | nil => cases ha
  | cons c as ih =>
    obtain ⟨d, ds, hd, hds, rfl⟩ := mapM_cons_eq_some.1 h
    rcases List.mem_cons.1 ha with rfl | ha
    · exact ⟨d, List.mem_cons_self .., hd⟩
    · obtain ⟨b, hb, hg⟩ := ih hds ha
      exact ⟨b, List.mem_cons_of_mem _ hb, hg⟩

end Lists

namespace Tree

variable {ms : List (String × Tree)} {vs : List (String × Json)}

/-- Every member of the value of an object is the value of a member. -/
theorem exists_of_mem_members? (h : members? ms = some vs) {m : String × Json} (hm : m ∈ vs) :
    ∃ n ∈ ms, n.1 = m.1 ∧ n.2.value? = some m.2 := by
  rw [members?_eq_mapM] at h
  obtain ⟨n, hn, hv⟩ := exists_of_mem_mapM h hm
  obtain ⟨hv, hk⟩ := onValue_eq_some_iff.1 hv
  exact ⟨n, hn, hk.symm, hv⟩

/-- Every member has a value, when they all do. -/
theorem mem_of_members? (h : members? ms = some vs) {n : String × Tree} (hn : n ∈ ms) :
    ∃ v, (n.1, v) ∈ vs ∧ n.2.value? = some v := by
  rw [members?_eq_mapM] at h
  obtain ⟨⟨k, v⟩, hm, hv⟩ := mem_of_mapM h hn
  obtain ⟨hv, rfl⟩ := onValue_eq_some_iff.1 hv
  exact ⟨v, hm, hv⟩

/-- The value of a document can be held, and it has no more brackets than the document. -/
theorem Within.value? {depth : Nat} {t : Tree} (h : t.Within depth) {v : Json} (hv : t.value? = some v) :
    v.Representable ∧ v.Within depth := by
  induction h generalizing v with
  | null => cases hv; exact ⟨.null, .null⟩
  | bool b => cases hv; exact ⟨.bool b, .bool b⟩
  | string s => cases hv; exact ⟨.string s, .string s⟩
  | number n =>
    rw [Tree.value?] at hv
    obtain ⟨x, hx, rfl⟩ := Option.map_eq_some_iff.1 hv
    cases hn : n.value with
    | ok y =>
      rw [hn] at hx
      cases hx
      exact ⟨Numeral.value_representable hn, .number x⟩
    | error k => rw [hn] at hx; cases hx
  | @array depth _ _ ih =>
    rw [Tree.value?, values?_eq_mapM] at hv
    obtain ⟨vs, hvs, rfl⟩ := Option.map_eq_some_iff.1 hv
    have hall : ∀ v ∈ vs, v.Representable ∧ Json.Within depth v := by
      intro v hv
      obtain ⟨t, ht, htv⟩ := exists_of_mem_mapM hvs hv
      exact ih t ht htv
    exact ⟨.array fun v hv => (hall v hv).1, .array fun v hv => (hall v hv).2⟩
  | @object depth _ _ ih =>
    rw [Tree.value?] at hv
    obtain ⟨vs, hvs, rfl⟩ := Option.map_eq_some_iff.1 hv
    have hall : ∀ m ∈ Members.ofList vs, m.2.Representable ∧ Json.Within depth m.2 := by
      intro m hm
      obtain ⟨n, hn, -, hv⟩ := exists_of_mem_members? hvs (Members.mem_ofList hm)
      exact ih n hn hv
    exact ⟨.object (Members.ordered_ofList vs) fun m hm => (hall m hm).1, .object fun m hm => (hall m hm).2⟩

theorem value?_eq_string {t : Tree} {s : String} (h : t.value? = some (.string s)) : t = .string s := by
  cases t with
  | string s' => cases h; rfl
  | null => cases h
  | bool b => cases h
  | number n => obtain ⟨x, -, hx⟩ := Option.map_eq_some_iff.1 h; cases hx
  | array ts => obtain ⟨x, -, hx⟩ := Option.map_eq_some_iff.1 h; cases hx
  | object ms => obtain ⟨x, -, hx⟩ := Option.map_eq_some_iff.1 h; cases hx

end Tree

end Json

end RegistryPublisher
