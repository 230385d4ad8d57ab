import Mathlib.Data.List.Nodup
import RegistryPublisher.Members

/-!
# Members and their keys

- `mem_ofList`: no member is made up;
- `ofList_eq_self`: members in key order stay as they are;
- `find?_eq_none_iff`, `find?_append`, `find?_filter`, `find?_reverse`: where a key is found;
- `mem_ofList_iff`: the sorted members are the last ones of their keys;
- `eq_of_find?_eq`: members in key order are known by what is found under each key.
-/

namespace RegistryPublisher.Members

variable {α : Type}

theorem mem_ofList {ms : List (String × α)} {m : String × α} (h : m ∈ ofList ms) : m ∈ ms := by
  have key : ∀ (ms acc : List (String × α)),
      m ∈ ms.foldl (fun acc m => insert m.1 m.2 acc) acc → m ∈ acc ∨ m ∈ ms := by
    intro ms
    induction ms with
    | nil => exact fun _ h => Or.inl h
    | cons a ms ih =>
      intro acc h
      rcases ih _ h with h | h
      · rcases mem_insert h with rfl | h
        · exact Or.inr (List.mem_cons_self ..)
        · exact Or.inl h
      · exact Or.inr (List.mem_cons_of_mem _ h)
  exact (key ms [] h).resolve_left (List.not_mem_nil)

/-- A key above all others comes last. -/
theorem insert_eq_append {k : String} {v : α} {ms : List (String × α)} (h : ∀ m ∈ ms, m.1 < k) :
    insert k v ms = ms ++ [(k, v)] := by
  induction ms with
  | nil => rfl
  | cons a ms ih =>
    have ha : a.1 < k := h a (List.mem_cons_self ..)
    have hne : ¬k = a.1 := fun e => String.lt_irrefl _ (e ▸ ha)
    rw [insert, if_neg (String.lt_asymm ha), if_neg hne, ih fun m hm => h m (List.mem_cons_of_mem _ hm)]
    rfl

/-- Members in key order stay as they are. -/
theorem ofList_eq_self {ms : List (String × α)} (h : Ordered ms) : ofList ms = ms := by
  have key : ∀ (ms acc : List (String × α)), Ordered (acc ++ ms) →
      ms.foldl (fun acc m => insert m.1 m.2 acc) acc = acc ++ ms := by
    intro ms
    induction ms with
    | nil => simp
    | cons m ms ih =>
      intro acc h
      have hlast : ∀ a ∈ acc, a.1 < m.1 := fun a ha => (List.pairwise_append.1 h).2.2 a ha m (List.mem_cons_self ..)
      rw [List.foldl_cons, insert_eq_append hlast, ih _ (by simpa using h), List.append_assoc]
      rfl
  exact key ms [] h

theorem find?_cons (k : String) (m : String × α) (ms : List (String × α)) :
    find? k (m :: ms) = if m.1 = k then some m.2 else find? k ms := by
  by_cases h : m.1 = k <;> simp [find?, h]

theorem find?_append (k : String) (ms ns : List (String × α)) :
    find? k (ms ++ ns) = (find? k ms).or (find? k ns) := by
  induction ms with
  | nil => rfl
  | cons m ms ih =>
    rw [List.cons_append, find?_cons, find?_cons, ih]
    split <;> rfl

theorem find?_eq_none_iff {k : String} {ms : List (String × α)} : find? k ms = none ↔ k ∉ ms.map Prod.fst := by
  induction ms with
  | nil => simp [find?]
  | cons m ms ih =>
    rw [find?_cons]
    by_cases h : m.1 = k
    · simp [h]
    · simp [h, ih, Ne.symm h]

theorem mem_of_find?_eq_some {k : String} {v : α} {ms : List (String × α)} (h : find? k ms = some v) : (k, v) ∈ ms := by
  induction ms with
  | nil => cases h
  | cons m ms ih =>
    rw [find?_cons] at h
    split at h
    · next hk =>
      cases h
      subst hk
      exact List.mem_cons_self ..
    · exact List.mem_cons_of_mem _ (ih h)

theorem find?_filter {p : String → Bool} {k : String} (h : p k = true) (ms : List (String × α)) :
    find? k (ms.filter fun m => p m.1) = find? k ms := by
  induction ms with
  | nil => rfl
  | cons m ms ih =>
    rw [List.filter_cons, find?_cons]
    split
    · rw [find?_cons, ih]
    · next hm =>
      rw [ih, if_neg]
      rintro rfl
      exact hm h

/-- The first and the last value of a key are the same when keys come once. -/
theorem find?_reverse {ms : List (String × α)} (h : (ms.map Prod.fst).Nodup) (k : String) :
    find? k ms.reverse = find? k ms := by
  induction ms with
  | nil => rfl
  | cons m ms ih =>
    rw [List.map_cons, List.nodup_cons] at h
    rw [List.reverse_cons, find?_append, ih h.2, find?_cons, find?_cons]
    split
    · next hk => rw [find?_eq_none_iff.2 (hk ▸ h.1)]; rfl
    · cases find? k ms <;> rfl

/-- A member is found when its key comes once. -/
theorem find?_of_mem {k : String} {v : α} {ms : List (String × α)} (h : (ms.map Prod.fst).count k ≤ 1)
    (hm : (k, v) ∈ ms) : find? k ms = some v := by
  induction ms with
  | nil => cases hm
  | cons m ms ih =>
    rw [find?_cons]
    rw [List.map_cons, List.count_cons] at h
    rcases List.mem_cons.1 hm with rfl | hm
    · exact if_pos rfl
    · have hone : 0 < (ms.map Prod.fst).count k := List.count_pos_iff.2 (List.mem_map_of_mem hm)
      have hne : ¬m.1 = k := by
        intro hk
        rw [if_pos (by simpa using hk)] at h
        omega
      rw [if_neg hne]
      exact ih (by omega) hm

/-- Backwards, the last member of a key is found. -/
theorem find?_reverse_eq_some_iff {k : String} {v : α} {ms : List (String × α)} : find? k ms.reverse = some v ↔
    ∃ before after, ms = before ++ (k, v) :: after ∧ k ∉ after.map Prod.fst := by
  constructor
  · intro h
    induction ms with
    | nil => cases h
    | cons m ms ih =>
      rw [List.reverse_cons, find?_append] at h
      rcases Option.or_eq_some_iff.1 h with h | ⟨hnone, h⟩
      · obtain ⟨before, after, rfl, hafter⟩ := ih h
        exact ⟨m :: before, after, rfl, hafter⟩
      · have hk := find?_eq_none_iff.1 hnone
        rw [List.map_reverse, List.mem_reverse] at hk
        obtain rfl := List.mem_singleton.1 (mem_of_find?_eq_some h)
        exact ⟨[], ms, rfl, hk⟩
  · rintro ⟨before, after, rfl, hafter⟩
    have hnone : find? k after.reverse = none := by
      rw [find?_eq_none_iff, List.map_reverse, List.mem_reverse]
      exact hafter
    rw [List.reverse_append, List.reverse_cons, find?_append, find?_append, hnone, find?_cons, if_pos rfl]
    rfl

theorem nodup_of_ordered {ms : List (String × α)} (h : Ordered ms) : (ms.map Prod.fst).Nodup := by
  refine List.pairwise_map.2 (h.imp ?_)
  intro a b hlt he
  exact String.lt_irrefl _ (he ▸ hlt)

/-- The sorted members are the last ones of their keys. -/
theorem mem_ofList_iff {k : String} {v : α} {ms : List (String × α)} :
    (k, v) ∈ ofList ms ↔ find? k ms.reverse = some v := by
  rw [← find?_ofList]
  constructor
  · exact find?_of_mem (List.nodup_iff_count_le_one.1 (nodup_of_ordered (ordered_ofList ms)) k)
  · exact mem_of_find?_eq_some

/-- A key below all others is not found. -/
theorem find?_eq_none_of_lt {k : String} {ms : List (String × α)} (h : ∀ m ∈ ms, k < m.1) : find? k ms = none := by
  refine find?_eq_none_iff.2 fun hk => ?_
  obtain ⟨m, hm, rfl⟩ := List.mem_map.1 hk
  exact String.lt_irrefl _ (h m hm)

/-- The first key of members in key order is not larger than any that is found. -/
theorem not_lt_head {m n : String × α} {ms ns : List (String × α)} (hn : Ordered (n :: ns))
    (h : ∀ k, find? k (m :: ms) = find? k (n :: ns)) : ¬m.1 < n.1 := by
  intro hlt
  have hnone := find?_eq_none_of_lt
    (List.forall_mem_cons.2 ⟨hlt, fun a ha => String.lt_trans hlt ((List.pairwise_cons.1 hn).1 a ha)⟩)
  have := h m.1
  rw [hnone, find?_cons, if_pos rfl] at this
  cases this

/-- In key order, members are known by what is found under each key. -/
theorem eq_of_find?_eq {ms ns : List (String × α)} (hm : Ordered ms) (hn : Ordered ns)
    (h : ∀ k, find? k ms = find? k ns) : ms = ns := by
  induction ms generalizing ns with
  | nil =>
    cases ns with
    | nil => rfl
    | cons n ns =>
      have := h n.1
      rw [find?_cons, if_pos rfl] at this
      cases this
  | cons m ms ih =>
    cases ns with
    | nil =>
      have := h m.1
      rw [find?_cons, if_pos rfl] at this
      cases this
    | cons n ns =>
      have hkey : m.1 = n.1 := by
        rcases Decidable.em (m.1 = n.1) with he | hne
        · exact he
        · exact absurd (lt_of_not_lt (not_lt_head hn h) hne) (not_lt_head hm fun k => (h k).symm)
      obtain ⟨hm₁, hm⟩ := List.pairwise_cons.1 hm
      obtain ⟨hn₁, hn⟩ := List.pairwise_cons.1 hn
      have hval : m.2 = n.2 := by
        have := h m.1
        rw [find?_cons, find?_cons, if_pos rfl, if_pos hkey.symm] at this
        exact Option.some.inj this
      have htail : ms = ns := by
        refine ih hm hn fun k => ?_
        by_cases hk : m.1 = k
        · rw [find?_eq_none_of_lt fun a ha => hk ▸ hm₁ a ha, find?_eq_none_of_lt fun a ha => hk ▸ hkey ▸ hn₁ a ha]
        · have := h k
          rwa [find?_cons, find?_cons, if_neg hk, if_neg (hkey ▸ hk)] at this
      rw [htail, Prod.ext hkey hval]

end RegistryPublisher.Members
