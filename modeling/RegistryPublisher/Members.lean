/-!
# Members in key order

Association lists whose keys increase, compared character by character, which is the order of their UTF-8 bytes.

- `Members.insert` keeps the order and replaces an earlier value of the key (`find?_insert`, `ordered_insert`);
- `Members.ofList` inserts from left to right, so the last value of a key wins (`find?_ofList`, `ordered_ofList`).
-/

namespace RegistryPublisher.Members

variable {α : Type}

/-- Puts a value under a key; a value that was there is replaced. -/
def insert (k : String) (v : α) : List (String × α) → List (String × α)
  | [] => [(k, v)]
  | (k', v') :: ms => if k < k' then (k, v) :: (k', v') :: ms else if k = k' then (k, v) :: ms else
      (k', v') :: insert k v ms

/-- The value under a key. -/
def find? (k : String) (ms : List (String × α)) : Option α := (ms.find? fun m => m.1 == k).map Prod.snd

/-- All members, the last value of each key. -/
def ofList (ms : List (String × α)) : List (String × α) := ms.foldl (fun acc m => insert m.1 m.2 acc) []

/-- The keys increase strictly. -/
def Ordered (ms : List (String × α)) : Prop := ms.Pairwise fun a b => a.1 < b.1

/-- What is found after an insertion. -/
theorem find?_insert (k k' : String) (v : α) (ms : List (String × α)) :
    find? k' (insert k v ms) = if k = k' then some v else find? k' ms := by
  induction ms with
  | nil => by_cases h : k = k' <;> simp [insert, find?, h]
  | cons m ms ih =>
    obtain ⟨a, b⟩ := m
    simp only [find?] at ih
    unfold insert
    split
    · by_cases h : k = k' <;> simp [find?, h]
    · split
      · next h => subst h; by_cases h : k = k' <;> simp [find?, h]
      · next h1 h2 =>
        by_cases h : a = k'
        · subst h; simp [find?, h2]
        · simp [find?, h, ih]

/-- Insertion adds no key but its own. -/
theorem mem_insert {k : String} {v : α} {ms : List (String × α)} {m : String × α} (h : m ∈ insert k v ms) :
    m = (k, v) ∨ m ∈ ms := by
  induction ms with
  | nil => simpa [insert] using h
  | cons a ms ih =>
    obtain ⟨a, b⟩ := a
    unfold insert at h
    split at h
    · simpa using h
    · split at h
      · rcases List.mem_cons.1 h with h | h
        · exact Or.inl h
        · exact Or.inr (List.mem_cons_of_mem _ h)
      · rcases List.mem_cons.1 h with h | h
        · exact Or.inr (by simp [h])
        · rcases ih h with h | h
          · exact Or.inl h
          · exact Or.inr (List.mem_cons_of_mem _ h)

/-- A key that is neither smaller nor equal is larger. -/
theorem lt_of_not_lt {a b : String} (h : ¬a < b) (hne : a ≠ b) : b < a := by
  rcases Decidable.em (b < a) with hlt | hle
  · exact hlt
  · exact absurd (String.le_antisymm (String.not_lt.1 hle) (String.not_lt.1 h)) hne

/-- Insertion keeps the order of the keys. -/
theorem ordered_insert {k : String} {v : α} {ms : List (String × α)} (h : Ordered ms) : Ordered (insert k v ms) := by
  induction ms with
  | nil => simp [insert, Ordered]
  | cons a ms ih =>
    obtain ⟨a, b⟩ := a
    have hr : Ordered ms := (List.pairwise_cons.1 h).2
    have hh : ∀ m ∈ ms, a < m.1 := (List.pairwise_cons.1 h).1
    unfold insert
    split
    · next hk =>
      refine List.pairwise_cons.2 ⟨?_, h⟩
      intro m hm
      rcases List.mem_cons.1 hm with rfl | hm
      · exact hk
      · exact String.lt_trans hk (hh m hm)
    · split
      · next he => subst he; exact List.pairwise_cons.2 ⟨hh, hr⟩
      · next h1 h2 =>
        refine List.pairwise_cons.2 ⟨?_, ih hr⟩
        intro m hm
        rcases mem_insert hm with rfl | hm
        · exact lt_of_not_lt h1 h2
        · exact hh m hm

/-- The last value of a key is found. -/
theorem find?_ofList (k : String) (ms : List (String × α)) : find? k (ofList ms) = find? k ms.reverse := by
  have h : ∀ (ms acc : List (String × α)),
      find? k (ms.foldl (fun acc m => insert m.1 m.2 acc) acc) = (find? k ms.reverse).or (find? k acc) := by
    intro ms
    induction ms with
    | nil => intro acc; simp [find?]
    | cons m ms ih =>
      intro acc
      obtain ⟨a, b⟩ := m
      rw [List.foldl_cons, ih, find?_insert]
      by_cases ha : a = k
      · cases h : ms.reverse.find? fun m => m.1 == k <;> simp [find?, List.find?_append, ha, h]
      · simp [find?, List.find?_append, ha]
  simpa [find?, ofList] using h ms []

/-- The keys of a list of members increase. -/
theorem ordered_ofList (ms : List (String × α)) : Ordered (ofList ms) := by
  have h : ∀ (ms acc : List (String × α)), Ordered acc →
      Ordered (ms.foldl (fun acc m => insert m.1 m.2 acc) acc) := by
    intro ms
    induction ms with
    | nil => exact fun _ h => h
    | cons m ms ih => exact fun acc h => ih _ (ordered_insert h)
  exact h ms [] List.Pairwise.nil

end RegistryPublisher.Members
