import Mathlib.Data.List.Induction
import Mathlib.Logic.Function.Basic
import RegistryPublisher.Proofs.Descriptor.Reading

/-!
# What a document holds

- `Admissible`: text fields come once and hold text; `textAt` and `others` are the texts and the other members;
- `ofTree?_eq_some_iff`: a document holds a descriptor exactly when it is an object with admissible members, and then
  the descriptor has these texts, and the last value of every other key.
-/

namespace RegistryPublisher.Descriptor

open Json (Filling Tree mapM_cons_eq_some)

/-- The text under a key: empty when there is none. -/
def textAt (ms : List (String × Tree)) (key : String) : String := ((Members.find? key ms).bind Tree.text?).getD ""

/-- The members that are no text fields. -/
def others {α : Type} (ms : List (String × α)) : List (String × α) := ms.filter fun m => m.1 ∉ textKeys

/-- The keys of text fields that occur, as often as they do. -/
def textKeysIn {α : Type} (ms : List (String × α)) : List String := (ms.map Prod.fst).filter (· ∈ textKeys)

/-- Every text field comes at most once, and it holds text. -/
structure Admissible (ms : List (String × Tree)) : Prop where
  once : (textKeysIn ms).Nodup
  texts : ∀ m ∈ ms, m.1 ∈ textKeys → ∃ s, m.2.text? = some s

/-! ## Putting fields together -/

section Assembling

variable {text text' : String → String} {extra : List (String × Json)} {key : String}

theorem assemble_congr (h : ∀ k ∈ textKeys, text k = text' k) : assemble text extra = assemble text' extra := by
  simp only [textKeys, List.forall_mem_cons] at h
  obtain ⟨h1, h2, h3, h4, -⟩ := h
  rw [assemble, h1, h2, h3, h4]
  rfl

theorem putText_assemble (h : key ∈ textKeys) (s : String) :
    putText key s (assemble text extra) = assemble (Function.update text key s) extra := by
  simp only [textKeys, List.mem_cons, List.not_mem_nil, or_false] at h
  rcases h with rfl | rfl | rfl | rfl <;> simp [putText, assemble, Function.update]

theorem withExtra_assemble (key : String) (v : Json) :
    (assemble text extra).withExtra key v = assemble text (Members.insert key v extra) := rfl

end Assembling

/-! ## One more member -/

section Append

variable {ms : List (String × Tree)} {m : String × Tree}

theorem textKeysIn_append_text (h : m.1 ∈ textKeys) : textKeysIn (ms ++ [m]) = textKeysIn ms ++ [m.1] := by
  simp [textKeysIn, h]

theorem textKeysIn_append_other (h : m.1 ∉ textKeys) : textKeysIn (ms ++ [m]) = textKeysIn ms := by
  simp [textKeysIn, h]

theorem others_append_text (h : m.1 ∈ textKeys) : others (ms ++ [m]) = others ms := by simp [others, h]

theorem others_append_other (h : m.1 ∉ textKeys) : others (ms ++ [m]) = others ms ++ [m] := by simp [others, h]

theorem textAt_append_text {s : String} (h : m.1 ∈ textKeys) (hnew : m.1 ∉ textKeysIn ms) (hs : m.2.text? = some s) :
    textAt (ms ++ [m]) = Function.update (textAt ms) m.1 s := by
  have hnone : Members.find? m.1 ms = none := by
    refine Members.find?_eq_none_iff.2 fun hmem => hnew ?_
    exact List.mem_filter.2 ⟨hmem, by simpa using h⟩
  funext k
  rw [Function.update_apply, textAt, Members.find?_append, Members.find?_cons]
  by_cases hk : m.1 = k
  · subst hk
    rw [hnone, if_pos rfl, if_pos rfl]
    simp [hs]
  · rw [if_neg hk, if_neg (Ne.symm hk)]
    simp [textAt, Members.find?]

theorem textAt_append_other {k : String} (h : m.1 ∉ textKeys) (hk : k ∈ textKeys) :
    textAt (ms ++ [m]) k = textAt ms k := by
  have hne : m.1 ≠ k := fun e => h (e ▸ hk)
  rw [textAt, Members.find?_append, Members.find?_cons, if_neg hne]
  simp [textAt, Members.find?]

theorem admissible_append_text (h : m.1 ∈ textKeys) :
    Admissible (ms ++ [m]) ↔ Admissible ms ∧ m.1 ∉ textKeysIn ms ∧ ∃ s, m.2.text? = some s := by
  constructor
  · rintro ⟨ho, ht⟩
    rw [textKeysIn_append_text h, List.nodup_append] at ho
    refine ⟨⟨ho.1, fun n hn => ht n (List.mem_append_left _ hn)⟩, fun hm => ?_, ht m (by simp) h⟩
    exact ho.2.2 m.1 hm m.1 (List.mem_singleton_self _) rfl
  · rintro ⟨⟨ho, ht⟩, hnew, hs⟩
    refine ⟨?_, fun n hn hk => ?_⟩
    · rw [textKeysIn_append_text h, List.nodup_append]
      refine ⟨ho, by simp, fun a ha b hb e => hnew ?_⟩
      rwa [← List.mem_singleton.1 hb, ← e]
    · rcases List.mem_append.1 hn with hn | hn
      · exact ht n hn hk
      · rw [List.mem_singleton.1 hn]
        exact hs

theorem admissible_append_other (h : m.1 ∉ textKeys) : Admissible (ms ++ [m]) ↔ Admissible ms := by
  constructor
  · rintro ⟨ho, ht⟩
    rw [textKeysIn_append_other h] at ho
    exact ⟨ho, fun n hn => ht n (List.mem_append_left _ hn)⟩
  · rintro ⟨ho, ht⟩
    refine ⟨by rwa [textKeysIn_append_other h], fun n hn hk => ?_⟩
    rcases List.mem_append.1 hn with hn | hn
    · exact ht n hn hk
    · exact absurd (List.mem_singleton.1 hn ▸ hk) h

theorem members?_append_singleton {vs : List (String × Json)} : Tree.members? (ms ++ [m]) = some vs ↔
    ∃ ws v, Tree.members? ms = some ws ∧ m.2.value? = some v ∧ vs = ws ++ [(m.1, v)] := by
  rw [Tree.members?_eq_mapM, Tree.members?_eq_mapM, List.mapM_append]
  constructor
  · intro h
    obtain ⟨ws, hws, h⟩ := Option.bind_eq_some_iff.1 h
    obtain ⟨_, hus, h⟩ := Option.bind_eq_some_iff.1 h
    obtain ⟨n, us, hn, hnil, rfl⟩ := mapM_cons_eq_some.1 hus
    cases hnil
    cases h
    obtain ⟨hv, hk⟩ := Json.onValue_eq_some_iff.1 hn
    exact ⟨ws, n.2, hws, hv, by rw [← hk]; rfl⟩
  · rintro ⟨ws, v, hws, hv, rfl⟩
    have hm : Json.onValue Tree.value? m = some (m.1, v) := Json.onValue_eq_some_iff.2 ⟨hv, rfl⟩
    simp [hws, hm]

end Append

/-! ## All members -/

/-- What is known after any number of members: `ms` were taken, and the other ones among them denote `vs`. -/
def taken (ms : List (String × Tree)) (vs : List (String × Json)) : Filling Descriptor :=
  ⟨assemble (textAt ms) (Members.ofList vs), (textKeysIn ms).reverse⟩

section Step

variable {ms : List (String × Tree)} {m : String × Tree} {vs : List (String × Json)} {g : Filling Descriptor}

theorem take?_text (h : m.1 ∈ textKeys) : take? (taken ms vs) m = some g ↔
    m.1 ∉ textKeysIn ms ∧ (∃ s, m.2.text? = some s) ∧ g = taken (ms ++ [m]) vs := by
  have hseen : m.1 ∈ (taken ms vs).seen ↔ m.1 ∈ textKeysIn ms := List.mem_reverse
  have hg : ∀ s, m.1 ∉ textKeysIn ms → m.2.text? = some s →
      (⟨putText m.1 s (taken ms vs).record, m.1 :: (taken ms vs).seen⟩ : Filling Descriptor) =
        taken (ms ++ [m]) vs := by
    intro s hnew hs
    rw [taken, taken, putText_assemble h, textAt_append_text h hnew hs, textKeysIn_append_text h, List.reverse_append]
    rfl
  rw [take?, if_pos h]
  by_cases hnew : m.1 ∈ textKeysIn ms
  · rw [if_pos (hseen.2 hnew)]
    exact ⟨nofun, fun h => absurd hnew h.1⟩
  · rw [if_neg (mt hseen.1 hnew), Option.map_eq_some_iff]
    constructor
    · rintro ⟨s, hs, rfl⟩
      exact ⟨hnew, ⟨s, hs⟩, hg s hnew hs⟩
    · rintro ⟨-, ⟨s, hs⟩, rfl⟩
      exact ⟨s, hs, hg s hnew hs⟩

theorem take?_other (h : m.1 ∉ textKeys) : take? (taken ms vs) m = some g ↔
    ∃ v, m.2.value? = some v ∧ g = taken (ms ++ [m]) (vs ++ [(m.1, v)]) := by
  have hg : ∀ v, (⟨(taken ms vs).record.withExtra m.1 v, (taken ms vs).seen⟩ : Filling Descriptor) =
      taken (ms ++ [m]) (vs ++ [(m.1, v)]) := by
    intro v
    rw [taken, taken, withExtra_assemble, textKeysIn_append_other h,
      assemble_congr fun k hk => (textAt_append_other h hk).symm, Members.ofList, Members.ofList, List.foldl_append]
    rfl
  rw [take?, if_neg h, Option.map_eq_some_iff]
  constructor
  · rintro ⟨v, hv, rfl⟩
    exact ⟨v, hv, hg v⟩
  · rintro ⟨v, hv, rfl⟩
    exact ⟨v, hv, hg v⟩

end Step

theorem foldlM_take?_eq_some_iff {ms : List (String × Tree)} {f : Filling Descriptor} :
    ms.foldlM take? ⟨empty, []⟩ = some f ↔
      Admissible ms ∧ ∃ vs, Tree.members? (others ms) = some vs ∧ f = taken ms vs := by
  -- from the back: what is known after a beginning of the members is `taken` of this beginning
  induction ms using List.reverseRecOn generalizing f with
  | nil =>
    constructor
    · intro h
      cases h
      exact ⟨⟨List.nodup_nil, nofun⟩, [], rfl, rfl⟩
    · rintro ⟨-, vs, hvs, rfl⟩
      cases hvs
      rfl
  | append_singleton ms m ih =>
    simp only [List.foldlM_append, List.foldlM_cons, List.foldlM_nil, bind_pure, Option.bind_eq_bind,
      Option.bind_eq_some_iff]
    by_cases h : m.1 ∈ textKeys
    · rw [admissible_append_text h, others_append_text h]
      constructor
      · rintro ⟨f', hf', hf⟩
        obtain ⟨ha, vs, hvs, rfl⟩ := ih.1 hf'
        obtain ⟨hnew, hs, rfl⟩ := (take?_text h).1 hf
        exact ⟨⟨ha, hnew, hs⟩, vs, hvs, rfl⟩
      · rintro ⟨⟨ha, hnew, hs⟩, vs, hvs, rfl⟩
        exact ⟨taken ms vs, ih.2 ⟨ha, vs, hvs, rfl⟩, (take?_text h).2 ⟨hnew, hs, rfl⟩⟩
    · rw [admissible_append_other h, others_append_other h]
      simp only [members?_append_singleton]
      constructor
      · rintro ⟨f', hf', hf⟩
        obtain ⟨ha, vs, hvs, rfl⟩ := ih.1 hf'
        obtain ⟨v, hv, rfl⟩ := (take?_other h).1 hf
        exact ⟨ha, _, ⟨vs, v, hvs, hv, rfl⟩, rfl⟩
      · rintro ⟨ha, _, ⟨vs, v, hvs, hv, rfl⟩, rfl⟩
        exact ⟨taken ms vs, ih.2 ⟨ha, vs, hvs, rfl⟩, (take?_other h).2 ⟨v, hv, rfl⟩⟩

/-- **Descriptors in documents.** A document holds a descriptor exactly when it is an object with admissible members
whose other values can be represented. -/
theorem ofTree?_eq_some_iff {t : Tree} {d : Descriptor} : ofTree? t = some d ↔
    ∃ ms vs, t = .object ms ∧ Admissible ms ∧ Tree.members? (others ms) = some vs ∧
      d = assemble (textAt ms) (Members.ofList vs) := by
  cases t with
  | object ms =>
    rw [ofTree?, Option.map_eq_some_iff]
    constructor
    · rintro ⟨f, hf, rfl⟩
      obtain ⟨ha, vs, hvs, rfl⟩ := foldlM_take?_eq_some_iff.1 hf
      exact ⟨ms, vs, rfl, ha, hvs, rfl⟩
    · rintro ⟨ms', vs, e, ha, hvs, rfl⟩
      cases e
      exact ⟨taken ms vs, foldlM_take?_eq_some_iff.2 ⟨ha, vs, hvs, rfl⟩, rfl⟩
  | _ =>
    constructor
    · intro h
      cases h
    · rintro ⟨_, _, h, -⟩
      cases h

end RegistryPublisher.Descriptor
