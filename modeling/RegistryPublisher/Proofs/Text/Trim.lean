import Mathlib.Data.List.TakeWhile
import RegistryPublisher.Text.Blank

/-!
# Trimmed text

- `AllBlank`: a text has nothing but blanks; `Tidy`: a text has no blank at either end;
- `Trimmed s t`: `t` is `s` without the blanks around it; `trim` gives this text (`trimmed_trim`), and there is no other
  (`Trimmed.eq_trim`).
-/

namespace RegistryPublisher.Text

/-- A text of blanks, or no text. -/
def AllBlank (s : String) : Prop := ∀ c ∈ s.toList, isBlank c = true

/-- A text that neither begins nor ends with a blank. -/
def Tidy (s : String) : Prop := (∀ c ∈ s.toList.head?, isBlank c = false) ∧ ∀ c ∈ s.toList.getLast?, isBlank c = false

instance (s : String) : Decidable (AllBlank s) := decidable_of_iff (s.toList.all isBlank = true) List.all_eq_true

instance (s : String) : Decidable (Tidy s) :=
  decidable_of_iff (s.toList.head?.all (!isBlank ·) = true ∧ s.toList.getLast?.all (!isBlank ·) = true) <| by
    simp only [Tidy, Option.all_eq_true, Bool.not_eq_true', Option.mem_def]

/-- The text `t` is what is left of `s` without the blanks around it. -/
structure Trimmed (s t : String) : Prop where
  around : ∃ a b, s = a ++ t ++ b ∧ AllBlank a ∧ AllBlank b
  tidy : Tidy t

theorem Tidy.trimmed {s : String} (h : Tidy s) : Trimmed s s :=
  ⟨⟨"", "", by simp, nofun, nofun⟩, h⟩

/-- Of blanks alone there is no tidy text but the empty one. -/
theorem Tidy.eq_empty {s : String} (h : Tidy s) (hb : AllBlank s) : s = "" := by
  rw [← String.toList_eq_nil_iff]
  cases hs : s.toList with
  | nil => rfl
  | cons c cs =>
    have hc := hb c (by rw [hs]; exact List.mem_cons_self ..)
    exact absurd (hc.symm.trans (h.1 c (by rw [hs]; rfl))) (by decide)

theorem AllBlank.append {s t : String} (hs : AllBlank s) (ht : AllBlank t) : AllBlank (s ++ t) := by
  intro c hc
  rw [String.toList_append] at hc
  exact (List.mem_append.1 hc).elim (hs c) (ht c)

/-! ## What is left -/

theorem isBlank_takeWhile (cs : List Char) : ∀ c ∈ cs.takeWhile isBlank, isBlank c = true :=
  fun _ hc => List.all_eq_true.1 List.all_takeWhile _ hc

theorem head?_dropWhile {cs : List Char} : ∀ c ∈ (cs.dropWhile isBlank).head?, isBlank c = false := by
  intro c hc
  have h := List.head?_dropWhile_not isBlank cs
  rw [Option.mem_def.1 hc] at h
  exact h

/-- The end that is cut off is blank. -/
theorem trimEnd_append (cs : List Char) : trimEnd cs ++ (cs.reverse.takeWhile isBlank).reverse = cs := by
  rw [trimEnd, ← List.reverse_append, List.takeWhile_append_dropWhile, List.reverse_reverse]

theorem getLast?_trimEnd {cs : List Char} : ∀ c ∈ (trimEnd cs).getLast?, isBlank c = false := by
  rw [trimEnd, List.getLast?_reverse]
  exact head?_dropWhile

/-- Cutting off the end leaves the beginning. -/
theorem head?_trimEnd {cs : List Char} (h : ∀ c ∈ cs.head?, isBlank c = false) :
    ∀ c ∈ (trimEnd cs).head?, isBlank c = false := by
  intro c hc
  refine h c ?_
  rw [← trimEnd_append cs, List.head?_append, Option.mem_def.1 hc]
  rfl

/-- **Trimming** gives what is left without the blanks around it. -/
theorem trimmed_trim (s : String) : Trimmed s (trim s) := by
  have htidy : Tidy (trim s) := by
    rw [Tidy, trim, String.toList_ofList]
    exact ⟨head?_trimEnd head?_dropWhile, getLast?_trimEnd⟩
  refine ⟨⟨String.ofList (s.toList.takeWhile isBlank),
    String.ofList ((s.toList.dropWhile isBlank).reverse.takeWhile isBlank).reverse, ?_, ?_, ?_⟩, htidy⟩
  · rw [trim, String.append_assoc, ← String.ofList_append, trimEnd_append, ← String.ofList_append,
      List.takeWhile_append_dropWhile, String.ofList_toList]
  · rw [AllBlank, String.toList_ofList]
    exact isBlank_takeWhile _
  · rw [AllBlank, String.toList_ofList]
    exact fun c hc => isBlank_takeWhile _ c (List.mem_reverse.1 hc)

/-- Nothing is left of blanks alone, and of nothing else. -/
theorem trim_eq_empty_iff {s : String} : trim s = "" ↔ AllBlank s := by
  obtain ⟨⟨a, b, hs, ha, hb⟩, htidy⟩ := trimmed_trim s
  constructor
  · intro h
    rw [hs, h, String.append_empty]
    exact ha.append hb
  · intro h
    refine htidy.eq_empty fun c hc => h c ?_
    rw [hs, String.toList_append, String.toList_append]
    exact List.mem_append_left _ (List.mem_append_right _ hc)

/-- There is only one text that is left. -/
theorem Trimmed.eq_trim {s t : String} (h : Trimmed s t) : t = trim s := by
  obtain ⟨⟨a, b, rfl, ha, hb⟩, hhead, hlast⟩ := h
  have hdrop : (a.toList ++ (t.toList ++ b.toList)).dropWhile isBlank = (t.toList ++ b.toList).dropWhile isBlank :=
    List.dropWhile_append_of_pos ha
  rw [trim, String.toList_append, String.toList_append, List.append_assoc, hdrop]
  rw [← String.toList_inj, String.toList_ofList]
  cases ht : t.toList with
  | nil =>
    rw [List.nil_append, List.dropWhile_eq_nil_iff.2 hb]
    rfl
  | cons c cs =>
    have hc : isBlank c = false := hhead c (by rw [ht]; rfl)
    rw [List.cons_append, List.dropWhile_cons, hc, if_neg Bool.false_ne_true, ← List.cons_append, ← ht, trimEnd,
      List.reverse_append, List.dropWhile_append_of_pos fun d hd => hb d (List.mem_reverse.1 hd)]
    exact (trimEnd_eq_self hlast).symm

end RegistryPublisher.Text
