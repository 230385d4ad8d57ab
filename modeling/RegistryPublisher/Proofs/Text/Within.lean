import Mathlib.Data.List.Infix

/-!
# Texts within texts

- `Text.Within`: a text stands in another one, without a gap;
- it stands in everything that is put together from the other one (`Within.prepend`, `Within.append`,
  `Within.intercalate`).
-/

namespace RegistryPublisher.Text

/-- The part stands in the whole, without a gap. -/
def Within (part whole : String) : Prop := part.toList <:+: whole.toList

instance (part whole : String) : Decidable (Within part whole) :=
  inferInstanceAs (Decidable (part.toList <:+: whole.toList))

namespace Within

variable {s t : String}

theorem refl (s : String) : Within s s := List.infix_rfl

theorem trans {u : String} (h : Within s t) (h' : Within t u) : Within s u := List.IsInfix.trans h h'

theorem of_append_eq (before after : String) {whole : String} (h : before ++ s ++ after = whole) : Within s whole :=
  ⟨before.toList, after.toList, by rw [← h, String.toList_append, String.toList_append]⟩

theorem prepend (h : Within s t) (u : String) : Within s (u ++ t) := by
  refine h.trans (of_append_eq u "" ?_)
  rw [String.append_empty]

theorem append (h : Within s t) (u : String) : Within s (t ++ u) := by
  refine h.trans (of_append_eq "" u ?_)
  rw [String.empty_append]

/-- What stands in one of the texts that are joined stands in the result. -/
theorem intercalate {texts : List String} (h : Within s t) (ht : t ∈ texts) (separator : String) :
    Within s (separator.intercalate texts) := by
  induction texts with
  | nil => cases ht
  | cons u texts ih =>
    rcases Decidable.em (texts = []) with rfl | hne
    · rw [String.intercalate_singleton]
      exact List.mem_singleton.1 ht ▸ h
    · rw [String.intercalate_cons_of_ne_nil hne]
      rcases List.mem_cons.1 ht with rfl | ht
      · exact (h.append _).append _
      · exact (ih ht).prepend _

end Within

end RegistryPublisher.Text
