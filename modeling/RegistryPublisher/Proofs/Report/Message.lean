import Mathlib.Data.List.TakeWhile
import RegistryPublisher.Proofs.Report.Listing

/-!
# No message is lost

- `withoutStops_append`: a text is itself without the full stops at its end, and then these;
- `Issue.within_entry`: the entry of an issue has its message word for word;
- `Reporter.Explains.within_message`: an explanation has the message of its issue with one full stop at the end;
- `Reporter.report_tells`: so the message about an invalid descriptor has the messages of all its issues.
-/

namespace RegistryPublisher

open Text

/-! ## Full stops -/

theorem withoutStops_append (s : String) :
    ∃ n, s.toList = (withoutStops s).toList ++ List.replicate n '.' := by
  let stops := s.toList.reverse.takeWhile (· == '.')
  refine ⟨stops.length, ?_⟩
  have hstops : stops = List.replicate stops.length '.' :=
    List.eq_replicate_of_mem fun c hc => by simpa using List.mem_takeWhile_imp hc
  calc s.toList
      = (stops ++ s.toList.reverse.dropWhile (· == '.')).reverse := by
        rw [List.takeWhile_append_dropWhile, List.reverse_reverse]
    _ = (withoutStops s).toList ++ stops.reverse := by
        rw [List.reverse_append, withoutStops, String.toList_ofList]
    _ = (withoutStops s).toList ++ List.replicate stops.length '.' := by
        rw [hstops, List.reverse_replicate, List.length_replicate]

/-- A text with at most one full stop at its end stands in the same text with one full stop. -/
theorem within_withoutStops {s : String} (h : ¬"..".toList <:+ s.toList) : Within s (withoutStops s ++ ".") := by
  obtain ⟨n, hn⟩ := withoutStops_append s
  rcases n with - | - | n
  · refine Within.of_append_eq "" "." ?_
    rw [List.replicate_zero, List.append_nil, String.toList_inj] at hn
    rw [String.empty_append, ← hn]
  · have hs : s = withoutStops s ++ "." := String.toList_inj.1 (by rw [hn, String.toList_append]; rfl)
    exact hs ▸ Within.refl s
  · refine absurd ⟨(withoutStops s).toList ++ List.replicate n '.', ?_⟩ h
    rw [hn, List.append_assoc, List.replicate_add n 2]
    rfl

/-- A text stands with a full stop before anything that begins with one. -/
theorem within_stop {literal tail : String} (h : literal = "." ++ tail) (said rest : String) :
    Within (said ++ ".") (said ++ (literal ++ rest)) := by
  refine Within.of_append_eq "" (tail ++ rest) ?_
  rw [String.empty_append, h, String.append_assoc, String.append_assoc]

/-! ## Single issues -/

theorem Issue.within_entry (n : Nat) (i : Issue) : Within i.message (i.entry n) := by
  unfold entry
  exact ((Within.refl i.message).prepend _).append _

namespace Reporter

variable {r : Reporter} {d : Descriptor} {i : Issue} {m : Remediation}

/-- An explanation has the message of its issue, with one full stop at its end. -/
theorem Explains.within_message (h : r.Explains d i m) : Within (withoutStops i.message ++ ".") m.message := by
  cases h with
  | fieldRequired =>
    unfold Reporter.fieldRequired
    dsimp only
    split
    · next hsaid =>
      -- the message is not repeated when it is the headline, which is there anyway
      have hstop : ". Expected current schema: " = "." ++ " Expected current schema: " := by decide
      rw [hsaid, String.empty_append]
      simp only [String.append_assoc]
      exact within_stop hstop _ _
    · have hstop : ". " = "." ++ " " := by decide
      simp only [String.append_assoc]
      exact within_stop hstop _ _
  | versionDeprecated =>
    have hstop : ". deprecated schema detected: " = "." ++ " deprecated schema detected: " := by decide
    unfold Reporter.versionDeprecated
    simp only [String.append_assoc]
    exact within_stop hstop _ _
  | versionExtractionError =>
    have hstop : ". " = "." ++ " " := by decide
    unfold Reporter.versionExtractionError
    simp only [String.append_assoc]
    exact within_stop hstop _ _

/-! ## The message of a failure -/

/-- An issue that is not the first one about the schema is left when that one is set apart. -/
theorem exists_setsApart_left {before : List Issue}
    (h : ¬(i.reference ∈ Schema.references ∧ ∀ b ∈ before, b.reference ∉ Schema.references)) (r : Reporter)
    (d : Descriptor) (after : List Issue) : ∃ x rest, r.SetsApart d (before ++ i :: after) x rest ∧ i ∈ rest := by
  obtain ⟨x, rest, hbefore⟩ := exists_setsApart r d before
  cases hbefore with
  | first earlier hm =>
    exact ⟨_, _, (SetsApart.first earlier hm).append (i :: after), List.mem_append_right _ List.mem_cons_self⟩
  | nothing earlier =>
    have hi : i.reference ∉ Schema.references := fun hi => h ⟨hi, earlier⟩
    obtain ⟨x, rest, hafter⟩ := exists_setsApart r d after
    exact ⟨x, _, (hafter.cons hi).prepend earlier, List.mem_append_right _ List.mem_cons_self⟩

namespace SetsApart

variable {issues rest : List Issue} {x : Option Remediation}

/-- Each part stands in the message. -/
theorem within_message (h : r.SetsApart d issues x rest) {part : String} (hp : part ∈ parts issues.length x rest) :
    Within part (r.message ⟨false, issues⟩ d) := by
  have hne : issues ≠ [] := fun hnil => by
    rw [h.parts_eq_nil_iff.2 hnil] at hp
    cases hp
  rw [h.message_eq, if_neg hne]
  exact (Within.refl part).intercalate hp "\n"

/-- The explanation stands in the message. -/
theorem explanation_within (h : r.SetsApart d issues (some m) rest) : Within m.message (r.message ⟨false, issues⟩ d) :=
  h.within_message (List.mem_append_left _ (List.mem_singleton_self _))

/-- The message of an issue that is left stands in the message about all. -/
theorem left_within (h : r.SetsApart d issues x rest) (hi : i ∈ rest) :
    Within i.message (r.message ⟨false, issues⟩ d) := by
  have hne : rest ≠ [] := List.ne_nil_of_mem hi
  have hsummary : summary issues.length rest ∈ parts issues.length x rest := by
    rw [parts, if_neg hne]
    exact List.mem_append_right _ (List.mem_singleton_self _)
  obtain ⟨k, hk, rfl⟩ := List.getElem_of_mem hi
  have hentry : rest[k].entry (k + 1) ∈ rest.mapIdx fun k i => i.entry (k + 1) := List.mem_mapIdx.2 ⟨k, hk, rfl⟩
  have hlisted : Within rest[k].message (summary issues.length rest) := by
    unfold summary
    exact ((rest[k].within_entry (k + 1)).intercalate hentry "; ").prepend _
  exact hlisted.trans (h.within_message hsummary)

end SetsApart

/-- **No message is lost.** The failure of an invalid descriptor says the message of every issue, word for word; only
the first issue about the schema can be an exception, when its message ends in more than one full stop: it is said with
exactly one. -/
theorem report_tells (r : Reporter) (d : Descriptor) (before after : List Issue) (i : Issue) :
    let first := i.reference ∈ Schema.references ∧ ∀ b ∈ before, b.reference ∉ Schema.references
    ∃ error, (r.report ⟨false, before ++ i :: after⟩ d).error = some error ∧
      (Within i.message error ∨ first ∧ "..".toList <:+ i.message.toList) ∧
      (first → Within (withoutStops i.message ++ ".") error) := by
  intro first
  refine ⟨r.message ⟨false, before ++ i :: after⟩ d, rfl, ?_⟩
  by_cases hfirst : first
  · obtain ⟨m, hm⟩ : ∃ m, r.Explains d i m := exists_explains_iff.2 hfirst.1
    have hapart : r.SetsApart d (before ++ i :: after) (some m) (before ++ after) := .first hfirst.2 hm
    have hsaid := hm.within_message.trans hapart.explanation_within
    refine ⟨?_, fun _ => hsaid⟩
    by_cases hstops : "..".toList <:+ i.message.toList
    · exact Or.inr ⟨hfirst, hstops⟩
    · exact Or.inl ((within_withoutStops hstops).trans hsaid)
  · obtain ⟨x, rest, h, hi⟩ := exists_setsApart_left hfirst r d after
    exact ⟨Or.inl (h.left_within hi), fun h => absurd h hfirst⟩

/-- Two full stops at the end of the message of a schema issue become one. -/
theorem report_tells_one_stop :
    let r : Reporter := ⟨"s", ⟨"a", "b"⟩⟩
    let i : Issue := ⟨.schema, "", "x..", .error, "schema-version-extraction-error"⟩
    ∃ error, (r.report ⟨false, [i]⟩ .empty).error = some error ∧ ¬Within i.message error :=
  ⟨_, rfl, by decide⟩

end Reporter

end RegistryPublisher
