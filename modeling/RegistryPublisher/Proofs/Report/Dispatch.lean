import RegistryPublisher.Proofs.Report.Guidance

/-!
# What decides an explanation

- `Reporter.SetsApart.report_congr`: the explanation, the issues that are left and the number of all issues make the
  report, and the explanation can be read off its text (`SetsApart.explanation_text_eq`);
- `Reporter.Explains.recast`: an explanation depends on the reference and the message of its issue, and for an old schema
  also on the schema and on whether the issue is a warning, which the console tells apart (`versionDeprecated_text_iff`);
- `Reporter.report_dispatch`: so two reports that differ in the explained issue only are the same exactly then, and no
  field of the descriptor but its schema has a say.
-/

namespace RegistryPublisher.Reporter

variable {r : Reporter} {d e : Descriptor} {i j : Issue} {m m' : Remediation}

/-! ## Explanations -/

/-- What issues and descriptors have in common when they are explained alike. -/
structure Recast (d : Descriptor) (i : Issue) (e : Descriptor) (j : Issue) : Prop where
  reference : j.reference = i.reference
  message : j.message = i.message
  deprecated : i.reference = Schema.versionDeprecated →
    (j.severity = .warning ↔ i.severity = .warning) ∧ e.schema = d.schema

/-- The kind and the path of an issue do not matter, nor do its severity and the descriptor unless the schema is old. -/
theorem Explains.recast (h : r.Explains d i m) (hrecast : Recast d i e j) : r.Explains e j m := by
  obtain ⟨href, hmessage, hdeprecated⟩ := hrecast
  cases h with
  | fieldRequired hi =>
    have hsame : r.fieldRequired j = r.fieldRequired i := by unfold Reporter.fieldRequired; rw [hmessage]
    exact hsame ▸ .fieldRequired (href.trans hi)
  | versionDeprecated hi =>
    obtain ⟨hwarning, hschema⟩ := hdeprecated hi
    have hsame : r.versionDeprecated j e.schema = r.versionDeprecated i d.schema := by
      unfold Reporter.versionDeprecated
      rw [hmessage, hschema, if_congr hwarning rfl rfl]
    exact hsame ▸ .versionDeprecated (href.trans hi)
  | versionExtractionError hi =>
    have hsame : r.versionExtractionError j = r.versionExtractionError i := by
      unfold Reporter.versionExtractionError; rw [hmessage]
    exact hsame ▸ .versionExtractionError (href.trans hi)

/-- An old schema is explained in one way. -/
theorem Explains.of_versionDeprecated (h : r.Explains d i m) (hi : i.reference = Schema.versionDeprecated) :
    m = r.versionDeprecated i d.schema := by
  cases h with
  | fieldRequired hother => exact absurd (hi.symm.trans hother) (by decide)
  | versionDeprecated => rfl
  | versionExtractionError hother => exact absurd (hi.symm.trans hother) (by decide)

/-- A warning about an old schema does not begin like another notice. -/
theorem deprecated_notice_ne (s t : String) :
    "⚠️  Deprecated schema detected: " ++ s ≠ "deprecated schema detected: " ++ t := by
  intro h
  have hhead := congrArg (fun x => x.toList.head?) h
  simp only [String.toList_append, List.head?_append] at hhead
  exact absurd hhead (by simp)

/-- On the console an old schema is named, and a warning is told from anything else. -/
theorem versionDeprecated_text_iff {s t : String} :
    (r.versionDeprecated j t).text = (r.versionDeprecated i s).text ↔
      (j.severity = .warning ↔ i.severity = .warning) ∧ t = s := by
  unfold Reporter.versionDeprecated
  simp only [String.append_left_inj]
  by_cases hi : i.severity = .warning
  · by_cases hj : j.severity = .warning
    · rw [if_pos hi, if_pos hj, String.append_right_inj]
      exact (and_iff_right (iff_of_true hj hi)).symm
    · rw [if_pos hi, if_neg hj, String.append_assoc]
      exact iff_of_false (deprecated_notice_ne _ _).symm fun h => hj (h.1.2 hi)
  · by_cases hj : j.severity = .warning
    · rw [if_neg hi, if_pos hj, String.append_assoc]
      exact iff_of_false (deprecated_notice_ne _ _) fun h => hi (h.1.1 hj)
    · rw [if_neg hi, if_neg hj, String.append_left_inj, String.append_right_inj]
      exact (and_iff_right (iff_of_false hj hi)).symm

/-! ## Reports with one explanation -/

namespace SetsApart

variable {issues others rest : List Issue} {x y : Option Remediation}

/-- The explanation, the issues that are left and the number of all issues make the report. -/
theorem report_congr (h : r.SetsApart d issues x rest) (h' : r.SetsApart e others x rest)
    (hlength : others.length = issues.length) (valid : Bool) :
    r.report ⟨valid, others⟩ e = r.report ⟨valid, issues⟩ d := by
  have hnil : others = [] ↔ issues = [] := h'.eq_nil_iff.trans h.eq_nil_iff.symm
  cases valid with
  | true => simp only [report, h.opening_eq, h'.opening_eq, if_true]
  | false => simp only [report, h.text_eq, h'.text_eq, h.message_eq, h'.message_eq, hlength, hnil]

/-- The explanation can be read off the console. -/
theorem explanation_text_eq (h : r.SetsApart d issues (some m) rest) (h' : r.SetsApart e others (some m') rest)
    (hlength : others.length = issues.length) (valid : Bool)
    (htext : r.text ⟨valid, others⟩ e = r.text ⟨valid, issues⟩ d) : m'.text = m.text := by
  cases valid with
  | true => rwa [h.opening_eq, h'.opening_eq] at htext
  | false => rwa [h.text_eq, h'.text_eq, hlength, String.append_left_inj, String.append_left_inj] at htext

/-- Issues are set apart alike for descriptors with one schema. -/
theorem of_schema_eq (h : r.SetsApart d issues x rest) (hschema : e.schema = d.schema) : r.SetsApart e issues x rest := by
  cases h with
  | nothing h => exact .nothing h
  | first earlier hm => exact .first earlier (hm.recast ⟨rfl, rfl, fun _ => ⟨Iff.rfl, hschema⟩⟩)

end SetsApart

/-- Issues that are explained at the same place are explained alike exactly when they have in common what an explanation
depends on. -/
theorem report_eq_iff {before after : List Issue} (valid : Bool) (earlier : ∀ b ∈ before, b.reference ∉ Schema.references)
    (hi : i.reference ∈ Schema.references) (href : j.reference = i.reference) (hmessage : j.message = i.message) :
    r.report ⟨valid, before ++ j :: after⟩ e = r.report ⟨valid, before ++ i :: after⟩ d ↔
      (i.reference = Schema.versionDeprecated →
        (j.severity = .warning ↔ i.severity = .warning) ∧ e.schema = d.schema) := by
  obtain ⟨m, hm⟩ : ∃ m, r.Explains d i m := exists_explains_iff.2 hi
  have hapart : r.SetsApart d (before ++ i :: after) (some m) (before ++ after) := .first earlier hm
  have hlength : (before ++ j :: after).length = (before ++ i :: after).length := by simp
  constructor
  · intro hreport hold
    obtain ⟨m', hm'⟩ : ∃ m', r.Explains e j m' := exists_explains_iff.2 (href ▸ hi)
    have htext := hapart.explanation_text_eq (.first earlier hm') hlength valid (congrArg Report.text hreport)
    rw [hm.of_versionDeprecated hold, hm'.of_versionDeprecated (href.trans hold)] at htext
    exact versionDeprecated_text_iff.1 htext
  · intro hdeprecated
    exact hapart.report_congr (.first earlier (hm.recast ⟨href, hmessage, hdeprecated⟩)) hlength valid

/-- **What decides a report.** Take a verdict and a descriptor. When no issue is about the schema, the descriptor has no
say. When one is, take the first such issue and put another one with its reference and its message in its place, and
any other descriptor: the report stays the same, unless the reference says that the schema is old, and in this case it
stays the same exactly when both issues are warnings or none is, and both descriptors have the same schema. In each case
no field of a descriptor matters but the schema. -/
theorem report_dispatch (r : Reporter) (valid : Bool) :
    (∀ (issues : List Issue) (d e : Descriptor), (∀ i ∈ issues, i.reference ∉ Schema.references) →
      r.report ⟨valid, issues⟩ e = r.report ⟨valid, issues⟩ d) ∧
    (∀ (before after : List Issue) (i j : Issue) (d e : Descriptor),
      (∀ b ∈ before, b.reference ∉ Schema.references) → i.reference ∈ Schema.references →
      j.reference = i.reference → j.message = i.message →
      (r.report ⟨valid, before ++ j :: after⟩ e = r.report ⟨valid, before ++ i :: after⟩ d ↔
        (i.reference = Schema.versionDeprecated →
          (j.severity = .warning ↔ i.severity = .warning) ∧ e.schema = d.schema))) ∧
    ∀ (issues : List Issue) (d e : Descriptor), e.schema = d.schema →
      r.report ⟨valid, issues⟩ e = r.report ⟨valid, issues⟩ d := by
  refine ⟨fun issues d e hnone => ?_, ?_, fun issues d e hschema => ?_⟩
  · exact SetsApart.report_congr (.nothing hnone) (.nothing hnone) rfl valid
  · intro before after i j d e earlier hi href hmessage
    exact report_eq_iff valid earlier hi href hmessage
  · obtain ⟨x, rest, h⟩ := exists_setsApart r d issues
    exact h.report_congr (h.of_schema_eq hschema) rfl valid

/-- An error and an issue of unknown severity say the same about an old schema, and a warning says something else. -/
theorem report_dispatch_severity :
    let old (kind : IssueKind) (path : String) (severity : IssueSeverity) : Issue :=
      ⟨kind, path, "old", severity, "schema-version-deprecated"⟩
    let text (i : Issue) : Report := standard.report ⟨true, [i]⟩ { Descriptor.empty with schema := "s" }
    text (old .schema "a" .unknown) = text (old .semantic "b" .error) ∧
      text (old .schema "a" .warning) ≠ text (old .schema "a" .error) := by
  intro old text
  obtain ⟨-, hfirst, -⟩ := report_dispatch standard true
  have hnone : ∀ b ∈ ([] : List Issue), b.reference ∉ Schema.references := nofun
  constructor
  · exact (hfirst [] [] (old .semantic "b" .error) (old .schema "a" .unknown) _ _ hnone (by decide) rfl rfl).2
      fun _ => ⟨by decide, rfl⟩
  · intro hsame
    obtain ⟨hwarning, -⟩ := (hfirst [] [] (old .schema "a" .error) (old .schema "a" .warning) _ _ hnone (by decide)
      rfl rfl).1 hsame rfl
    exact absurd hwarning (by decide)

end RegistryPublisher.Reporter
