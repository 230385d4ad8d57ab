import RegistryPublisher.Proofs.Command.Cut
import RegistryPublisher.Proofs.Publish.Outcome
import RegistryPublisher.Proofs.Report.Message

/-!
# Guidance

- `Reporter.Guides`: a text names the checklist and the changelog with their links; every explanation does so on the
  console and in the message (`Explains.guides_text`, `Explains.guides_message`);
- `Reporter.SetsApart.opening_eq`: the console about a valid descriptor shows the explanation and nothing else, and the
  console about an invalid one begins with it (`opening_prefix`);
- `Validate.run_ends`: on any sink a validation ends as the verdict says, unless it cannot write;
- `Validate.flag_decides`: the flag of a verdict alone decides, and guidance is never lost.
-/

namespace RegistryPublisher

open Client Text

namespace Reporter

variable {r : Reporter} {d : Descriptor} {i : Issue} {m : Remediation} {s : String}

/-! ## Links -/

/-- The text says where the migration is explained. -/
structure Guides (r : Reporter) (s : String) : Prop where
  checklist : Within ("Migration checklist: " ++ r.links.checklist) s
  changelog : Within ("Full changelog with examples: " ++ r.links.changelog) s

namespace Guides

/-- Guidance is not lost where a text is quoted. -/
theorem within (h : r.Guides s) {whole : String} (hs : Within s whole) : r.Guides whole :=
  ⟨h.checklist.trans hs, h.changelog.trans hs⟩

theorem ne_empty (h : r.Guides s) : s ≠ "" := by
  intro hs
  have hnil := List.infix_nil.1 (show _ <:+: [] from hs ▸ h.checklist)
  rw [String.toList_append] at hnil
  exact absurd (List.append_eq_nil_iff.1 hnil).1 (by decide)

end Guides

/-- A link stands right after its label, whatever mark is before the label and whatever text before the mark. -/
theorem within_marked {literal mark label : String} (h : literal = mark ++ label) (before link : String) :
    Within (label ++ link) (before ++ literal ++ link) := by
  refine Within.of_append_eq (before ++ mark) "" ?_
  rw [h, String.append_empty]
  simp only [String.append_assoc]

theorem guides_lines (r : Reporter) : r.Guides r.links.lines := by
  have hchecklist : "📋 Migration checklist: " = "📋 " ++ "Migration checklist: " := by decide
  have hchangelog : "\n📖 Full changelog with examples: " = "\n📖 " ++ "Full changelog with examples: " := by decide
  unfold MigrationLinks.lines
  constructor
  · exact (((within_marked hchecklist "" _).append _).append _).append _
  · exact (within_marked hchangelog _ _).append _

theorem guides_phrase (r : Reporter) : r.Guides r.links.phrase := by
  have hchecklist : "📋 Migration checklist: " = "📋 " ++ "Migration checklist: " := by decide
  have hchangelog : " 📖 Full changelog with examples: " = " 📖 " ++ "Full changelog with examples: " := by decide
  unfold MigrationLinks.phrase
  constructor
  · exact ((within_marked hchecklist "" _).append _).append _
  · exact within_marked hchangelog _ _

/-- Whatever the code of the issue, the console gets the links. -/
theorem Explains.guides_text (h : r.Explains d i m) : r.Guides m.text := by
  have hlines := (Within.refl r.links.lines).prepend
  cases h with
  | fieldRequired => exact r.guides_lines.within (hlines _)
  | versionDeprecated => exact r.guides_lines.within (hlines _)
  | versionExtractionError => exact r.guides_lines.within (hlines _)

/-- Whatever the code of the issue, the message gets the links. -/
theorem Explains.guides_message (h : r.Explains d i m) : r.Guides m.message := r.guides_phrase.within h.links

/-! ## Both reports on the same issues -/

namespace SetsApart

variable {issues rest : List Issue} {x : Option Remediation}

/-- The console about a valid descriptor shows the explanation and nothing else. -/
theorem opening_eq (h : r.SetsApart d issues x rest) :
    r.text ⟨true, issues⟩ d = (x.map Remediation.text).getD "" := by
  obtain ⟨rfl, -⟩ := h.explained_listed true
  unfold text
  dsimp only
  rw [if_pos rfl]
  rcases r.explained ⟨true, issues⟩ d with - | ⟨n, m⟩
  · rfl
  · rfl

/-- What the console shows about a valid descriptor comes first for an invalid one with the same issues. -/
theorem opening_prefix (h : r.SetsApart d issues x rest) :
    (r.text ⟨true, issues⟩ d).toList <+: (r.text ⟨false, issues⟩ d).toList := by
  rw [h.text_eq, h.opening_eq, String.append_assoc, String.toList_append]
  exact List.prefix_append _ _

/-- The console about a valid descriptor is silent when nothing is explained. -/
theorem opening_empty_iff (h : r.SetsApart d issues x rest) :
    r.text ⟨true, issues⟩ d = "" ↔ ∀ i ∈ issues, i.reference ∉ Schema.references := by
  rw [h.opening_eq]
  cases h with
  | nothing h => simpa using h
  | first earlier hm =>
    refine iff_of_false hm.guides_text.ne_empty fun hnone => ?_
    exact hnone _ (List.mem_append_right _ List.mem_cons_self) hm.mem_references

theorem message_ne_empty (h : r.SetsApart d issues x rest) : r.message ⟨false, issues⟩ d ≠ "" := by
  intro hm
  by_cases hnil : issues = []
  · exact absurd ((h.message_generic_iff.2 hnil).symm.trans hm) (by decide)
  · obtain ⟨part, hp⟩ := List.exists_mem_of_ne_nil _ (mt h.parts_eq_nil_iff.1 hnil)
    have hpart := h.within_message hp
    rw [hm] at hpart
    rcases h.part_says_more hp with hw | hw
    · exact absurd (hw.trans hpart) (by decide)
    · exact absurd (hw.trans hpart) (by decide)

/-- With an issue about the schema both reports guide. -/
theorem guides (h : r.SetsApart d issues x rest) (hschema : ∃ i ∈ issues, i.reference ∈ Schema.references) :
    r.Guides (r.text ⟨true, issues⟩ d) ∧ r.Guides (r.message ⟨false, issues⟩ d) := by
  obtain ⟨m, rfl⟩ := Option.isSome_iff_exists.1 (h.isSome_iff.2 hschema)
  obtain ⟨i, -, hm⟩ := h.explains
  rw [h.opening_eq]
  exact ⟨hm.guides_text, hm.guides_message.within h.explanation_within⟩

end SetsApart

end Reporter

/-! ## The outcome of a validation -/

namespace Validate

variable {net : Network} {r : Reporter} {e : Endpoint} {d : Descriptor} {v : Verdict}

/-- On any sink a validation ends as its script does, or cannot write. -/
theorem run_ends (net : Network) (r : Reporter) (e : Endpoint) (d : Descriptor) (room : Option Nat) :
    ((run net r e d).run (Journal.start room)).1 = result r d (verdict net e d) ∨
      ((run net r e d).run (Journal.start room)).1 = .error .output := by
  rw [run_plays net r e d (Journal.start room)]
  dsimp only
  split
  · exact Or.inl rfl
  · exact Or.inr rfl

theorem result_of_valid (hv : v.valid = true) : result r d (.ok v) = .ok v := by
  rw [result, judgement, if_pos hv]
  rfl

theorem result_of_invalid (hv : v.valid = false) : result r d (.ok v) = .error (.invalid (r.message v d)) := by
  rw [result, judgement, hv, if_neg Bool.false_ne_true]
  rfl

/-- Only a verdict of validity makes a validation succeed. -/
theorem valid_of_result_ok {verdict : Except ClientFailure Verdict} (h : result r d verdict = .ok v) :
    v.valid = true := by
  cases verdict with
  | error cause => cases h
  | ok u =>
    cases hu : u.valid with
    | true =>
      rw [result_of_valid hu] at h
      exact Except.ok.inj h ▸ hu
    | false =>
      rw [result_of_invalid hu] at h
      cases h

/-- **The flag decides, and guidance is never lost.** Take any issues, once with a verdict of validity and once with
one of invalidity. The first report has no failure, the second one has one that says something. The first text is
empty exactly when no issue is about the schema, and it is how the second text begins. When an issue is about the
schema, the first text and the message of the second report name the checklist and the changelog with their links.
So on any sink and for any answer, a validation succeeds with a valid verdict only: unless it cannot write, it gives
the verdict if that one is valid, and otherwise fails with the message of its report. -/
theorem flag_decides (r : Reporter) (d : Descriptor) (issues : List Issue) :
    let accepted := r.report ⟨true, issues⟩ d
    let refused := r.report ⟨false, issues⟩ d
    let aboutSchema := ∃ i ∈ issues, i.reference ∈ Schema.references
    accepted.error = none ∧
    (accepted.text = "" ↔ ¬aboutSchema) ∧
    accepted.text.toList <+: refused.text.toList ∧
    (∃ message, refused.error = some message ∧ message ≠ "" ∧
      (aboutSchema → ∀ s ∈ [accepted.text, message],
        Within ("Migration checklist: " ++ r.links.checklist) s ∧
        Within ("Full changelog with examples: " ++ r.links.changelog) s)) ∧
    ∀ (net : Network) (e : Endpoint) (room : Option Nat),
      let outcome := ((run net r e d).run (Journal.start room)).1
      (∀ v, outcome = .ok v → v.valid = true) ∧
      ∀ body v, net.reply (validateRequest e d) = .complete 200 body → Verdict.decode body = .ok v →
        (v.valid = true → outcome = .ok v ∨ outcome = .error .output) ∧
        (v.valid = false → (∃ message, (r.report v d).error = some message ∧ outcome = .error (.invalid message)) ∨
          outcome = .error .output) := by
  intro accepted refused aboutSchema
  obtain ⟨x, rest, h⟩ := Reporter.exists_setsApart r d issues
  have hempty : accepted.text = "" ↔ ¬aboutSchema := by
    refine h.opening_empty_iff.trans ?_
    simp [aboutSchema]
  refine ⟨rfl, hempty, h.opening_prefix, ⟨_, rfl, h.message_ne_empty, fun hschema => ?_⟩, fun net e room => ?_⟩
  · obtain ⟨htext, hmessage⟩ := h.guides hschema
    exact List.forall_mem_cons.2 ⟨⟨htext.checklist, htext.changelog⟩,
      List.forall_mem_singleton.2 ⟨hmessage.checklist, hmessage.changelog⟩⟩
  · have hends := run_ends net r e d room
    refine ⟨fun v hv => ?_, fun body v hanswer hdecode => ⟨fun hv => ?_, fun hv => ?_⟩⟩
    · rcases hends with hend | hend
      · exact valid_of_result_ok (hend.symm.trans hv)
      · exact nomatch hend.symm.trans hv
    · rw [verdict_eq_ok_iff.2 ⟨body, hanswer, hdecode⟩, result_of_valid hv] at hends
      exact hends
    · rw [verdict_eq_ok_iff.2 ⟨body, hanswer, hdecode⟩, result_of_invalid hv] at hends
      refine hends.imp (fun hend => ⟨r.message v d, ?_, hend⟩) id
      simp [Reporter.report, hv]

end Validate

end RegistryPublisher
