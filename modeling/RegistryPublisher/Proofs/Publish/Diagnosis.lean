import RegistryPublisher.Proofs.Publish.Outcome

/-!
# The diagnosis of a refusal

A refused publication shows and decides what a validation on its own would (`Publish.diagnosis_agrees`): the same
report after another opening, the same request, and the corresponding failure.
-/

namespace RegistryPublisher

open Client

namespace Client

variable {e e' : Endpoint}

/-- The request for a verdict depends on the base alone. -/
theorem validateRequest_congr (h : e'.baseUrl = e.baseUrl) (d : Descriptor) :
    validateRequest e' d = validateRequest e d := by
  simp [validateRequest, Endpoint.urlFor, h]

/-- Equal replies give equal verdicts. -/
theorem verdict_congr {net net' : Network} {d : Descriptor}
    (h : net'.reply (validateRequest e' d) = net.reply (validateRequest e d)) : verdict net' e' d = verdict net e d := by
  rw [verdict, verdict, h]

end Client

/-! ## The simulation -/

namespace Publish

variable {net net' : Network} {r : Reporter} {e e' : Endpoint} {d : Descriptor} {b : Bytes}

/-- The report on a verdict; none when there is no verdict. -/
def findings (r : Reporter) (d : Descriptor) : Except ClientFailure Verdict → Bytes
  | .error _ => []
  | .ok v => Utf8.encode (r.text v d)

/-- The journal of a validation. -/
theorem validation_journal (net : Network) (r : Reporter) (e : Endpoint) (d : Descriptor) :
    ((Validate.run net r e d).run (Journal.start none)).2 =
      (Validate.asked net e d (Journal.start none)).append (findings r d (verdict net e d)) := by
  have hj : (Journal.start none).room = none := rfl
  cases h : verdict net e d with
  | error cause => rw [Validate.run_of_failure hj h]; simp [findings]
  | ok v => rw [Validate.run_of_verdict hj h, findings]

/-- The journal of a refused publication. -/
theorem refused_journal (h : net.reply (publishRequest e d) = .complete 422 b) :
    ((run net r e d).run (Journal.start none)).2 =
      (noted net ((posted net e d (Journal.start none)).append notice) (validateRequest e d)).append
        (findings r d (verdict net e d)) := by
  have hj : (Journal.start none).room = none := rfl
  rw [run_of_refusal hj (receipt_of_refusal h) rfl]
  cases hv : verdict net e d with
  | error cause => rw [diagnose_of_failure hv]; simp [findings]
  | ok v => rw [diagnose_of_verdict (by simp [Journal.start]) hv, findings]

/-- **A diagnosis is a validation.** When a publication was answered with the status 422, it goes on as a validation at
the same base with the same reply does: the same report, the same request, and the outcome that corresponds to the
validation's. -/
theorem diagnosis_agrees (hb : e'.baseUrl = e.baseUrl) (hr : net.reply (publishRequest e d) = .complete 422 b)
    (ha : net'.reply (validateRequest e' d) = net.reply (validateRequest e d)) :
    let validation := (Validate.run net' r e' d).run (Journal.start none)
    let publication := (run net r e d).run (Journal.start none)
    (∃ report : Bytes,
      validation.2.written = Utf8.encode ("Validating against " ++ e.baseUrl ++ "...\n") ++ report ∧
      publication.2.written = Utf8.encode ("Publishing to " ++ e.baseUrl ++
        "...\nValidation failed. Checking detailed validation errors...\n\n") ++ report) ∧
    (∃ p q : Request, p.IsPublication e d ∧ q.IsValidation e d ∧
      validation.2.tried = [q] ∧ publication.2.tried = [p, q] ∧
      validation.2.requests = net'.sent q ∧ publication.2.requests = net.sent p ++ net.sent q ∧
      (net.IsDirect p → net'.sent q = net.sent q → publication.2.requests = p :: validation.2.requests)) ∧
    ((∃ m, validation.1 = .error (.invalid m) ∧ publication.1 = .error (.invalid m)) ∨
      (∃ v, validation.1 = .ok v ∧ publication.1 = .error .unexplained) ∨
      ∃ cause, validation.1 = .error (.validate cause) ∧
        publication.1 = .error (.publish (.rejected 422 (Utf8.lossy b)))) := by
  intro validation publication
  have hv : verdict net' e' d = verdict net e d := verdict_congr ha
  have hq : validateRequest e' d = validateRequest e d := validateRequest_congr hb d
  have hj : (Journal.start none).room = none := rfl
  have hval : validation.2 = _ := validation_journal net' r e' d
  have hpub : publication.2 = _ := refused_journal (r := r) hr
  have hasked : validation.2.requests = net'.sent (validateRequest e d) := by
    rw [hval]
    simp [Validate.asked, Journal.start, hq]
  have hmade : publication.2.requests = net.sent (publishRequest e d) ++ net.sent (validateRequest e d) := by
    rw [hpub]
    simp [posted, Journal.start]
  refine ⟨⟨findings r d (verdict net e d), ?_, ?_⟩,
    ⟨publishRequest e d, validateRequest e d, publishRequest_spec e d, validateRequest_spec e d, ?_, ?_, hasked, hmade,
      fun hp hsame => ?_⟩, ?_⟩
  · rw [hval, hv]
    simp [Validate.asked, Validate.opening, Journal.start, hb]
  · rw [hpub]
    simp [posted, opening, notice, Journal.start, Utf8.encode]
  · rw [hval]
    simp [Validate.asked, Journal.start, hq]
  · rw [hpub]
    simp [posted, Journal.start]
  · rw [hmade, hasked, hp.sent_eq hr, hsame]
    rfl
  · cases hd : verdict net e d with
    | error cause =>
      refine Or.inr (Or.inr ⟨cause, ?_, outcome_of_silence hr hd⟩)
      exact congrArg Prod.fst (Validate.run_of_failure hj (hv.trans hd))
    | ok v =>
      have h₁ : validation.1 = _ := congrArg Prod.fst (Validate.run_of_verdict hj (hv.trans hd))
      have h₂ : publication.1 = _ := outcome_of_verdict hr hd
      rw [h₁, h₂, Validate.judgement]
      split
      · exact Or.inr (Or.inl ⟨v, rfl, rfl⟩)
      · exact Or.inl ⟨_, rfl, rfl⟩

/-- A verdict of invalidity with one issue. -/
def issueText : Bytes := Utf8.encode
  "\x7b\"valid\":false,\"issues\":[\x7b\"type\":\"semantic\",\"message\":\"m\",\"severity\":\"error\"\x7d]\x7d"

/-- The verdict that it holds. -/
def issueVerdict : Verdict := ⟨false, [⟨.semantic, "", "m", .error, ""⟩]⟩

theorem decode_issueText : Verdict.decode issueText = .ok issueVerdict := by
  have htext : issueText = [
    0x7b, 0x22, 0x76, 0x61, 0x6c, 0x69, 0x64, 0x22, 0x3a, 0x66, 0x61, 0x6c, 0x73, 0x65, 0x2c, 0x22, 0x69, 0x73,
    0x73, 0x75, 0x65, 0x73, 0x22, 0x3a, 0x5b, 0x7b, 0x22, 0x74, 0x79, 0x70, 0x65, 0x22, 0x3a, 0x22, 0x73, 0x65,
    0x6d, 0x61, 0x6e, 0x74, 0x69, 0x63, 0x22, 0x2c, 0x22, 0x6d, 0x65, 0x73, 0x73, 0x61, 0x67, 0x65, 0x22, 0x3a,
    0x22, 0x6d, 0x22, 0x2c, 0x22, 0x73, 0x65, 0x76, 0x65, 0x72, 0x69, 0x74, 0x79, 0x22, 0x3a, 0x22, 0x65, 0x72,
    0x72, 0x6f, 0x72, 0x22, 0x7d, 0x5d, 0x7d] := by decide
  rw [htext]
  rfl

/-- A registry that refuses the publication and has a verdict of invalidity: both report the same issue. -/
theorem diagnosis_agrees_on_issue :
    let e : Endpoint := ⟨"http://r", some "t"⟩
    let e' : Endpoint := ⟨"http://r", none⟩
    let net : Network := .direct fun q => if q.authorization.isSome then .complete 422 [] else .complete 200 issueText
    let validation := (Validate.run net .standard e' .empty).run (Journal.start none)
    let publication := (run net .standard e .empty).run (Journal.start none)
    let report := Utf8.encode (Reporter.standard.text issueVerdict .empty)
    validation.2.written = Utf8.encode ("Validating against " ++ e.baseUrl ++ "...\n") ++ report ∧
      publication.2.written = Utf8.encode ("Publishing to " ++ e.baseUrl ++
        "...\nValidation failed. Checking detailed validation errors...\n\n") ++ report ∧
      ∃ m, validation.1 = .error (.invalid m) ∧ publication.1 = .error (.invalid m) := by
  intro e e' net
  dsimp only
  have hrefused : net.reply (publishRequest e .empty) = .complete 422 [] := rfl
  have hasked : net.reply (validateRequest e' .empty) = .complete 200 issueText := rfl
  have hv : verdict net e' .empty = .ok issueVerdict := verdict_eq_ok_iff.2 ⟨issueText, hasked, decode_issueText⟩
  have hrun := @Validate.run_of_verdict net .standard e' .empty issueVerdict (Journal.start none) rfl hv
  obtain ⟨⟨report, hval, hpub⟩, -, hcases⟩ := @diagnosis_agrees net net .standard e e' .empty [] rfl hrefused rfl
  have hreport : report = Utf8.encode (Reporter.standard.text issueVerdict .empty) := by
    rw [hrun] at hval
    exact List.append_cancel_left hval.symm
  rw [hreport] at hval hpub
  refine ⟨hval, hpub, ?_⟩
  rw [hrun] at hcases ⊢
  rcases hcases with h | ⟨v, h, -⟩ | ⟨cause, h, -⟩
  · exact h
  · cases h
  · cases h

end Publish

end RegistryPublisher
