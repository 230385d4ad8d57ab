import RegistryPublisher.Proofs.Publish.Protocol

/-!
# The outcome of a publication

Which failure or receipt a publication ends in, for every pair of answers of the registry (`Publish.run_outcome`).
The failure of a publication is its own: a request for a verdict that comes to nothing leaves the refusal as it was.
-/

namespace RegistryPublisher

open Client

variable {net : Network} {e : Endpoint} {d : Descriptor}

/-! ## What the two answers give -/

namespace Client

/-- There is a receipt exactly when a complete answer 200 or 201 decodes to it. -/
theorem receipt_eq_ok_iff {v : Receipt} : receipt net e d = .ok v ↔
    ∃ status body, net.reply (publishRequest e d) = .complete status body ∧ (status = 200 ∨ status = 201) ∧
      Receipt.decode body = .ok v := by
  rw [receipt, interpret_eq_ok_iff]
  simp [publishAccepts]

/-- There is a verdict exactly when a complete answer 200 decodes to it. -/
theorem verdict_eq_ok_iff {v : Verdict} : verdict net e d = .ok v ↔
    ∃ body, net.reply (validateRequest e d) = .complete 200 body ∧ Verdict.decode body = .ok v := by
  rw [verdict, interpret_eq_ok_iff]
  constructor
  · rintro ⟨status, body, ha, hs, hd⟩
    obtain rfl : status = 200 := by simpa [validateAccepts] using hs
    exact ⟨body, ha, hd⟩
  · rintro ⟨body, ha, hd⟩
    exact ⟨200, body, ha, by decide, hd⟩

/-- An answer with another status than 200 and 201 is a rejection. -/
theorem receipt_of_rejected {status : Nat} {body : Bytes}
    (h : net.reply (publishRequest e d) = .complete status body) (h0 : status ≠ 200) (h1 : status ≠ 201) :
    receipt net e d = .error (.rejected status (Utf8.lossy body)) := by
  rw [receipt, h, interpret_rejected _ (by simp [publishAccepts, h0, h1])]

/-- An answer 200 or 201 whose body is not a receipt. -/
theorem receipt_of_undecodable {status : Nat} {body : Bytes} {f : Json.Error}
    (h : net.reply (publishRequest e d) = .complete status body) (hs : status = 200 ∨ status = 201)
    (hd : Receipt.decode body = .error f) : receipt net e d = .error (.undecodable f) := by
  rw [receipt, h, interpret_accepted _ (by simp [publishAccepts, hs]), hd]
  rfl

end Client

/-! ## The outcome -/

namespace Publish

/-- The outcome of a publication on a sink without a limit. -/
def outcome (net : Network) (r : Reporter) (e : Endpoint) (d : Descriptor) : Except Failure Receipt :=
  ((run net r e d).run (Journal.start none)).1

variable {r : Reporter}

theorem outcome_of_receipt {v : Receipt} (h : receipt net e d = .ok v) : outcome net r e d = .ok v := by
  rw [outcome, run_of_receipt rfl h]

theorem outcome_of_failure {cause : ClientFailure} (h : receipt net e d = .error cause)
    (hs : cause.status? ≠ some unprocessable) : outcome net r e d = .error (.publish cause) := by
  rw [outcome, run_of_failure rfl h hs]

section Refusal

variable {b : Bytes} (h : net.reply (publishRequest e d) = .complete 422 b)
include h

theorem receipt_of_refusal : receipt net e d = .error (.rejected 422 (Utf8.lossy b)) :=
  receipt_of_rejected h (by decide) (by decide)

theorem outcome_of_silence {cause : ClientFailure} (hv : verdict net e d = .error cause) :
    outcome net r e d = .error (.publish (.rejected 422 (Utf8.lossy b))) := by
  rw [outcome, run_of_refusal rfl (receipt_of_refusal h) rfl, diagnose_of_failure hv]

theorem outcome_of_verdict {v : Verdict} (hv : verdict net e d = .ok v) :
    outcome net r e d = (Validate.judgement r d v).bind fun _ => .error .unexplained := by
  rw [outcome, run_of_refusal rfl (receipt_of_refusal h) rfl, diagnose_of_verdict (by simp [Journal.start]) hv]

end Refusal

/-- Without a receipt a publication fails, and never for want of a verdict. -/
theorem outcome_of_error {cause : ClientFailure} (h : receipt net e d = .error cause) :
    ∃ f, outcome net r e d = .error f ∧ ∀ c, f ≠ .validate c := by
  by_cases hs : cause.status? = some unprocessable
  · obtain ⟨b, hb, -⟩ := refusal_answer h hs
    cases hv : verdict net e d with
    | error c => exact ⟨_, outcome_of_silence hb hv, nofun⟩
    | ok v =>
      rw [outcome_of_verdict hb hv, Validate.judgement]
      split
      · exact ⟨_, rfl, nofun⟩
      · exact ⟨_, rfl, nofun⟩
  · exact ⟨_, outcome_of_failure h hs, nofun⟩

theorem outcome_eq_ok_iff {v : Receipt} : outcome net r e d = .ok v ↔ receipt net e d = .ok v := by
  constructor
  · intro h
    cases hr : receipt net e d with
    | ok v' => rw [outcome_of_receipt hr] at h; cases h; rfl
    | error cause =>
      obtain ⟨f, hf, -⟩ := outcome_of_error (r := r) hr
      rw [hf] at h
      cases h
  · exact outcome_of_receipt

theorem outcome_ne_validate (cause : ClientFailure) : outcome net r e d ≠ .error (.validate cause) := by
  intro h
  cases hr : receipt net e d with
  | ok v => rw [outcome_of_receipt hr] at h; cases h
  | error c =>
    obtain ⟨f, hf, hne⟩ := outcome_of_error (r := r) hr
    rw [hf] at h
    exact hne cause (Except.error.inj h)

/-- **The outcome of a publication** on a sink without a limit, for every answer to the publication and every answer
to the request for a verdict. There is a receipt exactly when the first answer holds one; after a refusal with the
status 422 the verdict decides, and when there is no verdict the refusal is the failure; in all other cases the failure
is what went wrong with the publication, with all that the HTTP library says about it. No publication that asked for a
verdict succeeds. -/
theorem run_outcome (net : Network) (r : Reporter) (e : Endpoint) (d : Descriptor) :
    let posted := net.reply (publishRequest e d)
    let judged := net.reply (validateRequest e d)
    let result := ((run net r e d).run (Journal.start none)).1
    (∀ v, result = .ok v ↔ ∃ status body, posted = .complete status body ∧ (status = 200 ∨ status = 201) ∧
      Receipt.decode body = .ok v) ∧
    (∀ b, posted = .complete 422 b →
      (∀ body v, judged = .complete 200 body → Verdict.decode body = .ok v →
        (v.valid = false → ∃ m, (r.report v d).error = some m ∧ result = .error (.invalid m)) ∧
        (v.valid = true → result = .error .unexplained)) ∧
      ((¬∃ body v, judged = .complete 200 body ∧ Verdict.decode body = .ok v) →
        result = .error (.publish (.rejected 422 (Utf8.lossy b))))) ∧
    (∀ causes, posted = .failed causes → result = .error (.publish (.unsent causes))) ∧
    (∀ status causes, posted = .truncated status causes → result = .error (.publish (.unreadable causes))) ∧
    (∀ status body f, posted = .complete status body → status = 200 ∨ status = 201 → Receipt.decode body = .error f →
      result = .error (.publish (.undecodable f))) ∧
    (∀ status body, posted = .complete status body → status ≠ 200 → status ≠ 201 → status ≠ 422 →
      result = .error (.publish (.rejected status (Utf8.lossy body)))) ∧
    (validateRequest e d ∈ ((run net r e d).run (Journal.start none)).2.tried → ∀ v, result ≠ .ok v) ∧
    ∀ cause, result ≠ .error (.validate cause) := by
  refine ⟨fun v => ?_, fun b hb => ⟨fun body v ha hd => ⟨fun hv => ?_, fun hv => ?_⟩, fun hn => ?_⟩, fun causes h => ?_,
    fun status causes h => ?_, fun status body f h hs hd => ?_, fun status body h h0 h1 h2 => ?_, fun ht v hv => ?_,
    outcome_ne_validate⟩
  · exact outcome_eq_ok_iff.trans receipt_eq_ok_iff
  · have := outcome_of_verdict (r := r) hb (verdict_eq_ok_iff.2 ⟨body, ha, hd⟩)
    refine ⟨r.message v d, by simp [Reporter.report, hv], this.trans ?_⟩
    simp [Validate.judgement, hv, Except.bind]
  · have := outcome_of_verdict (r := r) hb (verdict_eq_ok_iff.2 ⟨body, ha, hd⟩)
    refine this.trans ?_
    simp [Validate.judgement, hv, Except.bind]
  · cases hv : verdict net e d with
    | error cause => exact outcome_of_silence hb hv
    | ok v =>
      obtain ⟨body, ha, hd⟩ := verdict_eq_ok_iff.1 hv
      exact absurd ⟨body, v, ha, hd⟩ hn
  · have hr : receipt net e d = .error (.unsent causes) := by
      rw [receipt, h]
      rfl
    exact outcome_of_failure hr (Option.some_ne_none _).symm
  · have hr : receipt net e d = .error (.unreadable causes) := by
      rw [receipt, h]
      rfl
    exact outcome_of_failure hr (Option.some_ne_none _).symm
  · exact outcome_of_failure (receipt_of_undecodable h hs hd) (Option.some_ne_none _).symm
  · refine outcome_of_failure (receipt_of_rejected h h0 h1) fun hs => ?_
    exact h2 (Option.some.inj hs)
  · obtain ⟨-, b, hb⟩ := (run_tries _ _ _ _ _).refused ht
    have hok := receipt_eq_ok_iff.1 (outcome_eq_ok_iff.1 hv)
    obtain ⟨status, body, ha, hs, -⟩ := hok
    rw [hb] at ha
    obtain ⟨rfl, rfl⟩ := Reply.complete.inj ha
    rcases hs with hs | hs <;> cases hs

end Publish

end RegistryPublisher
