import RegistryPublisher.Proofs.Action

/-!
# Runs of publishing and validating

- on a sink without a limit a run is given in full: `Validate.run_of_failure` and `Validate.run_of_verdict`,
  `Publish.run_of_receipt`, `Publish.run_of_failure` and `Publish.run_of_refusal`;
- on any sink the traffic of a publication is one of three (`Publish.run_traffic`), and what reaches the network is what
  it makes of the requests (`Publish.run_relays`, `Validate.run_relays`).
-/

namespace RegistryPublisher

open Client

variable {net : Network} {r : Reporter} {e : Endpoint} {d : Descriptor} {v : Verdict} {cause : ClientFailure}
  {j : Journal}

/-! ## Validating -/

namespace Validate

/-- What a verdict comes to. -/
def judgement (r : Reporter) (d : Descriptor) (v : Verdict) : Except Failure Unit :=
  if v.valid then .ok () else .error (.invalid (r.message v d))

theorem judge_run (hj : j.room = none) (r : Reporter) (d : Descriptor) (v : Verdict) :
    (judge r d v).run j = (judgement r d v, j.append (Utf8.encode (r.text v d))) := by
  unfold judge judgement
  rw [run_write_bind hj]
  cases hv : v.valid <;> simp [Reporter.report, hv]

/-- What comes after a report is left out when the verdict is that the descriptor is invalid. -/
theorem judge_bind_run {β : Type} {f : Unit → Action Failure β} {x : Except Failure β} (hj : j.room = none)
    (hf : ∀ k, (f ()).run k = (x, k)) (r : Reporter) (d : Descriptor) (v : Verdict) :
    (judge r d v >>= f).run j = ((judgement r d v).bind fun _ => x, j.append (Utf8.encode (r.text v d))) := by
  have hjudge := judge_run hj r d v
  cases h : judgement r d v with
  | ok u =>
    rw [h] at hjudge
    rw [run_bind_ok f hjudge, hf]
    rfl
  | error e =>
    rw [h] at hjudge
    exact run_bind_error f hjudge

theorem judge_silent (r : Reporter) (d : Descriptor) (v : Verdict) : Silent (judge r d v) := by
  refine Silent.bind (Silent.write _) fun _ => ?_
  split
  · exact Silent.throw _
  · exact Silent.pure _

theorem run_relays (net : Network) (r : Reporter) (e : Endpoint) (d : Descriptor) : Relays net (run net r e d) := by
  refine ((Silent.write _).relays net).bind fun _ => (Relays.validate net e d).attempt.bind fun answer => ?_
  cases answer with
  | error cause => exact (Silent.throw _).relays net
  | ok v => exact ((judge_silent r d v).bind fun _ => Silent.pure v).relays net

/-- What a validation starts with. -/
def opening (e : Endpoint) : Bytes := Utf8.encode ("Validating against " ++ e.baseUrl ++ "...\n")

/-- The last line of a validation that finds a file valid. -/
def approval (file : String) : Bytes := Utf8.encode ("✅ " ++ (Path.fileName? file).getD file ++ " is valid\n")

/-- The journal of a validation that has asked for its verdict. -/
def asked (net : Network) (e : Endpoint) (d : Descriptor) (j : Journal) : Journal :=
  noted net (j.append (opening e)) (validateRequest e d)

theorem run_of_failure (hj : j.room = none) (hv : verdict net e d = .error cause) :
    (run net r e d).run j = (.error (.validate cause), asked net e d j) := by
  unfold run
  rw [run_write_bind hj, run_bind_ok _ (run_attempt _ _), validate_run, hv]
  rfl

theorem run_of_verdict (hj : j.room = none) (hv : verdict net e d = .ok v) :
    (run net r e d).run j =
      ((judgement r d v).map fun _ => v, (asked net e d j).append (Utf8.encode (r.text v d))) := by
  unfold run
  rw [run_write_bind hj, run_bind_ok _ (run_attempt _ _), validate_run, hv]
  have hk : (asked net e d j).room = none := by simpa [asked] using hj
  refine (judge_bind_run hk (run_pure v) r d v).trans ?_
  cases judgement r d v <;> rfl

end Validate

/-! ## Explaining a refusal -/

namespace Publish

variable {refusal : ClientFailure}

theorem diagnose_of_failure (hv : verdict net e d = .error cause) (r : Reporter) (j : Journal) :
    (diagnose net r e d refusal).run j = (.error (.publish refusal), noted net j (validateRequest e d)) := by
  unfold diagnose
  rw [run_bind_ok _ (run_attempt _ _), validate_run, hv]
  rfl

theorem diagnose_of_verdict (hj : j.room = none) (hv : verdict net e d = .ok v) :
    (diagnose net r e d refusal).run j =
      ((Validate.judgement r d v).bind fun _ => .error .unexplained,
        (noted net j (validateRequest e d)).append (Utf8.encode (r.text v d))) := by
  unfold diagnose
  rw [run_bind_ok _ (run_attempt _ _), validate_run, hv]
  have hk : (noted net j (validateRequest e d)).room = none := by simpa using hj
  exact Validate.judge_bind_run hk (run_throw _) r d v

/-- Explaining sends the request for a verdict and nothing else. -/
theorem diagnose_traffic (net : Network) (r : Reporter) (e : Endpoint) (d : Descriptor) (refusal : ClientFailure)
    (j : Journal) :
    ((diagnose net r e d refusal).run j).2.traffic = (noted net j (validateRequest e d)).traffic := by
  unfold diagnose
  rw [run_bind_ok _ (run_attempt _ _), validate_run]
  cases verdict net e d with
  | error cause => rfl
  | ok v => exact Silent.bind (Validate.judge_silent r d v) (fun _ => Silent.throw _) _

theorem diagnose_relays (net : Network) (r : Reporter) (e : Endpoint) (d : Descriptor) (refusal : ClientFailure) :
    Relays net (diagnose net r e d refusal) := by
  refine (Relays.validate net e d).attempt.bind fun answer => ?_
  cases answer with
  | error cause => exact (Silent.throw _).relays net
  | ok v => exact ((Validate.judge_silent r d v).bind fun _ => Silent.throw _).relays net

/-! ## Publishing -/

theorem run_relays (net : Network) (r : Reporter) (e : Endpoint) (d : Descriptor) : Relays net (run net r e d) := by
  refine ((Silent.write _).relays net).bind fun _ => (Relays.publish net e d).attempt.bind fun answer => ?_
  cases answer with
  | ok receipt => exact ((Silent.write _).bind fun _ => (Silent.write _).bind fun _ => Silent.pure receipt).relays net
  | error cause =>
    dsimp only
    split
    · refine ((Silent.write _).relays net).bind fun _ => ((Silent.write _).relays net).bind fun _ => ?_
      exact diagnose_relays net r e d cause
    · exact (Silent.throw _).relays net

/-- What a publication starts with. -/
def opening (e : Endpoint) : Bytes := Utf8.encode ("Publishing to " ++ e.baseUrl ++ "...\n")

/-- What is written about a refusal before it is explained. -/
def notice : Bytes := Utf8.encode "Validation failed. Checking detailed validation errors...\n" ++ Utf8.encode "\n"

/-- What is written about a receipt. -/
def acknowledgement (receipt : Receipt) : Bytes :=
  Utf8.encode "✓ Successfully published\n" ++
    Utf8.encode ("✓ Server " ++ receipt.server.name ++ " version " ++ receipt.server.version ++ "\n")

/-- The journal of a publication that has sent its descriptor. -/
def posted (net : Network) (e : Endpoint) (d : Descriptor) (j : Journal) : Journal :=
  noted net (j.append (opening e)) (publishRequest e d)

@[simp] theorem posted_room : (posted net e d j).room = j.room := by simp [posted]

theorem run_of_receipt {receipt : Receipt} (hj : j.room = none) (h : Client.receipt net e d = .ok receipt) :
    (run net r e d).run j = (.ok receipt, (posted net e d j).append (acknowledgement receipt)) := by
  unfold run
  rw [run_write_bind hj, run_bind_ok _ (run_attempt _ _), publish_run, h]
  have hk : (posted net e d j).room = none := by simpa using hj
  dsimp only
  rw [← opening.eq_1, ← posted.eq_1, run_write_bind hk, run_write_bind (j := (posted net e d j).append _) hk]
  simp [Journal.append, acknowledgement]

theorem run_of_failure (hj : j.room = none) (h : Client.receipt net e d = .error cause)
    (hs : cause.status? ≠ some unprocessable) :
    (run net r e d).run j = (.error (.publish cause), posted net e d j) := by
  unfold run
  rw [run_write_bind hj, run_bind_ok _ (run_attempt _ _), publish_run, h]
  dsimp only
  rw [if_neg hs]
  rfl

theorem run_of_refusal (hj : j.room = none) (h : Client.receipt net e d = .error cause)
    (hs : cause.status? = some unprocessable) :
    (run net r e d).run j = (diagnose net r e d cause).run ((posted net e d j).append notice) := by
  unfold run
  rw [run_write_bind hj, run_bind_ok _ (run_attempt _ _), publish_run, h]
  have hk : (posted net e d j).room = none := by simpa using hj
  dsimp only
  rw [if_pos hs, ← opening.eq_1, ← posted.eq_1, run_write_bind hk, run_write_bind (j := (posted net e d j).append _) hk]
  simp [Journal.append, notice]

/-- A refused publication was answered completely with the status 422. -/
theorem refusal_answer (h : Client.receipt net e d = .error cause) (hs : cause.status? = some unprocessable) :
    ∃ body, net.reply (publishRequest e d) = .complete 422 body ∧ cause = .rejected 422 (Utf8.lossy body) :=
  interpret_status h hs

/-- **The traffic of a publication**, on any sink: nothing, or the descriptor, or after a refusal with the status 422
also the request for a verdict. -/
theorem run_traffic (net : Network) (r : Reporter) (e : Endpoint) (d : Descriptor) (j : Journal) :
    ((run net r e d).run j).2.traffic = j.traffic ∨
    ((run net r e d).run j).2.traffic = (noted net j (publishRequest e d)).traffic ∨
    (∃ body, net.reply (publishRequest e d) = .complete 422 body) ∧
      ((run net r e d).run j).2.traffic =
        (noted net (noted net j (publishRequest e d)) (validateRequest e d)).traffic := by
  unfold run
  obtain ⟨k, hk, ⟨f, h⟩ | ⟨_, h⟩⟩ := Silent.bind_cases (Silent.write _) _ j <;> rw [h]
  · exact Or.inl hk
  have hp := noted_traffic hk net (publishRequest e d)
  rw [run_bind_ok _ (run_attempt _ _), publish_run]
  cases hc : Client.receipt net e d with
  | ok receipt =>
    refine Or.inr (Or.inl (Eq.trans ?_ hp))
    exact Silent.bind (Silent.write _) (fun _ => Silent.bind (Silent.write _) fun _ => Silent.pure _) _
  | error cause =>
    dsimp only
    by_cases hs : cause.status? = some unprocessable
    · rw [if_pos hs]
      obtain ⟨body, hb, -⟩ := refusal_answer hc hs
      -- Each of the two writes may fail; a failure leaves the traffic of the publication.
      obtain ⟨k₁, hk₁, ⟨f, h₁⟩ | ⟨_, h₁⟩⟩ := Silent.bind_cases (Silent.write _) _ (noted net k (publishRequest e d)) <;>
        rw [h₁]
      · exact Or.inr (Or.inl (hk₁.trans hp))
      obtain ⟨k₂, hk₂, ⟨f, h₂⟩ | ⟨_, h₂⟩⟩ := Silent.bind_cases (Silent.write _) _ k₁ <;> rw [h₂]
      · exact Or.inr (Or.inl (hk₂.trans (hk₁.trans hp)))
      refine Or.inr (Or.inr ⟨⟨body, hb⟩, ?_⟩)
      rw [diagnose_traffic]
      exact noted_traffic (hk₂.trans (hk₁.trans hp)) net _
    · rw [if_neg hs]
      exact Or.inr (Or.inl hp)

end Publish

end RegistryPublisher
