import RegistryPublisher.Proofs.Publish.Run
import RegistryPublisher.Proofs.Script

/-!
# Commands on a full sink

- `Validate.script`, `Publish.script` and the scripts of the commands for files list what happens, in order;
- `Validate.run_plays`, `Publish.run_plays`, `Validate.command_plays`, `Publish.command_plays`: so it happens;
- `commands_cleanCut`: on a sink that takes only so many bytes they are all cut off cleanly.
-/

namespace RegistryPublisher

open Client

/-! ## Validating -/

namespace Validate

theorem judge_plays (r : Reporter) (d : Descriptor) (v : Verdict) :
    Plays (judge r d v) [.write (Utf8.encode (r.text v d))] (judgement r d v) := by
  unfold judge judgement
  rw [← List.append_nil [_]]
  refine (Plays.write _).bind_ok ?_
  cases hv : v.valid <;> simp only [Reporter.report, hv, Bool.false_eq_true, if_false, if_true]
  · exact Plays.throw _
  · exact Plays.pure _

/-- What is written about a verdict, if there is one. -/
def findings (r : Reporter) (d : Descriptor) : Except ClientFailure Verdict → Script
  | .error _ => []
  | .ok v => [.write (Utf8.encode (r.text v d))]

/-- A validation: its opening, the request, and the report. -/
def script (net : Network) (r : Reporter) (e : Endpoint) (d : Descriptor) : Script :=
  [.write (opening e), .call (validateRequest e d) (net.exchange (validateRequest e d))] ++
    findings r d (verdict net e d)

/-- What a validation comes to. -/
def result (r : Reporter) (d : Descriptor) : Except ClientFailure Verdict → Except Failure Verdict
  | .error cause => .error (.validate cause)
  | .ok v => (judgement r d v).map fun _ => v

theorem run_plays (net : Network) (r : Reporter) (e : Endpoint) (d : Descriptor) :
    Plays (run net r e d) (script net r e d) (result r d (verdict net e d)) := by
  unfold run script
  refine (Plays.write _).bind_ok ((Plays.attempt_validate net e d).bind_ok ?_)
  cases verdict net e d with
  | error cause => exact Plays.throw _
  | ok v =>
    have hjudge := judge_plays r d v
    rw [result]
    cases h : judgement r d v with
    | error f => rw [h] at hjudge; exact hjudge.bind_error _
    | ok u => rw [h] at hjudge; exact hjudge.bind_ok (Plays.pure v)

/-- The validation of a file: nothing when it cannot be loaded or there is no client. -/
def commandScript (w : World) (net : Network) (s : Settings) (flag : Option String) (file : String) : Script :=
  match Descriptor.load w file, setUp net with
  | .ok d, .ok _ =>
    let e := Target.forValidate w s flag
    script net .standard e d ++ if (result .standard d (verdict net e d)).isOk then [.write (approval file)] else []
  | _, _ => []

theorem command_plays (w : World) (net : Network) (s : Settings) (flag : Option String) (file : String) :
    ∃ outcome, Plays (command w net s flag file) (commandScript w net s flag file) outcome := by
  have hload := Plays.require (Descriptor.load w file)
  have hclient := Plays.require ((setUp net).mapError Failure.client)
  unfold command commandScript
  cases h : Descriptor.load w file with
  | error f => rw [h] at hload; exact ⟨_, hload.bind_error _⟩
  | ok d =>
    rw [h] at hload
    cases hc : setUp net with
    | error f => rw [hc] at hclient; exact ⟨_, hload.bind_quiet (hclient.bind_error _)⟩
    | ok u =>
      rw [hc] at hclient
      have hrun := run_plays net .standard (Target.forValidate w s flag) d
      dsimp only
      cases hr : result .standard d (verdict net (Target.forValidate w s flag) d) with
      | error f =>
        rw [hr] at hrun
        refine ⟨.error f, hload.bind_quiet (hclient.bind_quiet ?_)⟩
        rw [if_neg (by nofun), List.append_nil]
        exact hrun.bind_error _
      | ok v =>
        rw [hr] at hrun
        exact ⟨.ok v, hload.bind_quiet
          (hclient.bind_quiet (hrun.bind_ok ((Plays.write _).bind_ok (Plays.pure v))))⟩

end Validate

/-! ## Publishing -/

namespace Publish

/-- The explanation of a refusal: the request for a verdict, and the report. -/
def diagnosis (net : Network) (r : Reporter) (e : Endpoint) (d : Descriptor) : Script :=
  [.call (validateRequest e d) (net.exchange (validateRequest e d))] ++ Validate.findings r d (verdict net e d)

theorem diagnose_plays (net : Network) (r : Reporter) (e : Endpoint) (d : Descriptor) (refusal : ClientFailure) :
    ∃ outcome, Plays (diagnose net r e d refusal) (diagnosis net r e d) outcome := by
  unfold diagnose diagnosis
  have hcall := Plays.attempt_validate net e d
  cases hv : verdict net e d with
  | error cause => rw [hv] at hcall; exact ⟨_, hcall.bind_ok (Plays.throw _)⟩
  | ok v =>
    rw [hv] at hcall
    have hjudge := Validate.judge_plays r d v
    cases h : Validate.judgement r d v with
    | error f => rw [h] at hjudge; exact ⟨_, hcall.bind_ok (hjudge.bind_error _)⟩
    | ok u => rw [h] at hjudge; exact ⟨_, hcall.bind_ok (hjudge.bind_ok (Plays.throw _))⟩

/-- What follows the answer to a publication: the receipt is shown, a refusal is explained. -/
def sequel (net : Network) (r : Reporter) (e : Endpoint) (d : Descriptor) : Except ClientFailure Receipt → Script
  | .ok receipt => [.write (Utf8.encode "✓ Successfully published\n"),
    .write (Utf8.encode ("✓ Server " ++ receipt.server.name ++ " version " ++ receipt.server.version ++ "\n"))]
  | .error cause =>
    if cause.status? = some unprocessable then
      [.write (Utf8.encode "Validation failed. Checking detailed validation errors...\n"),
        .write (Utf8.encode "\n")] ++ diagnosis net r e d
    else []

/-- A publication: its opening, the request, and what follows the answer. -/
def script (net : Network) (r : Reporter) (e : Endpoint) (d : Descriptor) : Script :=
  [.write (opening e), .call (publishRequest e d) (net.exchange (publishRequest e d))] ++
    sequel net r e d (receipt net e d)

theorem run_plays (net : Network) (r : Reporter) (e : Endpoint) (d : Descriptor) :
    ∃ outcome, Plays (run net r e d) (script net r e d) outcome := by
  unfold run script
  have hopening := Plays.write ("Publishing to " ++ e.baseUrl ++ "...\n")
  have hcall := Plays.attempt_publish net e d
  cases hc : receipt net e d with
  | ok v =>
    rw [hc] at hcall
    refine ⟨.ok v, hopening.bind_ok (hcall.bind_ok ?_)⟩
    exact (Plays.write _).bind_ok ((Plays.write _).bind_ok (Plays.pure v))
  | error cause =>
    rw [hc] at hcall
    by_cases hs : cause.status? = some unprocessable
    · obtain ⟨outcome, hdiagnose⟩ := diagnose_plays net r e d cause
      refine ⟨outcome, hopening.bind_ok (hcall.bind_ok ?_)⟩
      simp only [sequel, if_pos hs]
      exact (Plays.write _).bind_ok ((Plays.write _).bind_ok hdiagnose)
    · refine ⟨.error (.publish cause), hopening.bind_ok (hcall.bind_ok ?_)⟩
      simp only [sequel, if_neg hs]
      exact Plays.throw _

/-- The publication of a file: nothing when it cannot be loaded, or there is no token or no client. -/
def commandScript (w : World) (net : Network) (s : Settings) (flag : Option String) (file : String) : Script :=
  match Descriptor.load w file, Target.forPublish w s flag, setUp net with
  | .ok d, .ok e, .ok _ => script net .standard e d
  | _, _, _ => []

theorem command_plays (w : World) (net : Network) (s : Settings) (flag : Option String) (file : String) :
    ∃ outcome, Plays (command w net s flag file) (commandScript w net s flag file) outcome := by
  have hload := Plays.require (Descriptor.load w file)
  have htarget := Plays.require (Target.forPublish w s flag)
  have hclient := Plays.require ((setUp net).mapError Failure.client)
  unfold command commandScript
  cases hd : Descriptor.load w file with
  | error f => rw [hd] at hload; exact ⟨_, hload.bind_error _⟩
  | ok d =>
    rw [hd] at hload
    cases he : Target.forPublish w s flag with
    | error f => rw [he] at htarget; exact ⟨_, hload.bind_quiet (htarget.bind_error _)⟩
    | ok e =>
      rw [he] at htarget
      cases hc : setUp net with
      | error f => rw [hc] at hclient; exact ⟨_, hload.bind_quiet (htarget.bind_quiet (hclient.bind_error _))⟩
      | ok u =>
        rw [hc] at hclient
        obtain ⟨outcome, hrun⟩ := run_plays net .standard e d
        exact ⟨outcome, hload.bind_quiet (htarget.bind_quiet (hclient.bind_quiet hrun))⟩

end Publish

/-- **A full sink cuts commands cleanly.** Take a publication or a validation, of a descriptor or of a file, and a sink for
`n` bytes, and compare with the sink without a limit. If all that is written there fits, the result, the bytes and the
requests are the same. If not, the run writes the first `n` bytes and fails because of the output, whatever it would have
ended in; the requests that it makes are those made before the write that does not fit, so some are missing at the end and
none is made afterwards. -/
theorem commands_cleanCut (w : World) (net : Network) (r : Reporter) (e : Endpoint) (d : Descriptor) (s : Settings)
    (flag : Option String) (file : String) (n : Nat) :
    CleanCut n (Publish.script net r e d) ((Publish.run net r e d).run (Journal.start none))
      ((Publish.run net r e d).run (Journal.start (some n))) ∧
    CleanCut n (Validate.script net r e d) ((Validate.run net r e d).run (Journal.start none))
      ((Validate.run net r e d).run (Journal.start (some n))) ∧
    CleanCut n (Publish.commandScript w net s flag file)
      ((Publish.command w net s flag file).run (Journal.start none))
      ((Publish.command w net s flag file).run (Journal.start (some n))) ∧
    CleanCut n (Validate.commandScript w net s flag file)
      ((Validate.command w net s flag file).run (Journal.start none))
      ((Validate.command w net s flag file).run (Journal.start (some n))) := by
  obtain ⟨_, hpublish⟩ := Publish.run_plays net r e d
  obtain ⟨_, hcommand⟩ := Publish.command_plays w net s flag file
  obtain ⟨_, hcommand'⟩ := Validate.command_plays w net s flag file
  exact ⟨hpublish.cleanCut n, (Validate.run_plays net r e d).cleanCut n, hcommand.cleanCut n, hcommand'.cleanCut n⟩

end RegistryPublisher
