import RegistryPublisher.Program
import RegistryPublisher.Proofs.Command.Target
import RegistryPublisher.Proofs.Publish.Outcome
import RegistryPublisher.Proofs.World.EnvFile

/-!
# When the program succeeds

- `Publish.command_eq_ok_iff`, `Validate.command_eq_ok_iff`: when the command for a file succeeds, with
  `Publish.command_of_receipt` and `Validate.command_of_verdict` for what it then has written and sent;
- `Program.Publication` and `Program.Validation`: everything that a successful run rests on, from the settings to the
  answer of the registry;
- `Program.run_exitCode`: the program succeeds exactly when there is such a publication or validation, and fails
  otherwise, or crashes when the file of variables has a value that no variable can have (`Program.run_exitCode_nul`).
-/

namespace RegistryPublisher

open Client

theorem Client.setUp_eq_ok_iff {net : Network} {u : Unit} :
    (setUp net).mapError Failure.client = .ok u ↔ net.fault = none := by
  rw [setUp]
  cases net.fault with
  | none => exact iff_of_true rfl rfl
  | some causes => exact iff_of_false (fun h => by cases h) (Option.some_ne_none causes)

/-! ## Commands -/

section Commands

variable {w : World} {net : Network} {s : Settings} {flag : Option String} {file : String} {d : Descriptor}
  {e : Endpoint}

namespace Publish

theorem command_of_receipt {v : Receipt} (hd : Descriptor.load w file = .ok d)
    (he : Target.forPublish w s flag = .ok e) (hc : net.fault = none) (hv : receipt net e d = .ok v) :
    (command w net s flag file).run (Journal.start none) =
      (.ok v, (posted net e d (Journal.start none)).append (acknowledgement v)) := by
  unfold command
  rw [run_require_ok _ _ hd, run_require_ok _ _ he, run_require_ok _ _ ((@setUp_eq_ok_iff net ()).2 hc),
    run_of_receipt rfl hv]

/-- A publication of a file succeeds when there are a descriptor, somewhere to go, a client, and a receipt. -/
theorem command_eq_ok_iff {v : Receipt} : ((command w net s flag file).run (Journal.start none)).1 = .ok v ↔
    ∃ d e, Descriptor.load w file = .ok d ∧ Target.forPublish w s flag = .ok e ∧ net.fault = none ∧
      receipt net e d = .ok v := by
  unfold command
  simp only [run_require_eq_ok_iff, setUp_eq_ok_iff]
  constructor
  · rintro ⟨d, hd, e, he, -, hc, hv⟩
    exact ⟨d, e, hd, he, hc, outcome_eq_ok_iff.1 hv⟩
  · rintro ⟨d, e, hd, he, hc, hv⟩
    exact ⟨d, hd, e, he, (), hc, outcome_eq_ok_iff.2 hv⟩

end Publish

namespace Validate

theorem command_of_verdict {v : Verdict} (hd : Descriptor.load w file = .ok d) (hc : net.fault = none)
    (hv : verdict net (Target.forValidate w s flag) d = .ok v) (hvalid : v.valid = true) :
    (command w net s flag file).run (Journal.start none) =
      (.ok v, ((asked net (Target.forValidate w s flag) d (Journal.start none)).append
        (Utf8.encode (Reporter.standard.text v d))).append (approval file)) := by
  have hrun := run_of_verdict (j := Journal.start none) rfl (r := .standard) hv
  rw [judgement, if_pos hvalid] at hrun
  unfold command
  rw [run_require_ok _ _ hd, run_require_ok _ _ ((@setUp_eq_ok_iff net ()).2 hc), run_bind_ok _ hrun,
    run_write_bind (by simp [asked, Journal.start])]
  rfl

/-- A validation of a file succeeds when there are a descriptor, a client, and a verdict that it is valid. -/
theorem command_eq_ok_iff {v : Verdict} : ((command w net s flag file).run (Journal.start none)).1 = .ok v ↔
    ∃ d, Descriptor.load w file = .ok d ∧ net.fault = none ∧ verdict net (Target.forValidate w s flag) d = .ok v ∧
      v.valid = true := by
  constructor
  · intro h
    unfold command at h
    simp only [run_require_eq_ok_iff, setUp_eq_ok_iff] at h
    obtain ⟨d, hd, -, hc, h⟩ := h
    cases hv : verdict net (Target.forValidate w s flag) d with
    | error c =>
      rw [run_bind_error _ (run_of_failure rfl hv)] at h
      cases h
    | ok v' =>
      have hrun := run_of_verdict (j := Journal.start none) rfl (r := .standard) hv
      by_cases hvalid : v'.valid = true
      · rw [judgement, if_pos hvalid] at hrun
        rw [run_bind_ok _ hrun, run_write_bind (by simp [asked, Journal.start])] at h
        cases h
        exact ⟨d, hd, hc, hv, hvalid⟩
      · rw [judgement, if_neg hvalid] at hrun
        rw [run_bind_error _ hrun] at h
        cases h
  · rintro ⟨d, hd, hc, hv, hvalid⟩
    rw [command_of_verdict hd hc hv hvalid]

end Validate

end Commands

namespace Program

/-! ## Successful runs -/

/-- What a command works on: settings, and the descriptor of its file. -/
structure Input (w : World) (i : Invocation) where
  settings : Settings
  loaded : Settings.load w = .ok settings
  descriptor : Descriptor
  stored : w.Holds i.file Descriptor.decode descriptor

/-- Where a publication goes with a token. -/
def Input.destination {w : World} {i : Invocation} (x : Input w i) (token : String) : Endpoint :=
  ⟨Target.publishUrl w x.settings i.registry, some token⟩

/-- Where a validation goes. -/
def Input.judge {w : World} {i : Invocation} (x : Input w i) : Endpoint := Target.forValidate w x.settings i.registry

/-- What a successful publication rests on: a token, a client, and an answer to the one request that holds a receipt. -/
structure Publication (w : World) (net : Network) (i : Invocation) extends Input w i where
  token : String
  available : Target.Token w settings token
  receipt : Receipt
  ready : net.fault = none
  answered : ∃ status body,
    net.reply (publishRequest (toInput.destination token) descriptor) = .complete status body ∧
    (status = 200 ∨ status = 201) ∧ Receipt.decode body = .ok receipt

/-- What a successful validation rests on: a client, and an answer to the one request that holds a verdict of validity. -/
structure Validation (w : World) (net : Network) (i : Invocation) extends Input w i where
  verdict : Verdict
  ready : net.fault = none
  answered : ∃ body, net.reply (validateRequest toInput.judge descriptor) = .complete 200 body ∧
    Verdict.decode body = .ok verdict
  valid : verdict.valid = true

variable {w : World} {net : Network} {i : Invocation}

theorem Publication.receipt_eq (p : Publication w net i) :
    Client.receipt net (p.destination p.token) p.descriptor = .ok p.receipt := by
  obtain ⟨status, body, ha, hs, hd⟩ := p.answered
  exact receipt_eq_ok_iff.2 ⟨status, body, ha, hs, hd⟩

theorem Validation.verdict_eq (v : Validation w net i) : Client.verdict net v.judge v.descriptor = .ok v.verdict := by
  obtain ⟨body, ha, hd⟩ := v.answered
  exact verdict_eq_ok_iff.2 ⟨body, ha, hd⟩

/-! ## From commands to exit codes -/

theorem discard_run {α : Type} (x : Action Failure α) (j : Journal) :
    (x >>= fun _ => pure ()).run j = ((x.run j).1.map fun _ => (), (x.run j).2) := by
  rcases h : x.run j with ⟨f | a, k⟩
  · exact run_bind_error _ h
  · exact run_bind_ok _ h

theorem finished_of_ok {α : Type} {x : Action Failure α} {a : α} {j : Journal}
    (h : x.run (Journal.start none) = (.ok a, j)) :
    finished (x >>= fun _ => pure ()) = ⟨0, j.written, "", j.requests⟩ := by
  simp only [finished, discard_run, h, Except.map]

theorem finished_of_error {α : Type} {x : Action Failure α} {f : Failure} {j : Journal}
    (h : x.run (Journal.start none) = (.error f, j)) : (finished (x >>= fun _ => pure ())).exitCode = 1 := by
  simp only [finished, discard_run, h, Except.map]

/-- A command exits with 0 when it succeeds. -/
theorem finished_exitCode {α : Type} (x : Action Failure α) :
    (finished (x >>= fun _ => pure ())).exitCode = 0 ↔ ∃ a, (x.run (Journal.start none)).1 = .ok a := by
  rcases h : x.run (Journal.start none) with ⟨f | a, j⟩
  · rw [finished_of_error h]
    exact ⟨nofun, fun ⟨_, h⟩ => nomatch h⟩
  · rw [finished_of_ok h]
    exact ⟨fun _ => ⟨a, rfl⟩, fun _ => rfl⟩

section Run

variable {args : List String} (h : Arguments.parse args = .ok i)
include h

theorem run_of_crash {c : EnvFile.Crash} (hw : EnvFile.load w = .error c) : (run w net args).1 = crashed c := by
  simp only [run, h, Settings.loadWithEnvFile, hw, Except.map]

section Loaded

variable {later : World} (hw : EnvFile.load w = .ok later)
include hw

theorem run_of_settings {s : Settings} (hs : Settings.load later = .ok s) :
    (run w net args).1 = finished (action later net s i) := by
  simp only [run, h, Settings.loadWithEnvFile, hw, Except.map, hs]

theorem run_of_malformed {e : Settings.LoadFailure} (hs : Settings.load later = .error e) :
    (run w net args).1.exitCode = 1 := by
  simp only [run, h, Settings.loadWithEnvFile, hw, Except.map, hs]

/-- Nothing succeeds without settings. -/
theorem run_exitCode_eq_zero_iff : (run w net args).1.exitCode = 0 ↔
    ∃ s, Settings.load later = .ok s ∧ (finished (action later net s i)).exitCode = 0 := by
  cases hs : Settings.load later with
  | error e =>
    rw [run_of_malformed h hw hs]
    exact ⟨nofun, fun ⟨_, h, _⟩ => nomatch h⟩
  | ok s =>
    rw [run_of_settings h hw hs]
    exact ⟨fun h0 => ⟨s, rfl, h0⟩, fun ⟨_, e, h0⟩ => Except.ok.inj e ▸ h0⟩

/-- There is no third exit code of a command. -/
theorem run_exitCode_of_ne (hne : (run w net args).1.exitCode ≠ 0) : (run w net args).1.exitCode = 1 := by
  cases hs : Settings.load later with
  | error e => exact run_of_malformed h hw hs
  | ok s =>
    rw [run_of_settings h hw hs, finished] at hne ⊢
    rcases hx : (action later net s i).run (Journal.start none) with ⟨f | u, j⟩
    · rfl
    · rw [hx] at hne
      exact absurd rfl hne

section Publish

variable (hc : i.command = .publish)
include hc

/-- All that a successful publication writes and sends. -/
theorem Publication.run_eq (p : Publication later net i) : (run w net args).1 =
    ⟨0, Publish.opening (p.destination p.token) ++ Publish.acknowledgement p.receipt, "",
      net.sent (publishRequest (p.destination p.token) p.descriptor)⟩ := by
  have htarget : Target.forPublish later p.settings i.registry = .ok (p.destination p.token) :=
    Target.forPublish_eq_ok_iff.2 ⟨p.token, p.available, rfl⟩
  have hrun := Publish.command_of_receipt (Descriptor.load_eq_ok_iff.2 p.stored) htarget p.ready p.receipt_eq
  rw [run_of_settings h hw p.loaded, action, hc, finished_of_ok hrun]
  simp [Publish.posted, Journal.start]

theorem publish_iff : (run w net args).1.exitCode = 0 ↔ Nonempty (Publication later net i) := by
  constructor
  · intro h0
    obtain ⟨s, hs, h0⟩ := (run_exitCode_eq_zero_iff h hw).1 h0
    rw [action, hc, finished_exitCode] at h0
    obtain ⟨v, hv⟩ := h0
    obtain ⟨d, e, hd, he, hready, hr⟩ := Publish.command_eq_ok_iff.1 hv
    obtain ⟨token, htoken, rfl⟩ := Target.forPublish_eq_ok_iff.1 he
    let x : Input later i := ⟨s, hs, d, Descriptor.load_eq_ok_iff.1 hd⟩
    exact ⟨x, token, htoken, v, hready, receipt_eq_ok_iff.1 hr⟩
  · rintro ⟨p⟩
    rw [p.run_eq h hw hc]

end Publish

section Validate

variable (hc : i.command = .validate)
include hc

/-- All that a successful validation writes and sends. -/
theorem Validation.run_eq (v : Validation later net i) : (run w net args).1 =
    ⟨0, Validate.opening v.judge ++ Utf8.encode (Reporter.standard.text v.verdict v.descriptor) ++
      Validate.approval i.file, "", net.sent (validateRequest v.judge v.descriptor)⟩ := by
  have hrun := Validate.command_of_verdict (Descriptor.load_eq_ok_iff.2 v.stored) v.ready v.verdict_eq v.valid
  rw [← Input.judge] at hrun
  rw [run_of_settings h hw v.loaded, action, hc, finished_of_ok hrun]
  simp [Validate.asked, Journal.start]

theorem validate_iff : (run w net args).1.exitCode = 0 ↔ Nonempty (Validation later net i) := by
  constructor
  · intro h0
    obtain ⟨s, hs, h0⟩ := (run_exitCode_eq_zero_iff h hw).1 h0
    rw [action, hc, finished_exitCode] at h0
    obtain ⟨v, hv⟩ := h0
    obtain ⟨d, hd, hready, hverdict, hvalid⟩ := Validate.command_eq_ok_iff.1 hv
    let x : Input later i := ⟨s, hs, d, Descriptor.load_eq_ok_iff.1 hd⟩
    exact ⟨x, v, hready, verdict_eq_ok_iff.1 hverdict, hvalid⟩
  · rintro ⟨v⟩
    rw [v.run_eq h hw hc]

end Validate

end Loaded

end Run

/-! ## The exit code -/

/-- **Success.** A command line for a command exits with 0 exactly when everything is there that the command rests on,
in the world after the file of variables was loaded, and otherwise with 1. A successful publication has asked for one
request, with the token, and ends with the name and version in the receipt; a successful validation has asked for one
request, without a token. This request is all that was sent if the library sends it as it is. There is one other exit
code: 101, with nothing written and nothing sent, when the file sets a variable to a value that holds a NUL. -/
theorem run_exitCode {w : World} {net : Network} {args : List String} {i : Invocation}
    (h : Arguments.parse args = .ok i) :
    let result := (Program.run w net args).1
    (¬EnvFile.Loadable w.environment (EnvFile.nearestLines w) →
      result.exitCode = 101 ∧ result.output = [] ∧ result.requests = []) ∧
    (EnvFile.Loadable w.environment (EnvFile.nearestLines w) →
      let later := EnvFile.filledWorld w
      (i.command = .publish → (result.exitCode = 0 ↔ Nonempty (Publication later net i)) ∧
        ∀ p : Publication later net i, ∃ q, result.requests = net.sent q ∧ (net.IsDirect q → result.requests = [q]) ∧
          q.IsPublication (p.destination p.token) p.descriptor ∧ q.authorization = some ("Bearer " ++ p.token) ∧
          ∃ before, result.output = before ++ Utf8.encode
            ("✓ Server " ++ p.receipt.server.name ++ " version " ++ p.receipt.server.version ++ "\n")) ∧
      (i.command = .validate → (result.exitCode = 0 ↔ Nonempty (Validation later net i)) ∧
        ∀ v : Validation later net i, ∃ q, result.requests = net.sent q ∧ (net.IsDirect q → result.requests = [q]) ∧
          q.IsValidation v.judge v.descriptor ∧ q.authorization = none) ∧
      (result.exitCode ≠ 0 → result.exitCode = 1)) := by
  intro result
  refine ⟨fun hcrash => ?_, fun hloadable => ?_⟩
  · obtain ⟨c, hc⟩ := EnvFile.exists_load_error_iff.2 hcrash
    rw [show result = crashed c from run_of_crash h hc]
    exact ⟨rfl, rfl, rfl⟩
  intro later
  have hw : EnvFile.load w = .ok later := EnvFile.load_eq_ok_iff.2 ⟨hloadable, rfl⟩
  refine ⟨fun hc => ⟨publish_iff h hw hc, fun p => ?_⟩, fun hc => ⟨validate_iff h hw hc, fun v => ?_⟩,
    run_exitCode_of_ne h hw⟩
  · rw [show result = _ from p.run_eq h hw hc]
    obtain ⟨status, body, ha, -⟩ := p.answered
    refine ⟨_, rfl, fun hdirect => hdirect.sent_eq ha, publishRequest_spec _ _, rfl, ?_⟩
    exact ⟨Publish.opening (p.destination p.token) ++ Utf8.encode "✓ Successfully published\n",
      (List.append_assoc ..).symm⟩
  · rw [show result = _ from v.run_eq h hw hc]
    obtain ⟨body, ha, -⟩ := v.answered
    exact ⟨_, rfl, fun hdirect => hdirect.sent_eq ha, validateRequest_spec _ _, rfl⟩

/-- A world with a descriptor and a token file. -/
def readyWorld : World where
  read path :=
    if path = "server.json" then .ok [0x7b, 0x7d]
    else if path = "/.mcp_publisher_token" then .ok Target.loginText
    else .error .notFound
  environment := []
  directory := "/"
  accountHome := some "/"

/-- A receipt for a name and a version. -/
def receiptText : Bytes := Utf8.encode "\x7b\"server\":\x7b\"name\":\"a\",\"version\":\"1\"\x7d\x7d"

theorem decode_receiptText : Receipt.decode receiptText = .ok ⟨⟨"", "a", "", "1", []⟩, none⟩ := by
  have htext : receiptText = [
    0x7b, 0x22, 0x73, 0x65, 0x72, 0x76, 0x65, 0x72, 0x22, 0x3a, 0x7b, 0x22, 0x6e, 0x61, 0x6d, 0x65, 0x22, 0x3a,
    0x22, 0x61, 0x22, 0x2c, 0x22, 0x76, 0x65, 0x72, 0x73, 0x69, 0x6f, 0x6e, 0x22, 0x3a, 0x22, 0x31, 0x22, 0x7d,
    0x7d] := by decide
  rw [htext]
  rfl

/-- With a stored login, an empty descriptor is published to a registry that accepts everything. -/
theorem run_exitCode_ready :
    let net : Network := .direct fun _ => .complete 201 receiptText
    let result := (run readyWorld net ["publish"]).1
    result.exitCode = 0 ∧ ∃ q, result.requests = [q] ∧ q.url = "http://r/v0/publish" ∧
      q.authorization = some "Bearer x" := by
  intro net result
  let i : Invocation := ⟨.publish, "server.json", none, false, false⟩
  have hparse : Arguments.parse ["publish"] = .ok i := rfl
  have hfile : readyWorld.Holds "server.json" Descriptor.decode .empty := by
    refine ⟨[0x7b, 0x7d], ?_, rfl⟩
    simp [readyWorld]
  have hlogin : Login.Stored readyWorld .empty ⟨"x", "http://r"⟩ := by
    refine ⟨"/.mcp_publisher_token", rfl, Target.loginText, ?_, Target.decode_loginText⟩
    simp [readyWorld]
  have hurl : Target.publishUrl readyWorld .empty none = "http://r" := by
    have ht : Settings.empty.token = "" := rfl
    rw [Target.publishUrl, if_pos ht, Login.stored?_eq_some_iff.2 hlogin]
    rfl
  let x : Input readyWorld i := ⟨.empty, rfl, .empty, hfile⟩
  have hdestination : x.destination "x" = ⟨"http://r", some "x"⟩ := by rw [Input.destination, hurl]
  let p : Publication readyWorld net i :=
    ⟨x, "x", .stored rfl hlogin (by decide), _, rfl, 201, _, rfl, Or.inr rfl, decode_receiptText⟩
  have hlines : EnvFile.nearestLines readyWorld = [] := rfl
  have hmain := (@run_exitCode readyWorld net _ i hparse).2 (by rw [hlines]; exact .of_forall (List.forall_mem_nil _))
  have hworld : EnvFile.filledWorld readyWorld = readyWorld := rfl
  rw [hworld] at hmain
  obtain ⟨hiff, hrun⟩ := hmain.1 rfl
  obtain ⟨q, -, hq, hspec, hbearer, -⟩ := hrun p
  refine ⟨hiff.2 ⟨p⟩, q, hq (Network.direct_isDirect _ q), ?_, hbearer⟩
  rw [hspec.url]
  change (x.destination "x").urlFor "v0/publish" = _
  rw [hdestination]
  decide

/-- A world with nothing but a file of variables, which sets one to a value with a NUL. -/
def nulWorld : World where
  read path := if path = "/.env" then .ok (Utf8.encode "A=a\x00b\n") else .error .notFound
  environment := []
  directory := "/"
  accountHome := some "/"

/-- A command line for a command does not always exit with 0 or 1. -/
theorem run_exitCode_nul :
    (∃ i, Arguments.parse ["publish"] = .ok i) ∧
    (run nulWorld (.direct fun _ => .failed []) ["publish"]).1.exitCode = 101 := by
  exact ⟨⟨_, rfl⟩, by decide +kernel⟩

end Program

end RegistryPublisher
