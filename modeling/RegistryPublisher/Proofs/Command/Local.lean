import RegistryPublisher.Proofs.Command.Anonymous

/-!
# Local failures

What is wrong with the file of a descriptor or with the token is found before anything happens.

- `Failure.isLocal`: the failures that are found here, in the descriptor's file (`Failure.isOfDescriptor`) or in what
  there is for a token (`Failure.isOfToken`);
- `NeverLocal`: actions that never end in a local failure; so do all runs (`Publish.run_neverLocal`,
  `Validate.run_neverLocal`);
- `Publish.command_local_iff`, `Validate.command_local_iff`: when a command for a file ends in a local failure;
- `commands_local`: such a failure touches nothing.
-/

namespace RegistryPublisher

/-! ## Where a failure comes from -/

namespace Failure

/-- Whether the descriptor's file is to blame. -/
def isOfDescriptor : Failure → Bool
  | descriptorNotFound _ | descriptorUnreadable .. | descriptorInvalid .. => true
  | _ => false

/-- Whether the token is to blame, or the token file. -/
def isOfToken : Failure → Bool
  | notAuthenticated | login _ => true
  | _ => false

/-- Whether a failure is found without the registry. -/
def isLocal (f : Failure) : Bool := f.isOfDescriptor || f.isOfToken

theorem not_isOfToken {f : Failure} (h : f.isOfDescriptor = true) : f.isOfToken = false := by
  cases f <;> cases h <;> rfl

end Failure

/-- Only the descriptor's file is to blame when it cannot be loaded. -/
theorem Descriptor.load_failure {w : World} {file : String} {f : Failure} (h : load w file = .error f) :
    f.isOfDescriptor = true := by
  unfold load at h
  split at h
  · cases h; rfl
  · cases h; rfl
  next text _ =>
  cases hd : decode text with
  | ok d => rw [hd] at h; cases h
  | error e => rw [hd] at h; cases h; rfl

/-- Only the token is to blame when there is nowhere to publish. -/
theorem Target.forPublish_failure {w : World} {s : Settings} {flag : Option String} {f : Failure}
    (h : forPublish w s flag = .error f) : f.isOfToken = true := by
  unfold forPublish at h
  split at h
  · cases h
  split at h
  · cases h; rfl
  · cases h; rfl
  split at h
  · cases h; rfl
  · cases h

/-! ## Actions that need the registry to fail -/

/-- Whatever the journal, the action does not end in a local failure: only the registry or the sink can make it fail. -/
def NeverLocal {α : Type} (x : Action Failure α) : Prop := ∀ j f, (x.run j).1 = .error f → f.isLocal = false

namespace NeverLocal

variable {ε α β : Type}

theorem pure (a : α) : NeverLocal (Pure.pure a) := nofun

theorem throw {f : Failure} (hf : f.isLocal = false) : NeverLocal (MonadExcept.throw f : Action Failure α) := by
  rintro j _ ⟨⟩
  exact hf

theorem write (s : String) : NeverLocal (RegistryPublisher.write s) := by
  intro j f h
  rw [write_run] at h
  split at h <;> cases h
  rfl

theorem attempt (x : Action ε α) : NeverLocal (RegistryPublisher.attempt x) := nofun

theorem setUp (net : Network) : NeverLocal (require ((Client.setUp net).mapError .client)) := by
  intro j f h
  cases hc : Client.setUp net with
  | ok u => rw [hc] at h; cases h
  | error c => rw [hc] at h; cases h; rfl

theorem bind {x : Action Failure α} {g : α → Action Failure β} (hx : NeverLocal x) (hg : ∀ a, NeverLocal (g a)) :
    NeverLocal (x >>= g) := by
  intro j f h
  rcases hr : x.run j with ⟨f' | a, k⟩
  · rw [run_bind_error g hr] at h
    cases h
    exact hx j f (by rw [hr])
  · rw [run_bind_ok g hr] at h
    exact hg a k f h

end NeverLocal

section Runs

variable (net : Network) (r : Reporter) (e : Endpoint) (d : Descriptor)

theorem Validate.judge_neverLocal (v : Verdict) : NeverLocal (judge r d v) := by
  refine (NeverLocal.write _).bind fun _ => ?_
  split
  · exact NeverLocal.throw rfl
  · exact NeverLocal.pure _

theorem Validate.run_neverLocal : NeverLocal (run net r e d) := by
  refine (NeverLocal.write _).bind fun _ => (NeverLocal.attempt _).bind fun answer => ?_
  cases answer with
  | error cause => exact NeverLocal.throw rfl
  | ok v => exact (judge_neverLocal r d v).bind fun _ => NeverLocal.pure v

theorem Publish.diagnose_neverLocal (refusal : ClientFailure) : NeverLocal (diagnose net r e d refusal) := by
  refine (NeverLocal.attempt _).bind fun answer => ?_
  cases answer with
  | error cause => exact NeverLocal.throw rfl
  | ok v => exact (Validate.judge_neverLocal r d v).bind fun _ => NeverLocal.throw rfl

theorem Publish.run_neverLocal : NeverLocal (run net r e d) := by
  refine (NeverLocal.write _).bind fun _ => (NeverLocal.attempt _).bind fun answer => ?_
  cases answer with
  | ok receipt => exact (NeverLocal.write _).bind fun _ => (NeverLocal.write _).bind fun _ => NeverLocal.pure receipt
  | error cause =>
    dsimp only
    split
    · refine (NeverLocal.write _).bind fun _ => (NeverLocal.write _).bind fun _ => ?_
      exact diagnose_neverLocal net r e d cause
    · exact NeverLocal.throw rfl

end Runs

/-! ## Commands for files -/

section Commands

variable {w : World} {net : Network} {s : Settings} {flag : Option String} {file : String} {d : Descriptor}
  {f : Failure} {j k : Journal}

theorem Publish.command_of_unloadable (h : Descriptor.load w file = .error f) :
    (command w net s flag file).run j = (.error f, j) := run_require_error _ j h

theorem Publish.command_of_nowhere (hd : Descriptor.load w file = .ok d) (h : Target.forPublish w s flag = .error f) :
    (command w net s flag file).run j = (.error f, j) := by
  unfold command
  rw [run_require_ok _ j hd, run_require_error _ j h]

theorem Validate.command_of_unloadable (h : Descriptor.load w file = .error f) :
    (command w net s flag file).run j = (.error f, j) := run_require_error _ j h

/-- A publication of a file ends in a local failure when there is no descriptor, or one but nowhere to publish it. -/
theorem Publish.command_local_iff (hf : f.isLocal = true) : (command w net s flag file).run j = (.error f, k) ↔
    k = j ∧ (Descriptor.load w file = .error f ∨
      (∃ d, Descriptor.load w file = .ok d) ∧ Target.forPublish w s flag = .error f) := by
  constructor
  · intro h
    cases hd : Descriptor.load w file with
    | error f' =>
      cases h.symm.trans (command_of_unloadable hd)
      exact ⟨rfl, Or.inl rfl⟩
    | ok d =>
      cases he : Target.forPublish w s flag with
      | error f' =>
        cases h.symm.trans (command_of_nowhere hd he)
        exact ⟨rfl, Or.inr ⟨⟨d, rfl⟩, rfl⟩⟩
      | ok e =>
        unfold command at h
        rw [run_require_ok _ j hd, run_require_ok _ j he] at h
        have hremote := ((NeverLocal.setUp net).bind fun _ => run_neverLocal net .standard e d) j f (by rw [h])
        exact nomatch hf.symm.trans hremote
  · rintro ⟨rfl, h | ⟨⟨d, hd⟩, h⟩⟩
    · exact command_of_unloadable h
    · exact command_of_nowhere hd h

/-- A validation of a file ends in a local failure when there is no descriptor; the token does not matter. -/
theorem Validate.command_local_iff (hf : f.isLocal = true) :
    (command w net s flag file).run j = (.error f, k) ↔ k = j ∧ Descriptor.load w file = .error f := by
  constructor
  · intro h
    cases hd : Descriptor.load w file with
    | error f' =>
      cases h.symm.trans (command_of_unloadable hd)
      exact ⟨rfl, rfl⟩
    | ok d =>
      unfold command at h
      rw [run_require_ok _ j hd] at h
      have happroval (v : Verdict) :=
        (NeverLocal.write ("✅ " ++ (Path.fileName? file).getD file ++ " is valid\n")).bind fun _ => NeverLocal.pure v
      have hremote := ((NeverLocal.setUp net).bind fun _ =>
        (run_neverLocal net .standard (Target.forValidate w s flag) d).bind happroval) j f (by rw [h])
      exact nomatch hf.symm.trans hremote
  · rintro ⟨rfl, h⟩
    exact command_of_unloadable h

/-- **Local failures touch nothing.** A descriptor that cannot be loaded makes both commands fail in the same way,
whatever there is besides its file. If it can be loaded and there is nowhere to publish it, this is how the publication
fails; a validation never fails for the sake of the token. In each of these cases, and whenever a command ends in a
local failure, the journal stays as it was: nothing is written, nothing is tried and nothing is sent. -/
theorem commands_local (w : World) (net : Network) (s : Settings) (flag : Option String) (file : String) (j : Journal) :
    let publication := (Publish.command w net s flag file).run j
    let validation := (Validate.command w net s flag file).run j
    (∀ f, Descriptor.load w file = .error f → f.isOfDescriptor = true ∧
      ∀ (w' : World) (net' : Network) (s' : Settings) (flag' : Option String), w'.read file = w.read file →
        (Publish.command w' net' s' flag' file).run j = (.error f, j) ∧
        (Validate.command w' net' s' flag' file).run j = (.error f, j)) ∧
    (∀ d f, Descriptor.load w file = .ok d → Target.forPublish w s flag = .error f →
      f.isOfToken = true ∧ publication = (.error f, j)) ∧
    (∀ f, validation.1 = .error f → f.isOfToken = false) ∧
    (∀ f, f.isLocal = true → (publication.1 = .error f → publication.2 = j) ∧
      (validation.1 = .error f → validation.2 = j)) := by
  intro publication validation
  refine ⟨fun f h => ⟨Descriptor.load_failure h, fun w' net' s' flag' hr => ?_⟩,
    fun d f hd h => ⟨Target.forPublish_failure h, Publish.command_of_nowhere hd h⟩, fun f h => ?_,
    fun f hf => ⟨fun h => ?_, fun h => ?_⟩⟩
  · have h' := (Validate.load_congr hr).trans h
    exact ⟨Publish.command_of_unloadable h', Validate.command_of_unloadable h'⟩
  · cases ht : f.isOfToken with
    | false => rfl
    | true =>
      have hlocal : f.isLocal = true := by rw [Failure.isLocal, ht, Bool.or_true]
      have hload := ((Validate.command_local_iff hlocal).1 (Prod.ext h rfl)).2
      exact nomatch (Failure.not_isOfToken (Descriptor.load_failure hload)).symm.trans ht
  · exact ((Publish.command_local_iff hf).1 (Prod.ext h rfl)).1
  · exact ((Validate.command_local_iff hf).1 (Prod.ext h rfl)).1

/-- A token file that is no login stops a publication and not a validation; a file that is not there stops both. -/
theorem commands_local_unusable :
    let w := Validate.judgedWorld [0x78]
    let net : Network := .direct fun _ => .failed []
    let s : Settings := ⟨"", "", "tok"⟩
    let f : Failure := .login (.invalid "tok" ⟨.expectedValue, 1, 1⟩)
    let j := Journal.start (some 3)
    (Descriptor.load w "server.json" = .ok .empty ∧ Target.forPublish w s none = .error f ∧
      (Publish.command w net s none "server.json").run j = (.error f, j) ∧
      ((Validate.command w net s none "server.json").run j).1 ≠ .error f) ∧
    Descriptor.load w "other.json" = .error (.descriptorNotFound "other.json") ∧
      (Publish.command w net s none "other.json").run j = (.error (.descriptorNotFound "other.json"), j) ∧
      (Validate.command w net s none "other.json").run j = (.error (.descriptorNotFound "other.json"), j) := by
  intro w net s f j
  have hd : Descriptor.load w "server.json" = .ok .empty := rfl
  have ht : Target.forPublish w s none = .error f := rfl
  have hother : Descriptor.load w "other.json" = .error (.descriptorNotFound "other.json") := rfl
  obtain ⟨-, hnowhere, htoken, -⟩ := commands_local w net s none "server.json" j
  have habsent := ((commands_local w net s none "other.json" j).1 _ hother).2 w net s none rfl
  exact ⟨⟨hd, ht, (hnowhere _ f hd ht).2, fun h => nomatch htoken f h⟩, hother, habsent⟩

end Commands

end RegistryPublisher
