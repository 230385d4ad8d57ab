import Mathlib.Data.List.TakeWhile
import RegistryPublisher.Proofs.Command.Cut
import RegistryPublisher.Proofs.Command.Target
import RegistryPublisher.Proofs.Publish.Protocol

/-!
# Validation is anonymous

- `Login.recorded?_eq_none_iff`: which token files record no registry;
- `Endpoint.publish_suffix_iff`: an address for validating is one for publishing exactly when a query or a fragment of the
  base swallows the path;
- `Validate.command_requests`: the client is called for nothing but a verdict;
- `Validate.command_congr`: a validation depends on the descriptor, on the configured registry and on the recorded one;
- `Validate.command_anonymous`: no validation asks for a request with a token or depends on one. What the user puts into
  the address of the registry is sent nevertheless (`Validate.command_misdirected`).
-/

namespace RegistryPublisher

open Client

/-! ## What a token file contributes -/

/-- A token file records no registry when it is nowhere, cannot be read, holds no login, or holds one without a
registry. -/
theorem Login.recorded?_eq_none_iff {w : World} {s : Settings} : recorded? w s = none ↔
    ∀ path text l, path? w s = some path → w.read path = .ok text → decode text = .ok l → l.registry = "" := by
  constructor
  · intro h path text l hp hr hd
    rcases Decidable.em (l.registry = "") with he | hne
    · exact he
    · have hsome := recorded?_eq_some_iff.2 ⟨l, ⟨path, hp, text, hr, hd⟩, rfl, hne⟩
      exact nomatch h.symm.trans hsome
  · intro h
    cases hr : recorded? w s with
    | none => rfl
    | some url =>
      obtain ⟨l, ⟨path, hp, text, htext, hl⟩, rfl, hne⟩ := recorded?_eq_some_iff.1 hr
      exact absurd (h path text l hp htext hl) hne

/-! ## Addresses -/

namespace Endpoint

/-- Whether a character is before the query and the fragment of an address. -/
def isBeforeQuery (c : Char) : Bool := c ≠ '?' && c ≠ '#'

/-- An address without its query and its fragment. -/
def beforeQuery (url : String) : List Char := url.toList.takeWhile isBeforeQuery

theorem not_publish_suffix (e : Endpoint) : ¬publishPath.toList <:+ (e.urlFor validatePath).toList := by
  rintro ⟨start, h⟩
  obtain ⟨base, hb⟩ := e.urlFor_eq
  rw [hb, String.toList_append] at h
  have hlast := congrArg List.getLast? h
  have hp : publishPath.toList.getLast? = some 'h' := by decide
  have hv : validatePath.toList.getLast? = some 'e' := by decide
  rw [List.getLast?_append, List.getLast?_append, hp, hv, Option.some_or, Option.some_or] at hlast
  exact absurd hlast (by decide)

/-- A path becomes part of the query or of the fragment when the base has one. -/
theorem beforeQuery_urlFor (e : Endpoint) (path : String) (hpath : path.toList.all isBeforeQuery = true) :
    beforeQuery (e.urlFor path) =
      if e.baseUrl.toList.all isBeforeQuery then (e.urlFor path).toList else beforeQuery e.baseUrl := by
  obtain ⟨slash, hslash, hurl⟩ : ∃ slash : List Char, slash.all isBeforeQuery = true ∧
      (e.urlFor path).toList = e.baseUrl.toList ++ (slash ++ path.toList) := by
    unfold urlFor
    split
    · exact ⟨[], rfl, by simp⟩
    · exact ⟨['/'], rfl, by simp⟩
  have hrest : (slash ++ path.toList).all isBeforeQuery = true := by
    rw [List.all_append, hslash, hpath]
    rfl
  rw [beforeQuery, hurl, List.takeWhile_append]
  split
  · next h =>
    have hbase := List.takeWhile_eq_self_iff.1 ((List.takeWhile_prefix _).eq_of_length h)
    rw [if_pos (List.all_eq_true.2 hbase), List.takeWhile_eq_self_iff.2 (List.all_eq_true.1 hrest)]
  · next h =>
    refine (if_neg fun hbase => h ?_).symm
    rw [List.takeWhile_eq_self_iff.2 (List.all_eq_true.1 hbase)]

/-- An address for validating leads to the path for publishing exactly when the base has a query or a fragment and
leads there itself. -/
theorem publish_suffix_iff (e : Endpoint) : publishPath.toList <:+ beforeQuery (e.urlFor validatePath) ↔
    (∃ c ∈ e.baseUrl.toList, c = '?' ∨ c = '#') ∧ publishPath.toList <:+ beforeQuery e.baseUrl := by
  have hends : (∃ c ∈ e.baseUrl.toList, c = '?' ∨ c = '#') ↔ ¬e.baseUrl.toList.all isBeforeQuery = true := by
    simp [isBeforeQuery, Decidable.or_iff_not_imp_left]
  rw [hends, beforeQuery_urlFor e validatePath (by decide)]
  by_cases h : e.baseUrl.toList.all isBeforeQuery = true
  · rw [if_pos h]
    exact ⟨fun hs => absurd hs e.not_publish_suffix, fun hs => absurd h hs.1⟩
  · rw [if_neg h]
    exact ⟨fun hs => ⟨h, hs⟩, fun hs => hs.2⟩

end Endpoint

namespace Validate

open Login (recorded?)
open Target (flagUrl? forValidate)

variable {w w' : World} {net : Network} {s s' : Settings} {flag : Option String} {file : String}

/-! ## Requests -/

theorem script_tried (net : Network) (r : Reporter) (e : Endpoint) (d : Descriptor) :
    (script net r e d).tried = [validateRequest e d] := by
  unfold script
  cases verdict net e d <;> rfl

theorem commandScript_tried {d : Descriptor} (hd : Descriptor.load w file = .ok d) (hc : setUp net = .ok ()) :
    (commandScript w net s flag file).tried = [validateRequest (forValidate w s flag) d] := by
  have hend : ∀ b : Bool, Script.tried (if b then [.write (approval file)] else []) = [] := fun b => by
    cases b <;> rfl
  rw [commandScript, hd, hc]
  dsimp only
  rw [Script.tried_append, script_tried, hend, List.append_nil]

/-- A validation of a file calls the client for a verdict on its descriptor, and for nothing else. -/
theorem command_requests {room : Option Nat} {q : Request}
    (hq : q ∈ ((command w net s flag file).run (Journal.start room)).2.tried) :
    ∃ d, Descriptor.load w file = .ok d ∧ q = validateRequest (forValidate w s flag) d := by
  obtain ⟨_, hplays⟩ := command_plays w net s flag file
  have hmem := hplays.mem_tried hq
  cases hd : Descriptor.load w file with
  | error f => rw [commandScript, hd] at hmem; cases hmem
  | ok d =>
    cases hc : setUp net with
    | error c => rw [commandScript, hd, hc] at hmem; cases hmem
    | ok u =>
      rw [commandScript_tried hd hc, List.mem_singleton] at hmem
      exact ⟨d, rfl, hmem⟩

/-- On a sink without a limit it always does. -/
theorem command_tried {d : Descriptor} (hd : Descriptor.load w file = .ok d) (hc : setUp net = .ok ()) :
    ((command w net s flag file).run (Journal.start none)).2.tried = [validateRequest (forValidate w s flag) d] := by
  obtain ⟨_, hplays⟩ := command_plays w net s flag file
  rw [hplays.run_unlimited, ← commandScript_tried hd hc]
  rfl

/-- What reaches the network in a validation of a file is what the library makes of the request for a verdict. -/
theorem command_relays (w : World) (net : Network) (s : Settings) (flag : Option String) (file : String) :
    Relays net (command w net s flag file) := by
  refine ((Silent.require _).relays net).bind fun d => ((Silent.require _).relays net).bind fun _ => ?_
  refine (run_relays net _ _ d).bind fun v => ?_
  exact ((Silent.write _).bind fun _ => Silent.pure v).relays net

/-! ## Dependence -/

theorem load_congr (h : w'.read file = w.read file) : Descriptor.load w' file = Descriptor.load w file := by
  simp only [Descriptor.load, h]

theorem forValidate_congr (hs : s'.registryUrl = s.registryUrl)
    (h : recorded? w' s' = recorded? w s ∨ flagUrl? flag ≠ none ∨ s.registry? ≠ none) :
    forValidate w' s' flag = forValidate w s flag :=
  congrArg (Endpoint.mk · none) (Target.registryUrl_congr hs h)

/-- A validation looks at nothing but the descriptor, the configured registry and, if neither the flag nor the
settings name one, the recorded registry. -/
theorem command_congr (hf : w'.read file = w.read file) (hs : s'.registryUrl = s.registryUrl)
    (h : recorded? w' s' = recorded? w s ∨ flagUrl? flag ≠ none ∨ s.registry? ≠ none) :
    command w' net s' flag file = command w net s flag file := by
  unfold command
  rw [load_congr hf, forValidate_congr hs h]

/-! ## Anonymity -/

/-- **Validation is anonymous.** On any network and any sink, a validation of a file calls the client only for a verdict,
without a bearer, and for no address for publishing unless a query or a fragment of the registry's address swallows the
path for validating and what is left is one; the network gets what the library makes of this, and nothing else if it
sends requests as they are. Whatever token is configured and whatever became of the token file, the validation does the
same as long as the descriptor and the configured registry are the same, and the token file records the same registry or
does not count, because the flag or the settings name one; a file that is nowhere or cannot be read, or that holds no
login or a login without a registry, records none. -/
theorem command_anonymous (w : World) (net : Network) (s : Settings) (flag : Option String) (file : String) :
    (∀ room, let j := ((command w net s flag file).run (Journal.start room)).2
      (∀ q ∈ j.tried, q.authorization = none ∧
        (∃ d, Descriptor.load w file = .ok d ∧ q.IsValidation (forValidate w s flag) d) ∧
        ("v0/publish".toList <:+ Endpoint.beforeQuery q.url ↔
          (∃ c ∈ (forValidate w s flag).baseUrl.toList, c = '?' ∨ c = '#') ∧
            "v0/publish".toList <:+ Endpoint.beforeQuery (forValidate w s flag).baseUrl)) ∧
      j.requests = j.tried.flatMap net.sent ∧
      ((∀ q ∈ j.tried, net.IsDirect q) → ∀ q ∈ j.requests, q ∈ j.tried)) ∧
    (∀ (w' : World) (s' : Settings), w'.read file = w.read file → s'.registryUrl = s.registryUrl →
      recorded? w' s' = recorded? w s ∨ flagUrl? flag ≠ none ∨ s.registry? ≠ none →
      ∀ j, (command w' net s' flag file).run j = (command w net s flag file).run j) ∧
    (recorded? w s = none ↔ ∀ path text l, Login.path? w s = some path → w.read path = .ok text →
      Login.decode text = .ok l → l.registry = "") := by
  refine ⟨fun room => ?_, fun w' s' hf hs h j => ?_, Login.recorded?_eq_none_iff⟩
  · have hrelayed := command_relays w net s flag file _ (Journal.start_relayed net room)
    refine ⟨fun q hq => ?_, hrelayed, fun hdirect q hq => hrelayed.mem_tried hdirect hq⟩
    obtain ⟨d, hd, rfl⟩ := command_requests hq
    exact ⟨rfl, ⟨d, hd, validateRequest_spec _ _⟩, Endpoint.publish_suffix_iff _⟩
  · rw [command_congr hf hs h]

/-- A world with an empty descriptor and a token file. -/
def judgedWorld (login : Bytes) : World where
  read path :=
    if path = "server.json" then .ok [0x7b, 0x7d]
    else if path = "tok" then .ok login
    else .error .notFound
  environment := []
  directory := "/"
  accountHome := some "/"

theorem recorded?_judgedWorld (token : String) :
    recorded? (judgedWorld Target.loginText) ⟨"", token, "tok"⟩ = some "http://r" := by
  have hread : (judgedWorld Target.loginText).read "tok" = .ok Target.loginText := by simp [judgedWorld]
  exact Login.recorded?_eq_some_iff.2 ⟨_, ⟨"tok", rfl, _, hread, Target.decode_loginText⟩, rfl, by decide⟩

/-- A configured token and none lead to the same validation at the recorded registry; with a flag, a token file that is
no login leads there as well. -/
theorem command_anonymous_configured :
    let w := judgedWorld Target.loginText
    let net : Network := .direct fun _ => .failed []
    let j := Journal.start none
    recorded? w ⟨"", "t", "tok"⟩ = some "http://r" ∧ recorded? w ⟨"", "", "tok"⟩ = some "http://r" ∧
    (command w net ⟨"", "t", "tok"⟩ none "server.json").run j = (command w net ⟨"", "", "tok"⟩ none "server.json").run j ∧
    (command (judgedWorld [0x78]) net ⟨"", "", "tok"⟩ (some "http://r") "server.json").run j =
      (command w net ⟨"", "", "tok"⟩ (some "http://r") "server.json").run j := by
  intro w net j
  have hread : (judgedWorld [0x78]).read "server.json" = w.read "server.json" := by simp [w, judgedWorld]
  have hflag : flagUrl? (some "http://r") ≠ none := by decide
  have hsame := (recorded?_judgedWorld "t").trans (recorded?_judgedWorld "").symm
  exact ⟨recorded?_judgedWorld "t", recorded?_judgedWorld "",
    (command_anonymous w net ⟨"", "", "tok"⟩ none "server.json").2.1 w ⟨"", "t", "tok"⟩ rfl rfl (Or.inl hsame) j,
    (command_anonymous w net ⟨"", "", "tok"⟩ (some "http://r") "server.json").2.1 (judgedWorld [0x78]) ⟨"", "", "tok"⟩
      hread rfl (Or.inr (Or.inl hflag)) j⟩

/-- The library with a base address that names a user: the user and the password become a header. -/
def userNetwork : Network where
  fault := none
  exchange q := ⟨[{ q with url := "http://h/v0/validate", authorization := some "Basic dXNlcjpwYXNz" }], .failed []⟩

/-- A validation does reach the address for publishing when the path for validating becomes part of a query, and it does
carry a user and a password that are part of the address. -/
theorem command_misdirected :
    let sent (net : Network) (flag : String) :=
      ((command (judgedWorld []) net .empty (some flag) "server.json").run (Journal.start none)).2.requests
    (∃ q ∈ sent (.direct fun _ => .failed []) "http://h/v0/publish?x=",
      "v0/publish".toList <:+ Endpoint.beforeQuery q.url) ∧
    ∃ q ∈ sent userNetwork "http://user:pass@h", q.authorization = some "Basic dXNlcjpwYXNz" := by
  intro sent
  have hload : Descriptor.load (judgedWorld []) "server.json" = .ok .empty := by rfl
  have hsent : ∀ (net : Network) (flag : String), setUp net = .ok () →
      sent net flag = net.sent (validateRequest (forValidate (judgedWorld []) .empty (some flag)) .empty) := by
    intro net flag hc
    have hrelayed := command_relays (judgedWorld []) net .empty (some flag) "server.json" _ (Journal.start_relayed net none)
    rw [Journal.Relayed, command_tried hload hc, List.flatMap_singleton] at hrelayed
    exact hrelayed
  rw [hsent _ _ rfl, hsent _ _ rfl]
  refine ⟨⟨_, List.mem_singleton_self _, ?_⟩, _, List.mem_singleton_self _, rfl⟩
  refine (Endpoint.publish_suffix_iff _).2 ⟨⟨'?', by decide, Or.inl rfl⟩, "http://h/".toList, by decide⟩

end Validate

end RegistryPublisher
