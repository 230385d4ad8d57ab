import RegistryPublisher.Proofs.Command.Anonymous

/-!
# The token is only a bearer

Two runs of a publication with different tokens are compared step by step.

- `Network.IgnoresBearer`: the network does the same whatever the token of a bearer is;
- `Mirrors t x y`: `y` does what `x` does, with the token `t` in place of any other; mirrors of parts are put together
  (`Mirrors.bind`), and publications with two tokens mirror each other (`Publish.run_mirrors`);
- `Publish.SameButBearer`: two runs that differ in nothing but the bearer of the first request;
- `Publish.token_isBearer`: so do any two publications whose tokens differ.
-/

namespace RegistryPublisher

open Client

/-- A character that a header may hold: no control but the tab. -/
def isHeaderChar (c : Char) : Bool := (0x20 ≤ c.toNat && c.toNat != 0x7f) || c.toNat == 0x09

/-- A token that may stand in a header. -/
def IsHeaderText (token : String) : Prop := token.toList.all isHeaderChar = true

instance (token : String) : Decidable (IsHeaderText token) :=
  inferInstanceAs (Decidable (token.toList.all isHeaderChar = true))

/-- The same request without a header for the user. -/
def Request.anonymous (q : Request) : Request := { q with authorization := none }

/-- The same request with a bearer. -/
def Request.withBearer (q : Request) (token : String) : Request := { q with authorization := some ("Bearer " ++ token) }

/-- The registries do not look at the token of a bearer, and the library sends it whenever it may stand in a header: the
replies are the same, and the requests but for their bearers. -/
def Network.IgnoresBearer (net : Network) : Prop :=
  ∀ (q : Request) (t t' : String), IsHeaderText t → IsHeaderText t' →
    net.reply (q.withBearer t') = net.reply (q.withBearer t) ∧
      (net.sent (q.withBearer t')).map Request.anonymous = (net.sent (q.withBearer t)).map Request.anonymous

/-! ## Another token -/

/-- The same request with another token, if it has one. -/
def Request.withToken (token : String) (q : Request) : Request :=
  { q with authorization := q.authorization.map fun _ => "Bearer " ++ token }

/-- The second journal has what the first one has, with another token in all requests that were tried. What reached the
network is left open. -/
structure Journal.Mirrored (token : String) (j k : Journal) : Prop where
  written : k.written = j.written
  room : k.room = j.room
  tried : k.tried = j.tried.map (Request.withToken token)

namespace Journal.Mirrored

variable {t : String} {j k : Journal}

theorem record (h : Mirrored t j k) (q : Request) (sent sent' : List Request) :
    Mirrored t (j.record q sent) (k.record (q.withToken t) sent') := by
  refine ⟨h.written, h.room, ?_⟩
  rw [record_tried, record_tried, h.tried, List.map_append]
  rfl

theorem write (h : Mirrored t j k) (bs : Bytes) :
    (k.write bs).1 = (j.write bs).1 ∧ Mirrored t (j.write bs).2 (k.write bs).2 := by
  unfold Journal.write
  rw [h.room]
  split
  · exact ⟨rfl, by rw [h.written], rfl, h.tried⟩
  · exact ⟨rfl, by rw [h.written], rfl, h.tried⟩

end Journal.Mirrored

/-! ## Mirrors -/

/-- The second action does what the first one does, with the token in place of any other. -/
def Mirrors {ε α : Type} (t : String) (x y : Action ε α) : Prop :=
  ∀ j k : Journal, j.Mirrored t k → (y.run k).1 = (x.run j).1 ∧ (x.run j).2.Mirrored t (y.run k).2

namespace Mirrors

variable {ε ε' α β : Type} {t : String}

theorem pure (a : α) : Mirrors t (Pure.pure a : Action ε α) (Pure.pure a) := fun _ _ h => ⟨rfl, h⟩

theorem throw (e : ε) : Mirrors t (MonadExcept.throw e : Action ε α) (MonadExcept.throw e) := fun _ _ h => ⟨rfl, h⟩

theorem write (s : String) : Mirrors t (RegistryPublisher.write s) (RegistryPublisher.write s) := by
  intro j k h
  obtain ⟨hfits, hwritten⟩ := h.write (Utf8.encode s)
  rw [write_run, write_run, hfits]
  exact ⟨rfl, hwritten⟩

theorem bind {x y : Action ε α} {f g : α → Action ε β} (h : Mirrors t x y) (hf : ∀ a, Mirrors t (f a) (g a)) :
    Mirrors t (x >>= f) (y >>= g) := by
  intro j k hjk
  have hxy := h j k hjk
  rcases hx : x.run j with ⟨e | a, j'⟩ <;> rcases hy : y.run k with ⟨e' | a', k'⟩ <;> rw [hx, hy] at hxy
  · rw [run_bind_error f hx, run_bind_error g hy, Except.error.inj hxy.1]
    exact ⟨rfl, hxy.2⟩
  · cases hxy.1
  · cases hxy.1
  · rw [run_bind_ok f hx, run_bind_ok g hy, Except.ok.inj hxy.1]
    exact hf a j' k' hxy.2

theorem attempt {x y : Action ε α} (h : Mirrors t x y) :
    Mirrors t (RegistryPublisher.attempt x : Action ε' _) (RegistryPublisher.attempt y) := by
  intro j k hjk
  obtain ⟨hresult, hmirrored⟩ := h j k hjk
  rw [run_attempt, run_attempt, hresult]
  exact ⟨rfl, hmirrored⟩

/-- A report is the same with every token. -/
theorem judge (r : Reporter) (d : Descriptor) (v : Verdict) :
    Mirrors t (Validate.judge r d v) (Validate.judge r d v) := by
  refine (write _).bind fun _ => ?_
  cases (r.report v d).error with
  | some message => exact throw _
  | none => exact pure _

end Mirrors

/-! ## Publications with two tokens -/

section Tokens

variable {net : Network} (hnet : net.IgnoresBearer) {base t t' : String} (ht : IsHeaderText t) (ht' : IsHeaderText t')

include hnet ht ht' in
theorem Client.publish_mirrors (d : Descriptor) :
    Mirrors t' (publish net ⟨base, some t⟩ d) (publish net ⟨base, some t'⟩ d) := by
  intro j k h
  have hreply := (hnet (publishRequest ⟨base, none⟩ d) t t' ht ht').1
  rw [publish_run, publish_run]
  exact ⟨congrArg (interpret publishAccepts Receipt.decode) hreply, h.record _ _ _⟩

theorem Client.validate_mirrors (net : Network) (base t t' : String) (d : Descriptor) :
    Mirrors t' (validate net ⟨base, some t⟩ d) (validate net ⟨base, some t'⟩ d) := by
  intro j k h
  rw [validate_run, validate_run]
  exact ⟨rfl, h.record (validateRequest ⟨base, some t⟩ d) _ _⟩

namespace Publish

theorem diagnose_mirrors (net : Network) (r : Reporter) (base t t' : String) (d : Descriptor)
    (refusal : ClientFailure) :
    Mirrors t' (diagnose net r ⟨base, some t⟩ d refusal) (diagnose net r ⟨base, some t'⟩ d refusal) := by
  refine (validate_mirrors net base t t' d).attempt.bind fun a => ?_
  cases a with
  | error cause => exact .throw _
  | ok v => exact (Mirrors.judge r d v).bind fun _ => .throw _

include hnet ht ht' in
/-- Publications with two tokens mirror each other. -/
theorem run_mirrors (r : Reporter) (base : String) (d : Descriptor) :
    Mirrors t' (run net r ⟨base, some t⟩ d) (run net r ⟨base, some t'⟩ d) := by
  refine (Mirrors.write _).bind fun _ => (publish_mirrors hnet ht ht' d).attempt.bind fun a => ?_
  cases a with
  | ok receipt => exact (Mirrors.write _).bind fun _ => (Mirrors.write _).bind fun _ => .pure _
  | error cause =>
    dsimp only
    split
    · exact (Mirrors.write _).bind fun _ => (Mirrors.write _).bind fun _ => diagnose_mirrors net r base t t' d cause
    · exact .throw _

/-! ## What differs -/

/-- Two runs that end in the same result or failure and write the same. Both try the first requests, as far as they get,
of a publication and a validation after it: the publications differ in their bearers, the validations are the same. So
do the requests that reach the network. -/
structure SameButBearer (net : Network) (e e' : Endpoint) (d : Descriptor) (x x' : Except Failure Receipt × Journal) :
    Prop where
  result : x'.1 = x.1
  written : x'.2.written = x.2.written
  requests : ∃ (p p' v : Request) (m : Nat), p.IsPublication e d ∧ p'.IsPublication e' d ∧
    p' = { p with authorization := p'.authorization } ∧ v.IsValidation e d ∧ v.IsValidation e' d ∧
    x.2.tried = [p, v].take m ∧ x'.2.tried = [p', v].take m ∧
    x.2.requests = x.2.tried.flatMap net.sent ∧ x'.2.requests = x'.2.tried.flatMap net.sent ∧
    (net.sent p').map Request.anonymous = (net.sent p).map Request.anonymous ∧
    (net.IsDirect p → net.IsDirect p' → net.IsDirect v →
      ∃ n, x.2.requests = [p, v].take n ∧ x'.2.requests = [p', v].take n)

include hnet ht ht' in
/-- What mirrored journals have in common, when a publication left the first of them. -/
theorem sameButBearer_of_mirrored {d : Descriptor} {x x' : Except Failure Receipt × Journal} (hresult : x'.1 = x.1)
    (hmirrored : x.2.Mirrored t' x'.2) (hsent : x.2.Relayed net) (hsent' : x'.2.Relayed net)
    (htries : Tries net ⟨base, some t⟩ d x.2.tried) :
    SameButBearer net ⟨base, some t⟩ ⟨base, some t'⟩ d x x' := by
  let p := publishRequest ⟨base, some t⟩ d
  let p' := publishRequest ⟨base, some t'⟩ d
  let v := validateRequest ⟨base, some t⟩ d
  obtain ⟨hreply, hbearer⟩ := hnet (publishRequest ⟨base, none⟩ d) t t' ht ht'
  have htries' : Tries net ⟨base, some t'⟩ d x'.2.tried := by
    rw [hmirrored.tried]
    generalize x.2.tried = tried at htries
    cases htries with
    | nothing => exact .nothing
    | publication => exact .publication
    | both hb => exact .both (hb.imp fun body hb => hreply.trans hb)
  have hlength : x'.2.requests.length = x.2.requests.length := by
    have hone : (net.sent p').length = (net.sent p).length := by
      have h := congrArg List.length hbearer
      rw [List.length_map, List.length_map] at h
      exact h
    rw [hsent, hsent', hmirrored.tried]
    generalize x.2.tried = tried at htries
    cases htries with
    | nothing => rfl
    | publication =>
      change (net.sent p' ++ []).length = (net.sent p ++ []).length
      simp only [List.length_append, hone]
    | both =>
      change (net.sent p' ++ (net.sent v ++ [])).length = (net.sent p ++ (net.sent v ++ [])).length
      simp only [List.length_append, hone]
  refine ⟨hresult, hmirrored.written, p, p', v, x.2.tried.length, publishRequest_spec _ _, publishRequest_spec _ _, rfl,
    validateRequest_spec _ _, validateRequest_spec ⟨base, some t'⟩ d, List.prefix_iff_eq_take.1 htries.begins, ?_,
    hsent, hsent', hbearer, fun hp hp' hv => ⟨x.2.requests.length, ?_, ?_⟩⟩
  · have hlen : x'.2.tried.length = x.2.tried.length := by rw [hmirrored.tried, List.length_map]
    rw [← hlen]
    exact List.prefix_iff_eq_take.1 htries'.begins
  · rw [hsent]
    exact List.prefix_iff_eq_take.1 (htries.sent_begins hp hv)
  · rw [← hlength, hsent']
    exact List.prefix_iff_eq_take.1 (htries'.sent_begins hp' hv)

include hnet ht ht' in
theorem run_sameButBearer (r : Reporter) (d : Descriptor) (room : Option Nat) :
    SameButBearer net ⟨base, some t⟩ ⟨base, some t'⟩ d ((run net r ⟨base, some t⟩ d).run (Journal.start room))
      ((run net r ⟨base, some t'⟩ d).run (Journal.start room)) := by
  obtain ⟨hresult, hmirrored⟩ := run_mirrors hnet ht ht' r base d (Journal.start room) (Journal.start room)
    ⟨rfl, rfl, rfl⟩
  exact sameButBearer_of_mirrored hnet ht ht' hresult hmirrored
    (run_relays net r _ d _ (Journal.start_relayed net room)) (run_relays net r _ d _ (Journal.start_relayed net room))
    (run_tries net r _ d room)

/-! ## Tokens of commands -/

open Login (Stored)

/-- Two worlds with their settings that have the given tokens, both configured, or both in token files that record the
same registry. -/
inductive TokenPair (w w' : World) (s s' : Settings) : String → String → Prop
  | configured (h : s.token ≠ "") (h' : s'.token ≠ "") : TokenPair w w' s s' s.token s'.token
  | stored {l l' : Login} (h : s.token = "") (h' : s'.token = "") (hl : Stored w s l) (hl' : Stored w' s' l')
      (hne : l.token ≠ "") (hne' : l'.token ≠ "") (hr : l'.registry = l.registry) : TokenPair w w' s s' l.token l'.token

/-- With such tokens both publications go to the same registry. -/
theorem TokenPair.forPublish {w w' : World} {s s' : Settings} (h : TokenPair w w' s s' t t')
    (hs : s'.registryUrl = s.registryUrl) (flag : Option String) :
    ∃ base, Target.forPublish w s flag = .ok ⟨base, some t⟩ ∧ Target.forPublish w' s' flag = .ok ⟨base, some t'⟩ := by
  cases h with
  | configured h h' =>
    refine ⟨_, Target.forPublish_eq_ok_iff.2 ⟨_, .configured h, rfl⟩,
      Target.forPublish_eq_ok_iff.2 ⟨_, .configured h', ?_⟩⟩
    rw [Target.publishUrl, Target.publishUrl, if_neg h, if_neg h', Target.registryUrl_congr hs (Or.inl rfl)]
  | @stored l l' h h' hl hl' hne hne' hr =>
    refine ⟨_, Target.forPublish_eq_ok_iff.2 ⟨_, .stored h hl hne, rfl⟩,
      Target.forPublish_eq_ok_iff.2 ⟨_, .stored h' hl' hne', ?_⟩⟩
    have hrecorded : (Login.stored? w' s').bind Login.registryUrl? = (Login.stored? w s).bind Login.registryUrl? := by
      rw [Login.stored?_eq_some_iff.2 hl, Login.stored?_eq_some_iff.2 hl', Option.bind_some, Option.bind_some,
        Login.registryUrl?, Login.registryUrl?, hr]
    rw [Target.publishUrl, Target.publishUrl, if_pos h, if_pos h', Target.registryUrl_congr hs (Or.inl hrecorded)]

/-- With a descriptor and somewhere to go the command publishes, if there is a client. -/
theorem command_run {w : World} {s : Settings} {flag : Option String} {file : String} {d : Descriptor} {e : Endpoint}
    (hd : Descriptor.load w file = .ok d) (he : Target.forPublish w s flag = .ok e) (j : Journal) :
    (command w net s flag file).run j =
      match setUp net with
      | .ok _ => (run net .standard e d).run j
      | .error c => (.error (.client c), j) := by
  unfold command
  rw [run_require_ok _ _ hd, run_require_ok _ _ he]
  cases hc : setUp net with
  | ok u => exact run_bind_ok _ rfl
  | error c => exact run_bind_error _ rfl

/-- **The token is only a bearer.** Take two tokens that may stand in a header, and a registry that does not look at
the bearer. On any sink, publications with either token write the same, end in the same receipt or the same failure,
with all that it says, and make the same requests but for the bearer of the publication. The same holds of the commands
for a file, in two worlds with the same descriptor and the same configured registry, when the tokens are configured or
stored with the same registry. -/
theorem token_isBearer (hnet : net.IgnoresBearer) (ht : IsHeaderText t) (ht' : IsHeaderText t') :
    (∀ (r : Reporter) (base : String) (d : Descriptor) (room : Option Nat),
      SameButBearer net ⟨base, some t⟩ ⟨base, some t'⟩ d ((run net r ⟨base, some t⟩ d).run (Journal.start room))
        ((run net r ⟨base, some t'⟩ d).run (Journal.start room))) ∧
    ∀ (w w' : World) (s s' : Settings) (flag : Option String) (file : String) (room : Option Nat),
      TokenPair w w' s s' t t' → w'.read file = w.read file → s'.registryUrl = s.registryUrl →
      let x := (command w net s flag file).run (Journal.start room)
      let x' := (command w' net s' flag file).run (Journal.start room)
      (∀ f, Descriptor.load w file = .error f → x = (.error f, Journal.start room) ∧ x' = x) ∧
      ∀ d, Descriptor.load w file = .ok d →
        ∃ base, Target.forPublish w s flag = .ok ⟨base, some t⟩ ∧ Target.forPublish w' s' flag = .ok ⟨base, some t'⟩ ∧
          SameButBearer net ⟨base, some t⟩ ⟨base, some t'⟩ d x x' := by
  refine ⟨fun r base d room => run_sameButBearer hnet ht ht' r d room, ?_⟩
  intro w w' s s' flag file room hpair hread hurl x x'
  have hload := Validate.load_congr hread
  refine ⟨fun f hf => ?_, fun d hd => ?_⟩
  · have hx : x = (.error f, Journal.start room) := run_require_error _ _ hf
    have hx' : x' = (.error f, Journal.start room) := run_require_error _ _ (hload.trans hf)
    exact ⟨hx, hx'.trans hx.symm⟩
  · obtain ⟨base, he, he'⟩ := hpair.forPublish hurl flag
    refine ⟨base, he, he', ?_⟩
    rw [show x = _ from command_run hd he _, show x' = _ from command_run (hload.trans hd) he' _]
    cases setUp net with
    | ok u => exact run_sameButBearer hnet ht ht' .standard d room
    | error c => exact sameButBearer_of_mirrored hnet ht ht' rfl ⟨rfl, rfl, rfl⟩ rfl rfl .nothing

/-- A registry that refuses every publication and then gives no verdict. -/
def refusing : Network := .direct fun q => if q.url = "http://r/v0/publish" then .complete 422 [] else .failed []

theorem refusing_ignoresBearer : refusing.IgnoresBearer := fun _ _ _ _ _ => ⟨rfl, rfl⟩

/-- Two refused publications make two requests each, and so do the commands with two configured tokens. -/
theorem token_isBearer_refused :
    let x := (run refusing .standard ⟨"http://r", some "x"⟩ .empty).run (Journal.start none)
    let y := (run refusing .standard ⟨"http://r", some "y"⟩ .empty).run (Journal.start none)
    let w := Validate.judgedWorld []
    IsHeaderText "x" ∧ IsHeaderText "y" ∧ x.2.requests.length = 2 ∧
      SameButBearer refusing ⟨"http://r", some "x"⟩ ⟨"http://r", some "y"⟩ .empty x y ∧
      ∃ base, SameButBearer refusing ⟨base, some "x"⟩ ⟨base, some "y"⟩ .empty
        ((command w refusing ⟨"http://r", "x", ""⟩ none "server.json").run (Journal.start none))
        ((command w refusing ⟨"http://r", "y", ""⟩ none "server.json").run (Journal.start none)) := by
  intro x y w
  have hx : IsHeaderText "x" := by decide
  have hy : IsHeaderText "y" := by decide
  have hread : w.read "server.json" = .ok [0x7b, 0x7d] := by simp [w, Validate.judgedWorld]
  have hload : Descriptor.load w "server.json" = .ok .empty := Descriptor.load_eq_ok_iff.2 ⟨_, hread, rfl⟩
  have hpair : TokenPair w w ⟨"http://r", "x", ""⟩ ⟨"http://r", "y", ""⟩ "x" "y" := .configured (by decide) (by decide)
  obtain ⟨hrun, hcommand⟩ := token_isBearer refusing_ignoresBearer hx hy
  obtain ⟨base, -, -, hsame⟩ := (hcommand w w _ _ none "server.json" none hpair rfl rfl).2 .empty hload
  exact ⟨hx, hy, by rfl, hrun .standard "http://r" .empty none, base, hsame⟩

end Publish

end Tokens

end RegistryPublisher
