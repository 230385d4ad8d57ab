import RegistryPublisher.Command.Publish

/-!
# Running actions

How the steps of a command act on the journal, so that later proofs never open an action.

- a bound action runs its second part in the journal of the first (`run_bind_ok`, `run_bind_error`), the same journal
  after a requirement (`run_require_ok`, `run_require_error`, `run_require_eq_ok_iff`);
- a client call gives what the reply to its request says and notes that request (`publish_run`, `validate_run`);
- a write on a sink without a limit succeeds (`write_unlimited`), and a write never sends (`Silent.write`);
- `Silent` actions send nothing, and they are closed under sequencing;
- `Relays`: what an action sends is what the network makes of the requests that it tries.
-/

namespace RegistryPublisher

/-! ## Sequencing -/

section Sequencing

variable {ε ε' α β : Type} {x : Action ε α} {j j' : Journal}

@[simp] theorem run_pure (a : α) (j : Journal) : (pure a : Action ε α).run j = (.ok a, j) := rfl

@[simp] theorem run_throw (e : ε) (j : Journal) : (throw e : Action ε α).run j = (.error e, j) := rfl

theorem run_bind_ok {a : α} (f : α → Action ε β) (h : x.run j = (.ok a, j')) : (x >>= f).run j = (f a).run j' := by
  show (x >>= f) j = f a j'
  have hx : x j = (.ok a, j') := h
  simp [bind, ExceptT.bind, ExceptT.mk, ExceptT.bindCont, StateT.bind, hx]

theorem run_bind_error {e : ε} (f : α → Action ε β) (h : x.run j = (.error e, j')) :
    (x >>= f).run j = (.error e, j') := by
  show (x >>= f) j = _
  have hx : x j = (.error e, j') := h
  simp [bind, ExceptT.bind, ExceptT.mk, ExceptT.bindCont, StateT.bind, hx]
  rfl

theorem run_require_ok {a : α} {y : Except ε α} (f : α → Action ε β) (j : Journal) (h : y = .ok a) :
    (require y >>= f).run j = (f a).run j := run_bind_ok f (by rw [h]; rfl)

theorem run_require_error {e : ε} {y : Except ε α} (f : α → Action ε β) (j : Journal) (h : y = .error e) :
    (require y >>= f).run j = (.error e, j) := run_bind_error f (by rw [h]; rfl)

/-- What comes after a requirement succeeds when the requirement is met. -/
theorem run_require_eq_ok_iff {y : Except ε α} {f : α → Action ε β} {b : β} :
    ((require y >>= f).run j).1 = .ok b ↔ ∃ a, y = .ok a ∧ ((f a).run j).1 = .ok b := by
  cases y with
  | error e =>
    rw [run_require_error f j rfl]
    simp
  | ok a =>
    rw [run_require_ok f j rfl]
    simp

/-- An attempt never fails; it gives the outcome. -/
@[simp] theorem run_attempt (x : Action ε α) (j : Journal) :
    (attempt x : Action ε' _).run j = (.ok (x.run j).1, (x.run j).2) := rfl

end Sequencing

/-! ## Client calls -/

namespace Journal

variable (j : Journal) (q : Request) (sent : List Request)

@[simp] theorem record_written : (j.record q sent).written = j.written := rfl

@[simp] theorem record_room : (j.record q sent).room = j.room := rfl

@[simp] theorem record_tried : (j.record q sent).tried = j.tried ++ [q] := rfl

@[simp] theorem record_requests : (j.record q sent).requests = j.requests ++ sent := rfl

end Journal

namespace Client

variable (net : Network) (e : Endpoint) (d : Descriptor) (j : Journal)

/-- The journal after a request to a network. -/
def noted (q : Request) : Journal := j.record q (net.sent q)

/-- The receipt that the network gives for a descriptor. -/
def receipt : Except ClientFailure Receipt :=
  interpret publishAccepts Receipt.decode (net.reply (publishRequest e d))

/-- The verdict that the network gives on a descriptor. -/
def verdict : Except ClientFailure Verdict :=
  interpret validateAccepts Verdict.decode (net.reply (validateRequest e d))

theorem publish_run : (publish net e d).run j = (receipt net e d, noted net j (publishRequest e d)) := rfl

theorem validate_run : (validate net e d).run j = (verdict net e d, noted net j (validateRequest e d)) := rfl

@[simp] theorem noted_room (q : Request) : (noted net j q).room = j.room := rfl

@[simp] theorem noted_written (q : Request) : (noted net j q).written = j.written := rfl

@[simp] theorem noted_tried (q : Request) : (noted net j q).tried = j.tried ++ [q] := rfl

@[simp] theorem noted_requests (q : Request) : (noted net j q).requests = j.requests ++ net.sent q := rfl

end Client

/-! ## What an answer says -/

namespace Client

variable {α : Type} (accepted : List Nat) (decode : Bytes → Except Json.Error α)

variable {accepted} {status : Nat}

/-- An accepted answer gives what its body decodes to. -/
theorem interpret_accepted (h : status ∈ accepted) (body : Bytes) :
    interpret accepted decode (.complete status body) = (decode body).mapError .undecodable := by
  have h' : accepted.contains status = true := by simpa using h
  unfold interpret accept
  simp only [h', if_true]
  rfl

/-- An answer with any other status is a rejection with its whole body. -/
theorem interpret_rejected (h : status ∉ accepted) (body : Bytes) :
    interpret accepted decode (.complete status body) = .error (.rejected status (Utf8.lossy body)) := by
  have h' : accepted.contains status = false := by simpa using h
  unfold interpret accept
  simp only [h', Bool.false_eq_true, if_false]
  rfl

variable {decode}

/-- There is a result exactly when a complete, accepted answer decodes to it. -/
theorem interpret_eq_ok_iff {a : Reply} {v : α} : interpret accepted decode a = .ok v ↔
    ∃ status body, a = .complete status body ∧ status ∈ accepted ∧ decode body = .ok v := by
  constructor
  · intro h
    cases a with
    | failed causes => cases h
    | truncated status causes => cases h
    | complete status body =>
      by_cases hm : status ∈ accepted
      · rw [interpret_accepted decode hm] at h
        cases hd : decode body with
        | ok v' => rw [hd] at h; cases h; exact ⟨status, body, rfl, hm, hd⟩
        | error f => rw [hd] at h; cases h
      · rw [interpret_rejected decode hm] at h
        cases h
  · rintro ⟨status, body, rfl, hm, hd⟩
    rw [interpret_accepted decode hm, hd]
    rfl

/-- A failure carries a status exactly when a complete answer of that status was not accepted. -/
theorem interpret_status {a : Reply} {cause : ClientFailure} (h : interpret accepted decode a = .error cause)
    (hs : cause.status? = some status) :
    ∃ body, a = .complete status body ∧ cause = .rejected status (Utf8.lossy body) := by
  cases a with
  | failed causes => cases h; cases hs
  | truncated status' causes => cases h; cases hs
  | complete status' body =>
    by_cases hm : status' ∈ accepted
    · rw [interpret_accepted decode hm] at h
      cases hd : decode body with
      | ok v => rw [hd] at h; cases h
      | error f => rw [hd] at h; cases h; cases hs
    · rw [interpret_rejected decode hm] at h
      cases h
      cases hs
      exact ⟨body, rfl, rfl⟩

end Client

/-! ## Writing -/

namespace Journal

/-- The journal after bytes on a sink without a limit. -/
def append (j : Journal) (bs : Bytes) : Journal := { j with written := j.written ++ bs }

@[simp] theorem append_nil (j : Journal) : j.append [] = j := by simp [append]

@[simp] theorem append_written (j : Journal) (bs : Bytes) : (j.append bs).written = j.written ++ bs := rfl

@[simp] theorem append_room (j : Journal) (bs : Bytes) : (j.append bs).room = j.room := rfl

@[simp] theorem append_tried (j : Journal) (bs : Bytes) : (j.append bs).tried = j.tried := rfl

@[simp] theorem append_requests (j : Journal) (bs : Bytes) : (j.append bs).requests = j.requests := rfl

end Journal

theorem write_run (s : String) (j : Journal) : (write s).run j =
    (if (j.write (Utf8.encode s)).1 then .ok () else .error .output, (j.write (Utf8.encode s)).2) := rfl

/-- On a sink without a limit a write succeeds. -/
theorem write_unlimited {j : Journal} (h : j.room = none) (s : String) :
    (write s).run j = (.ok (), j.append (Utf8.encode s)) := by
  have hw : j.write (Utf8.encode s) = (true, j.append (Utf8.encode s)) := by simp [Journal.write, Journal.append, h]
  rw [write_run, hw]
  rfl

theorem run_write_bind {α : Type} {j : Journal} (h : j.room = none) (s : String) (f : Unit → Action Failure α) :
    (write s >>= f).run j = (f ()).run (j.append (Utf8.encode s)) := run_bind_ok f (write_unlimited h s)

/-! ## Actions that send nothing -/

/-- What a journal says about the network. -/
def Journal.traffic (j : Journal) : List Request × List Request := (j.tried, j.requests)

/-- A client call adds the same to equal traffic. -/
theorem Client.noted_traffic {j k : Journal} (h : j.traffic = k.traffic) (net : Network) (q : Request) :
    (noted net j q).traffic = (noted net k q).traffic := by
  simp only [Journal.traffic, Prod.mk.injEq] at h
  simp [Journal.traffic, h.1, h.2]

/-- The action sends nothing. -/
def Silent {ε α : Type} (x : Action ε α) : Prop := ∀ j, (x.run j).2.traffic = j.traffic

namespace Silent

variable {ε α β : Type}

theorem pure (a : α) : Silent (Pure.pure a : Action ε α) := fun _ => rfl

theorem throw (e : ε) : Silent (MonadExcept.throw e : Action ε α) := fun _ => rfl

theorem require (x : Except ε α) : Silent (RegistryPublisher.require x) := fun _ => rfl

/-- After a silent step an action has failed, or goes on with the same traffic. -/
theorem bind_cases {x : Action ε α} (hx : Silent x) (f : α → Action ε β) (j : Journal) :
    ∃ k, k.traffic = j.traffic ∧
      ((∃ e, (x >>= f).run j = (.error e, k)) ∨ ∃ a, (x >>= f).run j = (f a).run k) := by
  have h := hx j
  rcases hr : x.run j with ⟨e | a, k⟩
  · rw [hr] at h; exact ⟨k, h, Or.inl ⟨e, run_bind_error f hr⟩⟩
  · rw [hr] at h; exact ⟨k, h, Or.inr ⟨a, run_bind_ok f hr⟩⟩

theorem bind {x : Action ε α} {f : α → Action ε β} (hx : Silent x) (hf : ∀ a, Silent (f a)) : Silent (x >>= f) := by
  intro j
  obtain ⟨k, hk, ⟨e, h⟩ | ⟨a, h⟩⟩ := bind_cases hx f j
  · rw [h]; exact hk
  · rw [h]; exact (hf a k).trans hk

theorem write (s : String) : Silent (RegistryPublisher.write s) := by
  intro j
  rw [write_run, Journal.write]
  split <;> rfl

end Silent

/-! ## What reaches the network -/

/-- What reached a network is what it makes of the requests that were tried. -/
def Journal.Relayed (net : Network) (j : Journal) : Prop := j.requests = j.tried.flatMap net.sent

theorem Journal.start_relayed (net : Network) (room : Option Nat) : (start room).Relayed net := rfl

/-- A network that sends requests as they are gets nothing else than what the client was called for. -/
theorem Journal.Relayed.mem_tried {net : Network} {j : Journal} {q : Request} (hj : j.Relayed net)
    (hdirect : ∀ p ∈ j.tried, net.IsDirect p) (hq : q ∈ j.requests) : q ∈ j.tried := by
  rw [hj] at hq
  obtain ⟨p, hp, hsent⟩ := List.mem_flatMap.1 hq
  rcases hdirect p hp with h | ⟨h, -⟩
  · rw [h, List.mem_singleton] at hsent
    exact hsent ▸ hp
  · rw [h] at hsent
    cases hsent

theorem Client.noted_relayed {net : Network} {j : Journal} (h : j.Relayed net) (q : Request) :
    (noted net j q).Relayed net := by
  unfold Journal.Relayed at h ⊢
  simp [h]

/-- The action adds to the requests that reached a network what it makes of those that the action tries. -/
def Relays {ε α : Type} (net : Network) (x : Action ε α) : Prop := ∀ j, j.Relayed net → (x.run j).2.Relayed net

theorem Silent.relays {ε α : Type} {x : Action ε α} (h : Silent x) (net : Network) : Relays net x := by
  intro j hj
  obtain ⟨ht, hs⟩ := Prod.mk.inj (h j)
  unfold Journal.Relayed
  rw [ht, hs]
  exact hj

namespace Relays

variable {ε ε' α β : Type} {net : Network}

theorem bind {x : Action ε α} {f : α → Action ε β} (hx : Relays net x) (hf : ∀ a, Relays net (f a)) :
    Relays net (x >>= f) := by
  intro j hj
  have h := hx j hj
  rcases hr : x.run j with ⟨e | a, k⟩
  · rw [hr] at h
    rw [run_bind_error f hr]
    exact h
  · rw [hr] at h
    rw [run_bind_ok f hr]
    exact hf a k h

theorem attempt {x : Action ε α} (hx : Relays net x) : Relays net (RegistryPublisher.attempt x : Action ε' _) := hx

theorem publish (net : Network) (e : Endpoint) (d : Descriptor) : Relays net (Client.publish net e d) :=
  fun _ hj => Client.noted_relayed hj _

theorem validate (net : Network) (e : Endpoint) (d : Descriptor) : Relays net (Client.validate net e d) :=
  fun _ hj => Client.noted_relayed hj _

end Relays

end RegistryPublisher
