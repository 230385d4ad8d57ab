import RegistryPublisher.Proofs.Action

/-!
# Scripts

A command does the same things in the same order whatever it writes to; the sink only decides how far it gets.

- `Event` is one such thing, a `Script` lists them, and `Script.perform` does them up to the first write that fails;
- `Plays`: an action does what a script says, whatever the journal; scripts of parts are put together (`Plays.bind_ok`);
- `Plays.cleanCut`: on a sink for `n` bytes an action that plays a script is cut off cleanly, as `CleanCut` says.
-/

namespace RegistryPublisher

/-- One thing that a command does to the outside. -/
inductive Event where
  | write (bs : Bytes)
  /-- The client is called for a request. -/
  | call (q : Request) (x : Exchange)
  deriving DecidableEq, Repr

namespace Event

/-- What an event writes. -/
def bytes : Event → Bytes
  | write bs => bs
  | call .. => []

/-- The request that an event calls the client for. -/
def tried : Event → List Request
  | write _ => []
  | call q _ => [q]

/-- The requests that reach the network in an event. -/
def sent : Event → List Request
  | write _ => []
  | call _ x => x.sent

end Event

/-- Events in the order in which they happen. -/
abbrev Script := List Event

namespace Script

/-- What a script writes. -/
def bytes (es : Script) : Bytes := es.flatMap Event.bytes

/-- The requests that a script calls the client for. -/
def tried (es : Script) : List Request := es.flatMap Event.tried

/-- The requests that reach the network. -/
def sent (es : Script) : List Request := es.flatMap Event.sent

/-- Does what a script says, up to the first write that fails; says whether that was all. -/
def perform : Script → Journal → Bool × Journal
  | [], j => (true, j)
  | .write bs :: es, j => if (j.write bs).1 then perform es (j.write bs).2 else (false, (j.write bs).2)
  | .call q x :: es, j => perform es (j.record q x.sent)

/-- The journal after all events of a script, with the room that is left. -/
def recorded (es : Script) (j : Journal) (room : Option Nat) : Journal :=
  ⟨j.written ++ es.bytes, j.tried ++ es.tried, j.requests ++ es.sent, room⟩

section Laws

variable {es fs : Script} {j : Journal} {n : Nat}

@[simp] theorem bytes_append (es fs : Script) : bytes (es ++ fs) = es.bytes ++ fs.bytes := List.flatMap_append

@[simp] theorem tried_append (es fs : Script) : tried (es ++ fs) = es.tried ++ fs.tried := List.flatMap_append

@[simp] theorem sent_append (es fs : Script) : sent (es ++ fs) = es.sent ++ fs.sent := List.flatMap_append

@[simp] theorem bytes_write (bs : Bytes) (es : Script) : bytes (.write bs :: es) = bs ++ es.bytes := rfl

@[simp] theorem tried_write (bs : Bytes) (es : Script) : tried (.write bs :: es) = es.tried := rfl

@[simp] theorem sent_write (bs : Bytes) (es : Script) : sent (.write bs :: es) = es.sent := rfl

@[simp] theorem bytes_call (q : Request) (x : Exchange) (es : Script) : bytes (.call q x :: es) = es.bytes := rfl

theorem perform_append (es fs : Script) (j : Journal) :
    perform (es ++ fs) j = if (perform es j).1 then perform fs (perform es j).2 else perform es j := by
  induction es generalizing j with
  | nil => rfl
  | cons a es ih =>
    cases a with
    | write bs =>
      rw [List.cons_append, perform, perform]
      split
      · exact ih _
      · rfl
    | call q x => exact ih _

/-- Without a limit everything happens. -/
theorem perform_unlimited (hj : j.room = none) : perform es j = (true, recorded es j none) := by
  induction es generalizing j with
  | nil => simp [perform, recorded, bytes, tried, sent, ← hj]
  | cons a es ih =>
    cases a with
    | write bs =>
      have hw : j.write bs = (true, j.append bs) := by simp [Journal.write, Journal.append, hj]
      rw [perform, hw, if_pos rfl, ih (by simpa using hj)]
      simp [recorded]
    | call q x =>
      rw [perform, ih (by simpa using hj)]
      simp [recorded, tried, sent, Event.tried, Event.sent]

/-- With room for all bytes everything happens. -/
theorem perform_within (hj : j.room = some n) (h : es.bytes.length ≤ n) :
    perform es j = (true, recorded es j (some (n - es.bytes.length))) := by
  induction es generalizing j n with
  | nil => simp [perform, recorded, bytes, tried, sent, ← hj]
  | cons a es ih =>
    cases a with
    | write bs =>
      rw [bytes_write, List.length_append] at h
      have hw : j.write bs = (true, { j with written := j.written ++ bs, room := some (n - bs.length) }) := by
        have hbs : bs.length ≤ n := by omega
        simp [Journal.write, hj, hbs, List.take_of_length_le hbs]
      rw [perform, hw, if_pos rfl, ih rfl (by omega)]
      simp [recorded, Nat.sub_sub]
    | call q x =>
      rw [perform, ih (by simpa using hj) h]
      simp [recorded, tried, sent, Event.tried, Event.sent]

/-- The byte after the first `n` ones is in one of the writes. -/
theorem exists_write (h : n < es.bytes.length) : ∃ (before : Script) (bs : Bytes) (after : Script),
    es = before ++ .write bs :: after ∧ before.bytes.length ≤ n ∧ n < before.bytes.length + bs.length := by
  induction es generalizing n with
  | nil => cases h
  | cons a es ih =>
    cases a with
    | write bs =>
      rw [bytes_write, List.length_append] at h
      rcases Nat.lt_or_ge n bs.length with hn | hn
      · exact ⟨[], bs, es, rfl, Nat.zero_le n, by simpa [bytes] using hn⟩
      · obtain ⟨before, cs, after, rfl, hlo, hhi⟩ := ih (n := n - bs.length) (by omega)
        refine ⟨.write bs :: before, cs, after, rfl, ?_, ?_⟩ <;> rw [bytes_write, List.length_append] <;> omega
    | call q x =>
      obtain ⟨before, cs, after, rfl, hlo, hhi⟩ := ih h
      exact ⟨.call q x :: before, cs, after, rfl, hlo, hhi⟩

/-- With too little room the first write that does not fit is the last event, and writes as much as it can. -/
theorem perform_beyond {before after : Script} {bs : Bytes} (hj : j.room = some n) (hlo : before.bytes.length ≤ n)
    (hhi : n < before.bytes.length + bs.length) : perform (before ++ .write bs :: after) j =
      (false, ⟨j.written ++ (bytes (before ++ .write bs :: after)).take n, j.tried ++ before.tried,
        j.requests ++ before.sent, some 0⟩) := by
  have hshort : ¬bs.length ≤ n - before.bytes.length := by omega
  have hzero : n - before.bytes.length - bs.length = 0 := by omega
  have htake : (bytes (before ++ .write bs :: after)).take n = before.bytes ++ bs.take (n - before.bytes.length) := by
    rw [bytes_append, bytes_write, List.take_append, List.take_of_length_le hlo, List.take_append_of_le_length (by omega)]
  rw [perform_append, perform_within hj hlo, if_pos rfl, perform, htake]
  simp [Journal.write, recorded, hshort, hzero]

/-- On any sink, requests are missing only at the end. -/
theorem perform_prefix (es : Script) (j : Journal) : (es.perform j).2.tried <+: j.tried ++ es.tried ∧
    (es.perform j).2.requests <+: j.requests ++ es.sent := by
  induction es generalizing j with
  | nil => simp [perform]
  | cons a es ih =>
    cases a with
    | write bs =>
      have hw : (j.write bs).2.tried = j.tried ∧ (j.write bs).2.requests = j.requests := by
        unfold Journal.write
        split <;> exact ⟨rfl, rfl⟩
      rw [perform, tried_write, sent_write, ← hw.1, ← hw.2]
      split
      · exact ih _
      · exact ⟨List.prefix_append .., List.prefix_append ..⟩
    | call q x =>
      have h := ih (j.record q x.sent)
      rw [Journal.record_tried, Journal.record_requests, List.append_assoc, List.append_assoc] at h
      exact h

end Laws

end Script

/-! ## Actions with a script -/

/-- Whatever the journal, the action does what the script says; it ends in the result, or in a failure to write. -/
def Plays {α : Type} (x : Action Failure α) (es : Script) (result : Except Failure α) : Prop :=
  ∀ j, x.run j = (if (es.perform j).1 then result else .error .output, (es.perform j).2)

namespace Plays

variable {α β : Type} {x : Action Failure α} {f : α → Action Failure β} {es fs : Script} {result : Except Failure β}

theorem pure (a : α) : Plays (Pure.pure a) [] (.ok a) := fun _ => rfl

theorem throw (e : Failure) : Plays (α := α) (MonadExcept.throw e) [] (.error e) := fun _ => rfl

theorem require (y : Except Failure α) : Plays (RegistryPublisher.require y) [] y := fun _ => rfl

theorem write (s : String) : Plays (RegistryPublisher.write s) [.write (Utf8.encode s)] (.ok ()) := by
  intro j
  rw [write_run, Script.perform]
  cases h : (j.write (Utf8.encode s)).1 <;> rfl

theorem bind_ok {a : α} (hx : Plays x es (.ok a)) (hf : Plays (f a) fs result) : Plays (x >>= f) (es ++ fs) result := by
  intro j
  have hx := hx j
  rw [Script.perform_append]
  cases h : (es.perform j).1 with
  | true =>
    rw [h, if_pos rfl] at hx
    rw [if_pos rfl, run_bind_ok f hx]
    exact hf _
  | false =>
    rw [h, if_neg Bool.false_ne_true] at hx
    rw [if_neg Bool.false_ne_true, run_bind_error f hx, h]
    rfl

theorem bind_error {e : Failure} (hx : Plays x es (.error e)) (f : α → Action Failure β) :
    Plays (x >>= f) es (.error e) := by
  intro j
  have hx := hx j
  cases h : (es.perform j).1 with
  | true => rw [h] at hx; exact run_bind_error f hx
  | false => rw [h] at hx; exact run_bind_error f hx

/-- After a step in which nothing happens the script is that of the rest. -/
theorem bind_quiet {a : α} (hx : Plays x [] (.ok a)) (hf : Plays (f a) fs result) : Plays (x >>= f) fs result :=
  hx.bind_ok hf

theorem attempt_publish (net : Network) (e : Endpoint) (d : Descriptor) :
    Plays (attempt (Client.publish net e d))
      [.call (Client.publishRequest e d) (net.exchange (Client.publishRequest e d))] (.ok (Client.receipt net e d)) :=
  fun _ => rfl

theorem attempt_validate (net : Network) (e : Endpoint) (d : Descriptor) :
    Plays (attempt (Client.validate net e d))
      [.call (Client.validateRequest e d) (net.exchange (Client.validateRequest e d))] (.ok (Client.verdict net e d)) :=
  fun _ => rfl

end Plays

/-! ## Full sinks -/

/-- How a run on a sink for `n` bytes compares with the run on a sink without a limit, in which all events of a script
happen. -/
structure CleanCut {α : Type} (n : Nat) (script : Script) (full cut : Except Failure α × Journal) : Prop where
  bytes : full.2.written = script.bytes
  requests : full.2.tried = script.tried ∧ full.2.requests = script.sent
  /-- A sink with enough room makes no difference. -/
  enough : full.2.written.length ≤ n → cut.1 = full.1 ∧ cut.2.written = full.2.written ∧ cut.2.tried = full.2.tried ∧
    cut.2.requests = full.2.requests
  /-- A smaller sink is filled up; this is the failure, and requests are missing only at the end. -/
  short : n < full.2.written.length → cut.1 = .error .output ∧ cut.2.written = full.2.written.take n ∧
    cut.2.tried <+: full.2.tried ∧ cut.2.requests <+: full.2.requests
  /-- Nothing happens after the write that does not fit: all requests were made before it. -/
  last : n < full.2.written.length → ∃ (before : Script) (bs : Bytes) (after : Script),
    script = before ++ .write bs :: after ∧ before.bytes.length ≤ n ∧ n < before.bytes.length + bs.length ∧
    cut.2.tried = before.tried ∧ cut.2.requests = before.sent

/-- On any sink, the client is called for requests of the script only. -/
theorem Plays.mem_tried {α : Type} {x : Action Failure α} {es : Script} {result : Except Failure α} (h : Plays x es result)
    {room : Option Nat} {q : Request} (hq : q ∈ (x.run (Journal.start room)).2.tried) : q ∈ es.tried := by
  rw [h] at hq
  exact (es.perform_prefix (Journal.start room)).1.subset hq

theorem Plays.run_unlimited {α : Type} {x : Action Failure α} {es : Script} {result : Except Failure α}
    (h : Plays x es result) : x.run (Journal.start none) = (result, es.recorded (Journal.start none) none) := by
  rw [h, Script.perform_unlimited rfl, if_pos rfl]

/-- **A full sink cuts cleanly.** An action that plays a script does all of it on a sink without a limit; on a sink for
`n` bytes it does the same, up to the write that does not fit. -/
theorem Plays.cleanCut {α : Type} {x : Action Failure α} {es : Script} {result : Except Failure α}
    (h : Plays x es result) (n : Nat) :
    CleanCut n es (x.run (Journal.start none)) (x.run (Journal.start (some n))) := by
  have hfull := h.run_unlimited
  have hbytes : (x.run (Journal.start none)).2.written = es.bytes := by rw [hfull]; rfl
  have hcut : n < es.bytes.length → ∃ (before : Script) (bs : Bytes) (after : Script),
      es = before ++ .write bs :: after ∧ before.bytes.length ≤ n ∧ n < before.bytes.length + bs.length ∧
      x.run (Journal.start (some n)) = (.error .output, ⟨es.bytes.take n, before.tried, before.sent, some 0⟩) := by
    intro hn
    obtain ⟨before, bs, after, rfl, hlo, hhi⟩ := Script.exists_write hn
    refine ⟨before, bs, after, rfl, hlo, hhi, ?_⟩
    rw [h, Script.perform_beyond rfl hlo hhi]
    rfl
  refine ⟨hbytes, by rw [hfull]; exact ⟨rfl, rfl⟩, fun hn => ?_, fun hn => ?_, fun hn => ?_⟩
  · rw [hbytes] at hn
    rw [h, Script.perform_within rfl hn, hfull]
    exact ⟨rfl, rfl, rfl, rfl⟩
  · rw [hbytes] at hn
    obtain ⟨before, bs, after, he, -, -, hx⟩ := hcut hn
    rw [hx, hfull, he]
    refine ⟨rfl, rfl, ?_, ?_⟩
    · exact ⟨after.tried, by simp [Script.recorded, Journal.start]⟩
    · exact ⟨after.sent, by simp [Script.recorded, Journal.start]⟩
  · rw [hbytes] at hn
    obtain ⟨before, bs, after, he, hlo, hhi, hx⟩ := hcut hn
    exact ⟨before, bs, after, he, hlo, hhi, by rw [hx], by rw [hx]⟩

end RegistryPublisher
