import RegistryPublisher.Proofs.Publish.Run

/-!
# The requests of a publication

A publication posts its descriptor once, and only when that is refused with the status 422 it asks once for a verdict
on the same bytes (`Publish.run_protocol`). `Request.IsPublication` and `Request.IsValidation` say what the two
requests hold. What reaches the network is what the HTTP library makes of these two: the same if it sends requests as
they are (`Network.IsDirect`), more if it follows redirections.
-/

namespace RegistryPublisher

open Client

namespace Request

/-- The request that publishes a descriptor at an endpoint. -/
structure IsPublication (e : Endpoint) (d : Descriptor) (q : Request) : Prop where
  method : q.method = "POST"
  url : q.url = e.urlFor "v0/publish"
  contentType : q.contentType = "application/json"
  body : q.body = d.encode
  /-- The bearer of the token, when the endpoint has one. -/
  authorization : q.authorization = e.token.map ("Bearer " ++ ·)

/-- The request for a verdict on a descriptor at an endpoint; it never has a bearer. -/
structure IsValidation (e : Endpoint) (d : Descriptor) (q : Request) : Prop where
  method : q.method = "POST"
  url : q.url = e.urlFor "v0/validate"
  contentType : q.contentType = "application/json"
  body : q.body = d.encode
  authorization : q.authorization = none

end Request

theorem Client.publishRequest_spec (e : Endpoint) (d : Descriptor) : (publishRequest e d).IsPublication e d :=
  ⟨rfl, rfl, rfl, rfl, rfl⟩

theorem Client.validateRequest_spec (e : Endpoint) (d : Descriptor) : (validateRequest e d).IsValidation e d :=
  ⟨rfl, rfl, rfl, rfl, rfl⟩

/-- An address begins with the base, and with a slash unless the base ends in one. -/
theorem Endpoint.urlFor_eq (e : Endpoint) : ∃ base : String, ∀ path, e.urlFor path = base ++ path := by
  by_cases h : e.baseUrl.toList.getLast? = some '/'
  · exact ⟨e.baseUrl, fun path => by simp [urlFor, h]⟩
  · exact ⟨e.baseUrl ++ "/", fun path => by simp [urlFor, h]⟩

/-- Different paths have different addresses. -/
theorem Endpoint.urlFor_inj (e : Endpoint) {p q : String} (h : e.urlFor p = e.urlFor q) : p = q := by
  obtain ⟨base, hb⟩ := e.urlFor_eq
  rwa [hb, hb, String.append_right_inj] at h

namespace Publish

variable {net : Network} {e : Endpoint} {d : Descriptor}

/-- The two requests of a publication differ. -/
theorem requests_ne (e : Endpoint) (d : Descriptor) : (publishRequest e d).url ≠ (validateRequest e d).url := by
  intro h
  have := e.urlFor_inj h
  exact absurd this (by decide)

/-- The requests that a publication tries: none, its first one, or after a refusal with the status 422 both. -/
inductive Tries (net : Network) (e : Endpoint) (d : Descriptor) : List Request → Prop
  | nothing : Tries net e d []
  | publication : Tries net e d [publishRequest e d]
  | both (refused : ∃ body, net.reply (publishRequest e d) = .complete 422 body) :
    Tries net e d [publishRequest e d, validateRequest e d]

namespace Tries

variable {tried : List Request}

theorem begins (h : Tries net e d tried) : tried <+: [publishRequest e d, validateRequest e d] := by
  cases h with
  | nothing => exact List.nil_prefix
  | publication => exact List.prefix_append [_] [_]
  | both => exact List.prefix_rfl

/-- The request for a verdict comes after a publication that was refused. -/
theorem refused (h : Tries net e d tried) (hv : validateRequest e d ∈ tried) :
    publishRequest e d ∈ tried ∧ ∃ body, net.reply (publishRequest e d) = .complete 422 body := by
  cases h with
  | nothing => cases hv
  | publication => exact absurd (congrArg Request.url (List.mem_singleton.1 hv).symm) (requests_ne e d)
  | both hb => exact ⟨List.mem_cons_self, hb⟩

/-- What a direct network gets. -/
theorem sent_begins (h : Tries net e d tried) (hp : net.IsDirect (publishRequest e d))
    (hv : net.IsDirect (validateRequest e d)) :
    tried.flatMap net.sent <+: [publishRequest e d, validateRequest e d] := by
  cases h with
  | nothing => exact List.nil_prefix
  | publication =>
    rw [List.flatMap_singleton]
    rcases hp with hp | ⟨hp, -⟩ <;> simp [hp]
  | both hb =>
    obtain ⟨body, hb⟩ := hb
    have hsent : net.sent (publishRequest e d) = [publishRequest e d] := hp.sent_eq hb
    rw [List.flatMap_cons, hsent, List.flatMap_singleton]
    rcases hv with hv | ⟨hv, -⟩ <;> simp [hv]

end Tries

theorem run_tries (net : Network) (r : Reporter) (e : Endpoint) (d : Descriptor) (room : Option Nat) :
    Tries net e d ((run net r e d).run (Journal.start room)).2.tried := by
  rcases run_traffic net r e d (Journal.start room) with h | h | ⟨hb, h⟩ <;> rw [(Prod.mk.inj h).1]
  · exact .nothing
  · exact .publication
  · exact .both hb

/-- On a sink without a limit the descriptor is always posted, and a refusal always leads to a request for a verdict. -/
theorem run_tried (net : Network) (r : Reporter) (e : Endpoint) (d : Descriptor) :
    publishRequest e d ∈ ((run net r e d).run (Journal.start none)).2.tried ∧
      ((∃ body, net.reply (publishRequest e d) = .complete 422 body) →
        validateRequest e d ∈ ((run net r e d).run (Journal.start none)).2.tried) := by
  have hj : (Journal.start none).room = none := rfl
  cases h : receipt net e d with
  | ok v =>
    rw [run_of_receipt hj h]
    refine ⟨by simp [posted, noted], ?_⟩
    rintro ⟨body, hb⟩
    rw [receipt, hb] at h
    cases h
  | error cause =>
    by_cases hs : cause.status? = some unprocessable
    · rw [run_of_refusal hj h hs]
      have ht := congrArg Prod.fst
        (diagnose_traffic net r e d cause ((posted net e d (Journal.start none)).append notice))
      simp only [Journal.traffic] at ht
      rw [ht]
      exact ⟨by simp [posted, noted], fun _ => by simp [noted]⟩
    · rw [run_of_failure hj h hs]
      refine ⟨by simp [posted, noted], ?_⟩
      rintro ⟨body, hb⟩
      rw [receipt, hb, interpret_rejected _ (by decide)] at h
      cases h
      exact absurd rfl hs

/-- **The protocol of a publication.** On any network and any sink, the client is called for the publication and after
it for the validation at most; the second is tried only when the answer to the first is complete with the status 422.
On a sink without a limit the first is always tried, and the second whenever that answer came. What reaches the network
is what the library makes of these requests; if it sends both as they are, that is a beginning of the two, and the
second is tried only when the first was sent. -/
theorem run_protocol (net : Network) (r : Reporter) (e : Endpoint) (d : Descriptor) (room : Option Nat) :
    let j := ((run net r e d).run (Journal.start room)).2
    ∃ p v : Request, p.IsPublication e d ∧ v.IsValidation e d ∧ p.url ≠ v.url ∧
      j.tried <+: [p, v] ∧ (v ∈ j.tried → ∃ body, net.reply p = .complete 422 body) ∧
      (room = none → p ∈ j.tried ∧ ((∃ body, net.reply p = .complete 422 body) → v ∈ j.tried)) ∧
      j.requests = j.tried.flatMap net.sent ∧
      (net.IsDirect p → net.IsDirect v → j.requests <+: [p, v] ∧ (v ∈ j.tried → p ∈ j.requests)) := by
  intro j
  have htries : Tries net e d j.tried := run_tries net r e d room
  have hrelayed : j.requests = j.tried.flatMap net.sent := run_relays net r e d _ (Journal.start_relayed net room)
  refine ⟨publishRequest e d, validateRequest e d, publishRequest_spec e d, validateRequest_spec e d, requests_ne e d,
    htries.begins, fun hmem => (htries.refused hmem).2, ?_, hrelayed, fun hp hv => ⟨?_, fun hmem => ?_⟩⟩
  · rintro rfl
    exact run_tried net r e d
  · rw [hrelayed]
    exact htries.sent_begins hp hv
  · obtain ⟨hfirst, body, hb⟩ := htries.refused hmem
    have hsent : net.sent (publishRequest e d) = [publishRequest e d] := hp.sent_eq hb
    rw [hrelayed]
    exact List.mem_flatMap.2 ⟨_, hfirst, hsent ▸ List.mem_singleton_self _⟩

/-- A registry that refuses a publication and has no verdict gets both requests. -/
theorem run_protocol_refused :
    let e : Endpoint := ⟨"http://r", some "t"⟩
    let net : Network := .direct fun q => if q.authorization.isSome then .complete 422 [] else .failed []
    let j := ((run net .standard e .empty).run (Journal.start none)).2
    ∃ p v : Request, p.IsPublication e .empty ∧ v.IsValidation e .empty ∧ p.authorization = some "Bearer t" ∧
      j.requests = [p, v] := by
  intro e net j
  obtain ⟨p, v, hp, hv, -, -, -, -, -, hdirect⟩ := run_protocol net .standard e .empty none
  obtain ⟨hbegins, -⟩ := hdirect (Network.direct_isDirect _ p) (Network.direct_isDirect _ v)
  refine ⟨p, v, hp, hv, hp.authorization, hbegins.eq_of_length ?_⟩
  rfl

end Publish

end RegistryPublisher
