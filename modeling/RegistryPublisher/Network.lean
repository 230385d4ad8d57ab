import RegistryPublisher.Text.Utf8

/-!
# The network

What the client asks for is written here; what becomes of it is up to the HTTP library and to the registries.

- `Request` is what the client asks for, and `Exchange` what it gets: the requests that reach the network, and a `Reply`;
- `Network` is the library with the registries behind it, so that all behaviours of both are its values;
- `Network.IsDirect`: a request reaches the network as it was asked for, once, if at all.
-/

namespace RegistryPublisher

/-- A request. -/
structure Request where
  method : String
  url : String
  authorization : Option String
  contentType : String
  userAgent : String
  body : Bytes
  deriving DecidableEq, Repr

/-- A request that posts a JSON text. -/
def Request.post (url : String) (authorization : Option String) (body : Bytes) : Request where
  method := "POST"
  url := url
  authorization := authorization
  contentType := "application/json"
  userAgent := "mcp-publisher/0.1.0"
  body := body

/-- What comes back for a request. -/
inductive Reply where
  /-- No answer, for the given reasons, the nearest first. -/
  | failed (causes : List String)
  /-- The answer ended before its body was complete. -/
  | truncated (status : Nat) (causes : List String)
  | complete (status : Nat) (body : Bytes)
  deriving DecidableEq, Repr

/-- What becomes of a request. -/
structure Exchange where
  /-- What reaches the network, in order. The library does not send to an address that it cannot use, makes a header of a
  user and password in the address, and follows a redirection with a request of its own. -/
  sent : List Request
  /-- What the client gets in the end. -/
  reply : Reply
  deriving DecidableEq, Repr

/-- The HTTP library with the registries behind it. -/
structure Network where
  /-- Why the library cannot be set up; none when it can. -/
  fault : Option (List String)
  exchange : Request → Exchange

namespace Network

/-- What reaches the network for a request. -/
def sent (net : Network) (q : Request) : List Request := (net.exchange q).sent

/-- What the client gets for a request. -/
def reply (net : Network) (q : Request) : Reply := (net.exchange q).reply

/-- The library sends the request as it is and nothing else, or it sends nothing and has no answer. This is so when the
address can be used and names no user, and the answer is no redirection that the library follows. -/
def IsDirect (net : Network) (q : Request) : Prop :=
  net.sent q = [q] ∨ net.sent q = [] ∧ ∃ causes, net.reply q = .failed causes

/-- A network that every request reaches as it is. -/
def direct (reply : Request → Reply) : Network := ⟨none, fun q => ⟨[q], reply q⟩⟩

theorem direct_isDirect (reply : Request → Reply) (q : Request) : (direct reply).IsDirect q := Or.inl rfl

/-- A request with a complete answer was sent. -/
theorem IsDirect.sent_eq {net : Network} {q : Request} {status : Nat} {body : Bytes} (h : net.IsDirect q)
    (ha : net.reply q = .complete status body) : net.sent q = [q] := by
  rcases h with h | ⟨-, causes, h⟩
  · exact h
  · cases h.symm.trans ha

end Network

end RegistryPublisher
