import RegistryPublisher.Network

/-!
# Journals

- `Journal` is what a command has written, tried to send and sent, and how much more it may write;
- `Journal.write` writes as many bytes as there is room for, and says whether that was all.
-/

namespace RegistryPublisher

/-- What a command has written and sent so far. -/
structure Journal where
  written : Bytes
  /-- The requests that the client was called for. -/
  tried : List Request
  /-- The requests that reached the network. -/
  requests : List Request
  /-- How many bytes can still be written; none when there is no limit. -/
  room : Option Nat
  deriving DecidableEq, Repr

namespace Journal

/-- Nothing written, nothing sent. -/
def start (room : Option Nat) : Journal := ⟨[], [], [], room⟩

/-- Writes what there is room for. -/
def write (j : Journal) (bs : Bytes) : Bool × Journal :=
  match j.room with
  | none => (true, { j with written := j.written ++ bs })
  | some n =>
    (bs.length ≤ n, { j with written := j.written ++ bs.take n, room := some (n - bs.length) })

/-- Adds a request that the client was called for, with what was sent for it. -/
def record (j : Journal) (q : Request) (sent : List Request) : Journal :=
  { j with tried := j.tried ++ [q], requests := j.requests ++ sent }

end Journal

end RegistryPublisher
