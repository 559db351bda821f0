import TlsGate.Bytes

/-!
TLS engines. An engine does no input or output of its own: it is fed the bytes that arrive, and each
attempt to do something may emit bytes that have to be sent.
-/

set_option autoImplicit false
set_option relaxedAutoImplicit false

namespace TlsGate.Tls

inductive EngineFault where
  | unexpectedEnd
  | badRecord
  | noAgreement
  | peerRefused
  | shutDown
  deriving DecidableEq, Repr

def EngineFault.message : EngineFault → String
  | unexpectedEnd => "unexpected end"
  | badRecord => "bad record"
  | noAgreement => "no shared settings"
  | peerRefused => "certificate verify failed"
  | shutDown => "engine is shut down"

/-- What an attempt comes to. -/
inductive Attempt (α : Type) where
  | done (value : α)
  | wantRead
  | closed
  | failed (fault : EngineFault)
  deriving DecidableEq, Repr

/-- A result of an attempt with the bytes that it emitted and the next state. -/
structure Step (ε α : Type) where
  attempt : Attempt α
  emitted : Bytes := []
  next : ε

/-- An engine with states in `ε`. -/
structure Engine (ε : Type) where
  handshake : ε → Step ε Unit
  receive : Nat → ε → Step ε Bytes
  /-- Takes bytes for the peer and says how many of them it took, which is at least one. -/
  send : Bytes → ε → Step ε Nat
  feed : Bytes → ε → ε
  finish : ε → ε

end TlsGate.Tls
