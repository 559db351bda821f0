import TlsGate.Bytes
import TlsGate.Failure

/-!
Byte streams as a handler uses them. A stream has a state; receiving and sending give a result or
a fault together with the next state.
-/

set_option autoImplicit false
set_option relaxedAutoImplicit false

namespace TlsGate

/-- The operations of a byte stream with states in `σ`. -/
structure ByteStream (σ : Type) where
  /-- Receives at most so many bytes, at least one. -/
  receive : Nat → σ → Except StreamFault Bytes × σ
  /-- Sends all of the bytes. -/
  send : Bytes → σ → Option StreamFault × σ

end TlsGate
