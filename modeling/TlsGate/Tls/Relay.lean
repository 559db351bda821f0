import TlsGate.Stream.Script
import TlsGate.Tls.Engine

/-!
The stream over a verifying engine. As with the other kind of stream, an engine that wants more is
fed what the transport receives, and what it has emitted is sent first, in one piece. A failure of
the engine is shown as it is, apart from the end of a transport without a closure alert, which ends
the stream.
-/

set_option autoImplicit false
set_option relaxedAutoImplicit false

namespace TlsGate.Tls

/-- The stream: an engine, a transport, and what was emitted and not yet sent. -/
structure Relay (ε : Type) where
  engine : ε
  transport : Script
  outgoing : Bytes := []
  ended : Bool := false

namespace Relay

variable {ε : Type}

def most : Nat := 65536

def flush (s : Relay ε) : Option StreamFault × Relay ε :=
  if s.outgoing = [] then (none, s)
  else
    let (fault, transport) := Script.send s.outgoing s.transport
    (fault, { s with transport := transport, outgoing := [] })

def finish (io : Engine ε) (s : Relay ε) : Relay ε :=
  { s with engine := io.finish s.engine, ended := true }

/-- What becomes of a fault of the transport while the engine waits: the end is told to the engine,
and a connection that was reset is a broken stream. -/
def onFault (io : Engine ε) (fault : StreamFault) (s : Relay ε) : Option StreamFault × Relay ε :=
  match fault with
  | .ended => (none, finish io s)
  | .reset => (some (.broken .lost), finish io s)
  | other => (some other, s)

def exchange (io : Engine ε) (s : Relay ε) : Option StreamFault × Relay ε :=
  match flush s with
  | (some fault, s) => onFault io fault s
  | (none, s) =>
    match Script.receive most s.transport with
    | (.error fault, transport) => onFault io fault { s with transport := transport }
    | (.ok b, transport) => (none, { s with transport := transport, engine := io.feed b s.engine })

def supply (s : Relay ε) : Nat := if s.ended then 0 else s.transport.size + 1

theorem flush_items (s : Relay ε) : (flush s).2.transport.items = s.transport.items := by
  unfold flush
  split
  · rfl
  · exact Script.send_items ..

theorem flush_ended (s : Relay ε) : (flush s).2.ended = s.ended := by
  unfold flush
  split <;> rfl

private theorem onFault_ended {io : Engine ε} {fault : StreamFault} {s next : Relay ε}
    (h : onFault io fault s = (none, next)) : next.ended = true := by
  unfold onFault at h
  split at h
  · simp only [Prod.mk.injEq, true_and] at h
    simp [← h, finish]
  · simp at h
  · simp at h

private theorem exchange_supply {io : Engine ε} {s next : Relay ε} (hs : s.ended = false)
    (h : exchange io s = (none, next)) : next.supply < s.supply := by
  have hpos : 0 < s.supply := by simp [supply, hs]
  unfold exchange at h
  split at h
  · simpa [supply, onFault_ended h] using hpos
  · rename_i flushed hflush
    have hi := flush_items s
    have he := flush_ended s
    rw [hflush] at hi he
    split at h
    · simpa [supply, onFault_ended h] using hpos
    · rename_i hreceive
      have hlt := Script.receive_size_lt (by decide) hreceive
      simp only [Prod.mk.injEq, true_and] at h
      simp only at hi he
      simp only [Script.size, hi] at hlt
      simp [supply, ← h, hs, he, Script.size, hlt]

def shown : EngineFault → StreamFault
  | .unexpectedEnd => .ended
  | _ => .badRecord

/-- Attempts something until it is done; `onClosed` is what a closure alert means for it. An engine
that knows the end does not want more. -/
def call {α : Type} (io : Engine ε) (attempt : ε → Step ε α) (onClosed : StreamFault)
    (s : Relay ε) : Except StreamFault α × Relay ε :=
  let step := attempt s.engine
  let s' := { s with engine := step.next, outgoing := s.outgoing ++ step.emitted }
  match step.attempt with
  | .done a =>
    match flush s' with
    | (some fault, flushed) => (.error fault, flushed)
    | (none, flushed) => (.ok a, flushed)
  | .closed =>
    match flush s' with
    | (some fault, flushed) => (.error fault, flushed)
    | (none, flushed) => (.error onClosed, flushed)
  | .failed fault => (.error (shown fault), finish io s')
  | .wantRead =>
    if _hs : s.ended = true then (.error .ended, s')
    else
      match _hx : exchange io s' with
      | (some fault, next) => (.error fault, next)
      | (none, next) => call io attempt onClosed next
termination_by s.supply
decreasing_by
  have hs : s.ended = false := by simpa using _hs
  exact exchange_supply (s := s') hs _hx

def handshake (io : Engine ε) (s : Relay ε) : Option StreamFault × Relay ε :=
  match call io io.handshake .badRecord s with
  | (.ok _, next) => (none, next)
  | (.error fault, next) => (some fault, next)

def receive (io : Engine ε) (size : Nat) (s : Relay ε) : Except StreamFault Bytes × Relay ε :=
  call io (io.receive size) .ended s

def send (io : Engine ε) (data : Bytes) (s : Relay ε) : Option StreamFault × Relay ε :=
  match call io (io.send data) .badRecord s with
  | (.ok _, next) => (none, next)
  | (.error fault, next) => (some fault, next)

def stream (io : Engine ε) : ByteStream (Relay ε) := ⟨receive io, send io⟩

def close (s : Relay ε) : Relay ε := { s with transport := s.transport.close }

end Relay

end TlsGate.Tls
