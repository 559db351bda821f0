import TlsGate.Stream.Script
import TlsGate.Tls.Engine

/-!
The stream over an engine with a callback. Each operation attempts something with the engine until
it is done; an engine that wants more is fed what the transport receives. Everything that the
engine has emitted is sent before the transport is asked for more, and before an operation ends.

A transport that ends without a closure alert ends the stream.
-/

set_option autoImplicit false
set_option relaxedAutoImplicit false

namespace TlsGate.Tls

inductive Transfer where
  | emitted (b : Bytes)
  | sent (b : Bytes)
  | asked
  | fed (b : Bytes)
  deriving DecidableEq, Repr

/-- The stream: an engine, a transport, and what was emitted and not yet sent. -/
structure Pump (ε : Type) where
  engine : ε
  transport : Script
  outgoing : Bytes := []
  ended : Bool := false
  /-- What has happened, the last first. -/
  history : List Transfer := []

namespace Pump

variable {ε : Type}

def most : Nat := 65536

def flush (s : Pump ε) : Option StreamFault × Pump ε :=
  if _h : s.outgoing = [] then (none, s)
  else
    let piece := s.outgoing.take most
    let s' := { s with outgoing := s.outgoing.drop most }
    match Script.send piece s.transport with
    | (some fault, transport) => (some fault, { s' with transport := transport })
    | (none, transport) =>
      flush { s' with transport := transport, history := .sent piece :: s.history }
termination_by s.outgoing.length
decreasing_by
  have := List.length_pos_iff.2 _h
  simp only [List.length_drop, most]
  omega

/-- Feeds the engine what the transport receives; the end of the transport is remembered. -/
def feed (io : Engine ε) (s : Pump ε) : Option StreamFault × Pump ε :=
  let s := { s with history := .asked :: s.history }
  match Script.receive most s.transport with
  | (.error .ended, transport) =>
    (none, { s with transport := transport, ended := true, engine := io.finish s.engine })
  | (.error fault, transport) => (some fault, { s with transport := transport })
  | (.ok b, transport) =>
    (none, { s with
      transport := transport, engine := io.feed b s.engine, history := .fed b :: s.history })

def supply (s : Pump ε) : Nat := if s.ended then 0 else s.transport.size + 1

theorem flush_ended (s : Pump ε) : (flush s).2.ended = s.ended := by
  fun_induction flush s with
  | case1 => rfl
  | case2 => rfl
  | case3 s h piece s' transport hsend ih => exact ih

theorem flush_items (s : Pump ε) : (flush s).2.transport.items = s.transport.items := by
  fun_induction flush s with
  | case1 => rfl
  | case2 s h piece s' fault transport hsend =>
    have := Script.send_items piece s.transport
    rwa [hsend] at this
  | case3 s h piece s' transport hsend ih =>
    have := Script.send_items piece s.transport
    rw [hsend] at this
    exact ih.trans this

private theorem feed_supply {io : Engine ε} {s next : Pump ε} (hs : s.ended = false)
    (h : feed io s = (none, next)) : next.supply < s.supply := by
  unfold feed at h
  simp only at h
  split at h
  · simp only [Prod.mk.injEq, true_and] at h
    simp [supply, ← h, hs]
  · simp at h
  · rename_i hreceive
    have := Script.receive_size_lt (by decide) hreceive
    simp only [Prod.mk.injEq, true_and] at h
    simp [supply, ← h, hs, this]

/-- Attempts something until it is done. -/
def call {α : Type} (io : Engine ε) (attempt : ε → Step ε α) (s : Pump ε) :
    Except StreamFault α × Pump ε :=
  let step := attempt s.engine
  let s' := { s with
    engine := step.next
    outgoing := s.outgoing ++ step.emitted
    history := .emitted step.emitted :: s.history }
  match step.attempt with
  | .done a =>
    match flush s' with
    | (some fault, next) => (.error fault, next)
    | (none, next) => (.ok a, next)
  | .closed =>
    match flush s' with
    | (some fault, next) => (.error fault, next)
    | (none, next) => (.error .ended, next)
  | .failed fault =>
    if s.ended then (.error .ended, s') else (.error (.broken (.engine fault.message)), s')
  | .wantRead =>
    if _hs : s.ended = true then (.error .ended, s')
    else
      match _hf : flush s' with
      | (some fault, flushed) => (.error fault, flushed)
      | (none, flushed) =>
        match _hn : feed io flushed with
        | (some fault, fed) => (.error fault, fed)
        | (none, fed) => call io attempt fed
termination_by s.supply
decreasing_by
  have he : flushed.ended = false := by
    have := flush_ended s'
    rw [_hf] at this
    simpa [s'] using this.trans (by simpa using _hs)
  have hi : flushed.transport.items = s.transport.items := by
    have := flush_items s'
    rw [_hf] at this
    exact this
  refine Nat.lt_of_lt_of_eq (feed_supply he _hn) ?_
  simp [supply, he, Script.size, hi, _hs]

/-- Performs a handshake. The end of the transport breaks it. -/
def handshake (io : Engine ε) (s : Pump ε) : Option StreamFault × Pump ε :=
  match call io io.handshake s with
  | (.ok _, next) => (none, next)
  | (.error .ended, next) => (some (.broken .handshakeCut), next)
  | (.error fault, next) => (some fault, next)

def receive (io : Engine ε) (size : Nat) (s : Pump ε) : Except StreamFault Bytes × Pump ε :=
  call io (io.receive size) s

def send (io : Engine ε) (data : Bytes) (s : Pump ε) : Option StreamFault × Pump ε :=
  if _h : data = [] then (none, s)
  else
    match call io (io.send data) s with
    | (.error fault, next) => (some fault, next)
    | (.ok taken, next) => send io (data.drop (max taken 1)) next
termination_by data.length
decreasing_by
  have := List.length_pos_iff.2 _h
  simp only [List.length_drop]
  omega

def stream (io : Engine ε) : ByteStream (Pump ε) := ⟨receive io, send io⟩

/-- Closes the transport; no closure alert is sent. -/
def close (s : Pump ε) : Pump ε := { s with transport := s.transport.close }

end Pump

end TlsGate.Tls
