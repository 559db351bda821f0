import TlsGate.Server.Handler

/-!
A handler that reports what it sees: what is known of the handshake, the pieces in which data
arrive, and how the stream ends. It can send a greeting first and send back what it receives.
-/

set_option autoImplicit false
set_option relaxedAutoImplicit false

namespace TlsGate.Server

open Log Tls

structure Probe where
  raises? : Option String := none
  greeting? : Option Bytes := none
  /-- Ends its own side of the stream before it receives; secured streams refuse that. -/
  halfCloses : Bool := false
  most : Nat := 65536
  echoes : Bool := true
  deriving DecidableEq, Repr

inductive Ending where
  | eof
  | broken
  deriving DecidableEq, Repr

structure Sighting where
  facts? : Option Facts
  halfClosed? : Option Bool := none
  chunks? : Option (List Bytes) := none
  ending? : Option Ending := none
  deriving DecidableEq, Repr

namespace Probe

variable {σ : Type}

def conclude (fault : StreamFault) : Option Ending × Except Failure Unit :=
  match fault with
  | .ended => (some .eof, .ok ())
  | .broken _ => (some .broken, .ok ())
  | .closed => (none, .error (.stream .closed))
  | other => (none, .error (.stream other))

def listen (io : ByteStream σ) (probe : Probe) :
    (steps : Nat) → σ → List Bytes × (Option Ending × Except Failure Unit) × σ
  | 0, stream => ([], (none, .ok ()), stream)
  | steps + 1, stream =>
    match io.receive probe.most stream with
    | (.error fault, stream) => ([], conclude fault, stream)
    | (.ok data, stream) =>
      match if probe.echoes then io.send data stream else (none, stream) with
      | (some fault, stream) => ([data], conclude fault, stream)
      | (none, stream) =>
        let (chunks, rest) := listen io probe steps stream
        (data :: chunks, rest)

def look (io : ByteStream σ) (probe : Probe) (steps : Nat) (facts? : Option Facts) (stream : σ) :
    Sighting × Except Failure Unit × σ :=
  match probe.raises? with
  | some name => ({ facts? := facts? }, .error (.raised name), stream)
  | none =>
    match probe.greeting?.elim (none, stream) fun greeting => io.send greeting stream with
    | (some fault, stream) => ({ facts? := facts? }, .error (.stream fault), stream)
    | (none, stream) =>
      let halfClosed? := if probe.halfCloses then some facts?.isNone else none
      let (chunks, (ending?, outcome), stream) := probe.listen io steps stream
      (⟨facts?, halfClosed?, some chunks, ending?⟩, outcome, stream)

/-- The probe as a handler; its state is what it has seen, the last connection last. -/
def handler {ε : Type} (io : Engine ε) (probe : Probe) (steps : Channel ε → Nat) :
    Handler ε (List Sighting) where
  handle facts? channel seen :=
    let (sighting, outcome, channel') :=
      probe.look (Channel.stream io) (steps channel) facts? channel
    ⟨[], outcome, channel', seen ++ [sighting]⟩

end Probe

end TlsGate.Server
