import TlsGate.Tls.Negotiation
import TlsGate.Tls.Pump
import TlsGate.Tls.Relay

/-!
Securing a connection: an engine is made from a context and the offer of the client, the kind of the
context decides which kind of stream drives it, and the handshake decides whether the connection is
secured at all.
-/

set_option autoImplicit false
set_option relaxedAutoImplicit false

namespace TlsGate.Tls

structure Facts where
  version : Version
  protocol? : Option Bytes
  peer? : Option Pki.Certificate
  deriving DecidableEq, Repr

/-- Engines with states in `ε`, and how they are made. -/
structure Stack (ε : Type) where
  engine : Engine ε
  start : Policy.Context → Offer → ε
  facts : ε → Facts

inductive Channel (ε : Type) where
  /-- Nothing stands between the handler and the transport. -/
  | clear (transport : Script)
  | relayed (s : Relay ε)
  | pumped (s : Pump ε)

namespace Channel

variable {ε : Type}

def transport : Channel ε → Script
  | clear t => t
  | relayed s => s.transport
  | pumped s => s.transport

def engine? : Channel ε → Option ε
  | clear _ => none
  | relayed s => some s.engine
  | pumped s => some s.engine

def facts? (stack : Stack ε) (c : Channel ε) : Option Facts := c.engine?.map stack.facts

def receive (io : Engine ε) (size : Nat) : Channel ε → Except StreamFault Bytes × Channel ε
  | clear t => (Script.receive size t).map id clear
  | relayed s => (Relay.receive io size s).map id relayed
  | pumped s => (Pump.receive io size s).map id pumped

def send (io : Engine ε) (data : Bytes) : Channel ε → Option StreamFault × Channel ε
  | clear t => (Script.send data t).map id clear
  | relayed s => (Relay.send io data s).map id relayed
  | pumped s => (Pump.send io data s).map id pumped

def stream (io : Engine ε) : ByteStream (Channel ε) := ⟨receive io, send io⟩

def close : Channel ε → Channel ε
  | clear t => clear t.close
  | relayed s => relayed s.close
  | pumped s => pumped s.close

end Channel

/-- Performs a handshake on a transport. -/
def Stack.wrap {ε : Type} (stack : Stack ε) (c : Policy.Context) (offer : Offer)
    (transport : Script) : Option StreamFault × Channel ε :=
  match c with
  | .verifying _ =>
    (Relay.handshake stack.engine { engine := stack.start c offer, transport := transport }).map
      id .relayed
  | .callback _ =>
    (Pump.handshake stack.engine { engine := stack.start c offer, transport := transport }).map
      id .pumped

end TlsGate.Tls
