import TlsGate.Policy.Context
import TlsGate.Text.Quoted
import TlsGate.Tls.Stack

/-!
The gate of a server: what a connection has to pass before a handler is given its stream. A clear
gate lets everything pass. A secured gate asks for a policy anew for each connection, makes a
context from it, and performs a handshake; a connection for which any of this fails is refused, and
nothing else is done with it.
-/

set_option autoImplicit false
set_option relaxedAutoImplicit false

namespace TlsGate.Server

open Config Log Policy Tls

/-- Where the policy for each connection comes from. -/
inductive PolicySource where
  | fixed (policy : SecurityPolicy)
  | built (options : TlsConfig)
  | loaded (path : Str)
  deriving DecidableEq, Repr

def PolicySource.policy [Yaml.Room] (fs : FileSystem) :
    PolicySource → List Record × Except LoadError SecurityPolicy
  | fixed policy => ([], .ok policy)
  | built options => SecurityPolicy.build fs options
  | loaded path => SecurityPolicy.load fs path

/-- How the connections of a listener are treated. -/
inductive Gate where
  | clear
  | secured (source : PolicySource)
  deriving DecidableEq, Repr

def Gate.scheme : Gate → String
  | clear => "http"
  | secured _ => "https"

/-- The address of a peer as far as it is known: a host, and numbers such as the port. -/
structure Remote where
  host : String
  numbers : List Int := []
  deriving DecidableEq, Repr

def Remote.shown : Option Remote → String
  | none => "None"
  | some r =>
    match r.numbers with
    | [] => "(" ++ Text.quoted r.host ++ ",)"
    | numbers => "(" ++ ", ".intercalate (Text.quoted r.host :: numbers.map toString) ++ ")"

/-- A connection as it arrives: who it is from, its transport, and what the client offers if it
speaks TLS. -/
structure Arrival where
  remote? : Option Remote := none
  transport : Script
  offer : Offer := {}
  deriving DecidableEq, Repr

inductive Refusal where
  | context (e : ContextError)
  | handshake (fault : StreamFault)
  deriving DecidableEq, Repr

namespace Refusal

def exits : Refusal → Bool
  | handshake .exit => true
  | _ => false

/-- What is logged of a refusal: a warning if the configuration is at fault. -/
def record (remote? : Option Remote) : Refusal → Record
  | context e =>
    match e.config? with
    | some e =>
      { source := .networking
        level := .warning
        text := ("Connection from " ++ Remote.shown remote? ++
          " rejected, TLS policy is not valid: " ++ e.text : String)
        detail := e.detail? }
    | none => failed "no context"
  | handshake _ => failed "handshake"
where
  failed (why : String) : Record :=
    { source := .networking
      level := .info
      text := ("TLS handshake with " ++ Remote.shown remote? ++ " failed: " : String)
      detail := some why }

end Refusal

/-- What the gate has done with a connection: the records, and the stream for the handler, or the
reason of the refusal and what is left of the transport. -/
structure Passage (ε : Type) where
  records : List Record
  result : Except (Refusal × Script) (Channel ε)

/-- Lets a connection pass or refuses it, given the files of the moment. -/
def Gate.pass [Yaml.Room] [Pki.KeyLibrary] {ε : Type} (stack : Stack ε)
    (protocols? : Option (List String)) (fs : FileSystem) (a : Arrival) : Gate → Passage ε
  | clear => ⟨[], .ok (.clear a.transport)⟩
  | secured source =>
    match source.policy fs with
    | (records, .error e) => ⟨records, .error (.context (.load e), a.transport)⟩
    | (records, .ok policy) =>
      match policy.context (.at fs) protocols? with
      | .error e => ⟨records, .error (.context e, a.transport)⟩
      | .ok context =>
        match stack.wrap context a.offer a.transport with
        | (some fault, channel) => ⟨records, .error (.handshake fault, channel.transport)⟩
        | (none, channel) => ⟨records, .ok channel⟩

end TlsGate.Server
