import TlsGate.Address.Listen
import TlsGate.Server.Gate

/-!
Starting a server. A server holds two slots for its security: a policy, and a source that is asked
for a policy for each connection and that goes before the first. Starting settles once which gate
the connections have to pass; nothing is opened if that fails.
-/

set_option autoImplicit false
set_option relaxedAutoImplicit false

namespace TlsGate.Server

open Address Config Log Policy

structure Settings where
  address : ListenAddress := ⟨"", 8080⟩
  protocols? : Option (List String) := none
  policy? : Option SecurityPolicy := none
  source? : Option PolicySource := none
  deriving DecidableEq, Repr

inductive StartError where
  | load (e : LoadError)
  | policyRequired
  | address
  deriving DecidableEq, Repr

def policyRequiredText : String := "TLS policy is required."

/-- How a server is to be started. -/
inductive Mode where
  | clear
  | secured
  /-- Secured as a configuration file says, or clear if no file is named. -/
  | configured (path? : Option Str)
  deriving DecidableEq, Repr

namespace Settings

def effectiveSource? (s : Settings) : Option PolicySource :=
  s.source?.or (s.policy?.map .fixed)

def certificateWarning (s : Settings) : List Record :=
  match s.policy? with
  | some policy =>
    if policy.provider?.isNone then
      [⟨.server, .warning, "TLS policy has no certificate configured.", none, none⟩]
    else []
  | none => []

def securedGate (s : Settings) : List Record × Except StartError Gate :=
  match s.effectiveSource? with
  | none => ([], .error .policyRequired)
  | some source => (s.certificateWarning, .ok (.secured source))

def namedPath? (path? : Option Str) : Option Str := path?.filter (!·.isEmpty)

/-- Settles the gate. A configuration file is loaded once before anything else, and both slots are
set then. -/
def prepare [Yaml.Room] (fs : FileSystem) (s : Settings) :
    Mode → List Record × Settings × Except StartError Gate
  | .clear => ([], s, .ok .clear)
  | .secured =>
    let (records, gate) := s.securedGate
    (records, s, gate)
  | .configured path? =>
    match namedPath? path? with
    | none => ([], s, .ok .clear)
    | some path =>
      match SecurityPolicy.load fs path with
      | (records, .error e) => (records, s, .error (.load e))
      | (records, .ok policy) =>
        let s := { s with policy? := some policy, source? := some (.loaded path) }
        let (more, gate) := s.securedGate
        (records ++ more, s, gate)

end Settings

structure Network where
  /-- The address that a listener reports, if it differs from the one that was asked for. -/
  bound? : Option ListenAddress := none
  refuses : Bool := false
  deriving DecidableEq, Repr

structure Listening where
  gate : Gate
  address : ListenAddress
  deriving DecidableEq, Repr

/-- A start: what was logged, the settings afterwards, the addresses at which listening was tried,
and whether the server listens. -/
structure Start where
  records : List Record
  settings : Settings
  tried : List ListenAddress
  result : Except StartError Listening

def Listening.record (l : Listening) : Record :=
  ⟨.server, .info, "Listening at " ++ l.gate.scheme ++ "://" ++ l.address.text, none, none⟩

def start [Yaml.Room] (network : Network) (fs : FileSystem) (s : Settings) (mode : Mode) : Start :=
  match s.prepare fs mode with
  | (records, s, .error e) => ⟨records, s, [], .error e⟩
  | (records, s, .ok gate) =>
    if network.refuses then ⟨records, s, [s.address], .error .address⟩
    else
      let listening : Listening := ⟨gate, network.bound?.getD s.address⟩
      ⟨records ++ [listening.record], s, [s.address], .ok listening⟩

end TlsGate.Server
