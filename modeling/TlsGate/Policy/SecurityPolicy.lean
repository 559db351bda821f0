import TlsGate.Pki.Credential
import TlsGate.Policy.ClientAuth

/-!
Security policies: what a server shows to its clients and what it demands of them. A policy is built
from TLS options; the certificates that clients are checked against are read then, while the own
credential is read each time it is needed.
-/

set_option autoImplicit false
set_option relaxedAutoImplicit false

namespace TlsGate.Policy

open Config Log Pki Text

inductive Provider where
  | files (certPath keyPath : Str)
  | fixed (credential : Credential)
  deriving DecidableEq, Repr

/-- The credential that a provider gives. Files are read one after the other, so each of them is
seen as it is in its own moment. -/
def Provider.credential [KeyLibrary] (first second : FileSystem) :
    Provider → Except LoadError Credential
  | files certPath keyPath => Credential.load first second certPath keyPath
  | fixed credential => .ok credential

/-- The settings that a server applies to its connections. -/
structure SecurityPolicy where
  provider? : Option Provider := none
  serverName? : Option Str := none
  /-- The certificates that clients are checked against; without them it is the system's. -/
  pool? : Option TrustPool := none
  clientAuth : ClientAuth := .none
  deriving DecidableEq, Repr

namespace SecurityPolicy

/-- Whether two policies that were made apart are equal. Policies with a provider are not, as
nothing is known of what their providers give. -/
def same (a b : SecurityPolicy) : Bool :=
  a.provider?.isNone && b.provider?.isNone && a.serverName? == b.serverName? &&
    a.pool? == b.pool? && a.clientAuth == b.clientAuth

def filled? (s : Str) : Option Str := if s.isEmpty then none else some s

def modeOf (c : TlsConfig) : Except LoadError ClientAuth :=
  match filled? c.clientAuth with
  | none => .ok .none
  | some name =>
    match name.string?.bind ClientAuth.ofName? with
    | some mode => .ok mode
    | none => .error (.config (.unknownMode name))

def poolOf (fs : FileSystem) (c : TlsConfig) :
    List Record × Except LoadError (Option TrustPool) :=
  match filled? c.clientCas with
  | none => ([], .ok none)
  | some path =>
    let (records, pool) := TrustPool.load fs path
    (records, pool.map some)

def build (fs : FileSystem) (c : TlsConfig) : List Record × Except LoadError SecurityPolicy :=
  let (records, pool) := poolOf fs c
  (records, do
    let pool ← pool
    let mode ← modeOf c
    return {
      provider? := (filled? c.certPath).map fun path => .files path c.keyPath
      serverName? := filled? c.serverName
      pool? := pool
      clientAuth := mode })

/-- The record of a failure to load a policy, if it is one of the configuration. -/
def failureRecord (intro : String) (path : Str) : LoadError → List Record
  | .config e =>
    [{ source := .policy
       level := .error
       text := (intro ++ " " ++ path.quoted ++ ": " ++ e.text : String)
       detail := e.detail? }]
  | _ => []

/-- Loads TLS options from a file and builds a policy from them. A failure is logged. The file is
read first, and the certificates that it names in a second moment. -/
def loadAt [Yaml.Room] (first second : FileSystem) (path : Str) :
    List Record × Except LoadError SecurityPolicy :=
  match Config.load first path with
  | (records, .error e) =>
    (records ++ failureRecord "TLS configuration failed to load from" path e, .error e)
  | (records, .ok c) =>
    match build second c with
    | (more, .ok policy) => (records ++ more, .ok policy)
    | (more, .error e) =>
      (records ++ more ++ failureRecord "Invalid TLS configuration in" path e, .error e)

def load [Yaml.Room] (fs : FileSystem) (path : Str) :
    List Record × Except LoadError SecurityPolicy :=
  loadAt fs fs path

def credential [KeyLibrary] (first second : FileSystem) (p : SecurityPolicy) :
    Except LoadError (Option Credential) :=
  match p.provider? with
  | none => .ok none
  | some provider => (provider.credential first second).map some

end SecurityPolicy

end TlsGate.Policy
