import TlsGate.Pki.Constraints
import TlsGate.Pki.PemLines
import TlsGate.Policy.Alpn
import TlsGate.Policy.SecurityPolicy

/-!
Contexts: what a TLS engine is told before a handshake. There are two kinds of engines. A verifying
engine checks every certificate that a client sends and reads the own credential from files itself;
an engine with a callback lets the server decide about each verdict on a certificate and is handed
the credential. Both are told of the same policy, and a policy that accepts certificates without
verification needs the second kind.
-/

set_option autoImplicit false
set_option relaxedAutoImplicit false

namespace TlsGate.Policy

open Config Pki

inductive Roots where
  | nothing
  | system
  | pool (certificates : List Certificate)
  deriving DecidableEq, Repr

structure Identity where
  leaf : Certificate
  others : List Certificate
  key : PrivateKey
  deriving DecidableEq, Repr

/-- A context of an engine that verifies every certificate. -/
structure VerifyingContext where
  verify : VerifyMode
  roots : Roots
  identity? : Option Identity := none
  protocols? : Option (List Bytes) := none
  deriving DecidableEq, Repr

structure CallbackContext where
  flags : List VerifyFlag
  acceptsAny : Bool
  /-- The encoded names of the authorities, a hint for clients. -/
  names : List Bytes
  roots : Roots
  identity? : Option Identity := none
  protocols? : Option (List Bytes) := none
  deriving DecidableEq, Repr

inductive Context where
  | verifying (c : VerifyingContext)
  | callback (c : CallbackContext)
  deriving DecidableEq, Repr

def storeCounts (certificates : List Certificate) : Nat × Nat :=
  let distinct := certificates.eraseDups
  (distinct.length, distinct.countP Certificate.isAuthority)

inductive ContextError where
  | load (e : LoadError)
  | notEnforceable (mode : ClientAuth)
  | engine
  | emptyPool
  | protocols (fault : AlpnFault)
  deriving DecidableEq, Repr

namespace ContextError

def config (e : ConfigError) : ContextError := .load (.config e)

def config? : ContextError → Option ConfigError
  | .load (.config e) => some e
  | _ => none

def notEnforceableText (mode : ClientAuth) : String :=
  mode.label ++ " cannot be enforced by the ssl module."

end ContextError

/-- The three moments, or four, at which files are read while a context is made. -/
structure Moments where
  certFile : FileSystem
  keyFile : FileSystem
  /-- When the engine itself reads the file with the certificate. -/
  engineCertFile : FileSystem
  engineKeyFile : FileSystem

def Moments.at (fs : FileSystem) : Moments := ⟨fs, fs, fs, fs⟩

namespace Identity

variable [KeyLibrary]

def refused (path : Str) : ContextError :=
  .config (.unusableCertificate path "the engine refuses the certificate")

def isUsable (leaf : Certificate) (key : PrivateKey) : Bool :=
  match leaf.publicKey with
  | .ok found => found == key.publicKey && KeyLibrary.takes found
  | .error _ => false

/-- The error for a path that is refused before anything is read. -/
def pathRefusal? : Except FileFault Bytes → Option LoadError
  | .error .nulInPath => some .nulInPath
  | .error .unencodable => some .unencodable
  | _ => none

/-- Reads a credential once more, as a verifying engine does; it takes both paths before it reads.
-/
def reread (at' : Moments) (certPath keyPath : Str) : Except ContextError Identity :=
  let certFile := at'.engineCertFile.read certPath
  let keyFile := at'.engineKeyFile.read keyPath
  match (pathRefusal? certFile).or (pathRefusal? keyFile) with
  | some e => .error (.load e)
  | none =>
    let found := do
      let (leaf, others) ← PemLines.chain? (← certFile.toOption)
      let key ← KeyLibrary.engineKey? (← keyFile.toOption)
      if isUsable leaf key then some (⟨leaf, others, key⟩ : Identity) else none
    match found with
    | some identity => .ok identity
    | none => .error (refused certPath)

/-- Hands a credential to an engine with a callback: the own certificate, the rest of the chain, and
the key. -/
def install (c : Credential) : Except ContextError Identity :=
  if !PemLines.readsCertificate c.leaf then .error .engine
  else if !isUsable c.leaf c.key then .error (refused c.certPath)
  else if !c.others.all PemLines.readsCertificate then .error .engine
  else .ok ⟨c.leaf, c.others, c.key⟩

end Identity

namespace SecurityPolicy

variable [KeyLibrary]

def casRefused : ContextError := .config (.unusableCas "the engine refuses a certificate")

def verifyingRoots (p : SecurityPolicy) : Except ContextError Roots :=
  match p.pool? with
  | some pool =>
    if pool.certificates.isEmpty then .error .emptyPool
    else if pool.certificates.all PemLines.readsCertificate then .ok (.pool pool.certificates)
    else .error casRefused
  | none => .ok (if p.clientAuth = .none then .nothing else .system)

def identity (at' : Moments) (p : SecurityPolicy)
    (install : Credential → Except ContextError Identity) :
    Except ContextError (Option Identity) :=
  match p.credential at'.certFile at'.keyFile with
  | .error e => .error (.load e)
  | .ok none => .ok none
  | .ok (some c) => (install c).map some

def verifyingContext (at' : Moments) (p : SecurityPolicy) (protocols? : Option (List String)) :
    Except ContextError VerifyingContext :=
  match p.clientAuth.verifyMode? with
  | none => .error (.notEnforceable p.clientAuth)
  | some verify => do
    let roots ← p.verifyingRoots
    let identity ← p.identity at' fun c => Identity.reread at' c.certPath c.keyPath
    let protocols ← match protocols? with
      | none => .ok none
      | some names => match Alpn.wire names with
        | .ok encoded => .ok (some encoded)
        | .error fault => .error (.protocols fault)
    return ⟨verify, roots, identity, protocols⟩

/-- The certificates that a context with a callback trusts; the names of a pool are a hint even if
nothing is verified. -/
def callbackRoots (p : SecurityPolicy) : Except ContextError (Roots × List Bytes) :=
  match p.pool? with
  | some pool =>
    if pool.certificates.all PemLines.readsCertificate then
      .ok (if p.clientAuth.acceptsUntrusted then .nothing else .pool pool.certificates,
        pool.certificates.map fun c => c.subject.encoded)
    else .error .engine
  | none =>
    .ok (if p.clientAuth = .verifyIfGiven ∨ p.clientAuth = .requireAndVerify then .system
      else .nothing, [])

def callbackContext (at' : Moments) (p : SecurityPolicy) (protocols? : Option (List String)) :
    Except ContextError CallbackContext := do
  let (roots, names) ← p.callbackRoots
  let identity ← p.identity at' Identity.install
  let protocols ← match protocols? with
    | none => .ok none
    | some names => match Alpn.encode names with
      | .ok encoded => .ok (some encoded)
      | .error fault => .error (.protocols fault)
  return ⟨p.clientAuth.verifyFlags, p.clientAuth.acceptsUntrusted, names, roots, identity,
    protocols⟩

/-- The context for a policy: one of a verifying engine if that can enforce the policy. -/
def context (at' : Moments) (p : SecurityPolicy) (protocols? : Option (List String)) :
    Except ContextError Context :=
  if p.clientAuth.acceptsUntrusted then (p.callbackContext at' protocols?).map .callback
  else (p.verifyingContext at' protocols?).map .verifying

end SecurityPolicy

end TlsGate.Policy
