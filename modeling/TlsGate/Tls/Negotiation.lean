import TlsGate.Policy.Context

/-!
What the two parties of a handshake come to, given the context of the server and the offer of the
client: which version and which application protocol they use, which certificate the client is
shown, and whether the client is admitted.
-/

set_option autoImplicit false
set_option relaxedAutoImplicit false

namespace TlsGate.Tls

open Pki Policy

inductive Version where
  | v12
  | v13
  deriving DecidableEq, Repr

def Version.name : Version → String
  | v12 => "TLSv1.2"
  | v13 => "TLSv1.3"

structure Offer where
  /-- The only version, if the client insists on one; otherwise the newer one is used. -/
  only? : Option Version := none
  protocols : List Bytes := []
  /-- The certificates of the client, its own first. -/
  chain : List Certificate := []
  deriving DecidableEq, Repr

/-- How certificates of clients are checked: the verdicts of the engine on what a client sent, its
own certificate and others, given the certificates that are trusted; and the certificates that the
system trusts. -/
structure Surroundings where
  verdicts : (roots : List Certificate) → (own : Certificate) → (offered : List Certificate) →
    List Bool
  systemRoots : List Certificate := []

/-- What a server answers to a client before it knows who the client is. -/
structure Greeting where
  version : Version
  protocol? : Option Bytes
  shown : Certificate
  deriving DecidableEq, Repr

def trusted (here : Surroundings) : Roots → List Certificate
  | .nothing => []
  | .system => here.systemRoots
  | .pool certificates => certificates

def isKnownToClients : PublicKey → Bool
  | .rsa .. => true
  | .ec curve _ _ => [Crypto.Curve.p256, Crypto.Curve.p384, Crypto.Curve.p521].contains curve
  | .ed25519 _ => true
  | _ => false

def greeting? (identity? : Option Identity) (protocols? : Option (List Bytes)) (offer : Offer) :
    Option Greeting := do
  let identity ← identity?
  if isKnownToClients identity.key.publicKey then
    some ⟨offer.only?.getD .v13, protocols?.bind fun supported =>
      Alpn.select supported offer.protocols, identity.leaf⟩
  else none

end TlsGate.Tls

namespace TlsGate.Policy

open Pki Tls

namespace Context

def asks : Context → Bool
  | verifying c => c.verify != .never
  | callback c => c.flags.contains .peer

def demands : Context → Bool
  | verifying c => c.verify == .required
  | callback c => c.flags.contains .failIfNoPeer

/-- Whether a verdict lets a certificate pass: an engine without a callback takes it as it is. -/
def accepts : Context → (verdict : Bool) → Bool
  | verifying _, verdict => verdict
  | callback c, verdict => c.acceptsAny || verdict

def roots : Context → Roots
  | verifying c => c.roots
  | callback c => c.roots

def admits (here : Surroundings) (c : Context) : (chain : List Certificate) → Bool
  | [] => !c.asks || !c.demands
  | own :: offered => !c.asks || (here.verdicts (trusted here c.roots) own offered).all c.accepts

def identity? : Context → Option Identity
  | verifying c => c.identity?
  | callback c => c.identity?

def protocols? : Context → Option (List Bytes)
  | verifying c => c.protocols?
  | callback c => c.protocols?

def hasCallback : Context → Bool
  | verifying _ => false
  | callback _ => true

def greeting? (c : Context) (offer : Offer) : Option Greeting :=
  Tls.greeting? c.identity? c.protocols? offer

def peer? (c : Context) (offer : Offer) : Option Certificate :=
  if c.asks then offer.chain.head? else none

end Context

end TlsGate.Policy
