/-!
How strictly a server demands a certificate from its clients. The modes are ordered by strength,
and each has a name in configuration files except the weakest, which is meant when none is named.
-/

set_option autoImplicit false
set_option relaxedAutoImplicit false

namespace TlsGate.Policy

/-- A client authentication mode. -/
inductive ClientAuth where
  | none
  | request
  | requireAny
  | verifyIfGiven
  | requireAndVerify
  deriving DecidableEq, Repr

namespace ClientAuth

def all : List ClientAuth := [none, request, requireAny, verifyIfGiven, requireAndVerify]

def strength : ClientAuth → Nat
  | none => 0
  | request => 1
  | requireAny => 2
  | verifyIfGiven => 3
  | requireAndVerify => 4

def ofStrength? (n : Int) : Option ClientAuth := all.find? fun m => (m.strength : Int) == n

def label : ClientAuth → String
  | none => "NO_CLIENT_CERT"
  | request => "REQUEST_CLIENT_CERT"
  | requireAny => "REQUIRE_ANY_CLIENT_CERT"
  | verifyIfGiven => "VERIFY_CLIENT_CERT_IF_GIVEN"
  | requireAndVerify => "REQUIRE_AND_VERIFY_CLIENT_CERT"

def ofLabel? (s : String) : Option ClientAuth := all.find? (·.label == s)

def ofName? : String → Option ClientAuth
  | "RequestClientCert" => some request
  | "RequireClientCert" => some requireAny
  | "VerifyClientCertIfGiven" => some verifyIfGiven
  | "RequireAndVerifyClientCert" => some requireAndVerify
  | _ => Option.none

def requiresCertificate : ClientAuth → Bool
  | requireAny => true
  | requireAndVerify => true
  | _ => false

def acceptsUntrusted : ClientAuth → Bool
  | request => true
  | requireAny => true
  | _ => false

def upTo (m : ClientAuth) : List ClientAuth := all.filter fun k => k.strength ≤ m.strength

end ClientAuth

/-- What an engine that verifies every certificate it is sent can be told about client
certificates. -/
inductive VerifyMode where
  | never
  | optional
  | required
  deriving DecidableEq, Repr

/-- What an engine with a verification callback can be told about client certificates. -/
inductive VerifyFlag where
  | peer
  | failIfNoPeer
  deriving DecidableEq, Repr

namespace ClientAuth

/-- The mode of an engine that verifies every certificate; such an engine cannot accept a
certificate without verifying it. -/
def verifyMode? : ClientAuth → Option VerifyMode
  | request => Option.none
  | requireAny => Option.none
  | none => some .never
  | requireAndVerify => some .required
  | verifyIfGiven => some .optional

def verifyFlags : ClientAuth → List VerifyFlag
  | none => []
  | m => if m.requiresCertificate then [.peer, .failIfNoPeer] else [.peer]

end ClientAuth

end TlsGate.Policy
