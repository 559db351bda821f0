import TlsGate.Pki.PrivateKey
import TlsGate.Pki.TrustPool

/-!
What a server shows to its clients: a chain of certificates, the own one first, and the private key
of that one.
-/

set_option autoImplicit false
set_option relaxedAutoImplicit false

namespace TlsGate.Pki

open Config

/-- A chain of certificates with the private key of the first one, and the files they came from. -/
structure Credential where
  certPath : Str
  keyPath : Str
  leaf : Certificate
  others : List Certificate
  key : PrivateKey
  deriving DecidableEq, Repr

namespace Credential

variable [KeyLibrary]

def chain (c : Credential) : List Certificate := c.leaf :: c.others

def same (a b : Credential) : Bool :=
  a.certPath == b.certPath && a.keyPath == b.keyPath && a.chain == b.chain

def unreadable (path : Str) (fault : FileFault) : LoadError :=
  .ofFault (.materialUnreadable path) fault

def readChain (path : Str) (file : Bytes) :
    Except LoadError (Certificate × List Certificate) :=
  match Certificate.allOfPem file with
  | .ok chain => .ok chain
  | .error .malformed => .error (.config (.invalidCertificate path "the certificate is damaged"))
  | .error .version => .error .certificateVersion

def readKey (path : Str) (file : Bytes) : Except LoadError PrivateKey :=
  match KeyLibrary.privateKey file with
  | .ok key => .ok key
  | .error fault => .error (.config (.invalidKey path fault.message))

/-- The credential of two files with their contents; the key has to belong to the first
certificate. -/
def ofFiles (certPath keyPath : Str) (certFile keyFile : Bytes) :
    Except LoadError Credential := do
  let (leaf, others) ← readChain certPath certFile
  let key ← readKey keyPath keyFile
  match leaf.publicKey with
  | .error fault => .error (.certificateKey fault)
  | .ok found =>
    if found = key.publicKey then .ok ⟨certPath, keyPath, leaf, others, key⟩
    else .error (.config (.mismatch keyPath certPath))

/-- Loads a credential. The files are read one after the other, so each of them is seen as it is in
its own moment. -/
def load (first second : FileSystem) (certPath keyPath : Str) : Except LoadError Credential :=
  if keyPath.isEmpty then .error (.config (.keyMissing certPath))
  else
    match first.read certPath, second.read keyPath with
    | .error fault, _ => .error (unreadable certPath fault)
    | _, .error fault => .error (unreadable keyPath fault)
    | .ok certFile, .ok keyFile => ofFiles certPath keyPath certFile keyFile

end Credential

end TlsGate.Pki
