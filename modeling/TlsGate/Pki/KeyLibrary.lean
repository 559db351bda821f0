import TlsGate.Pki.PrivateKey

/-!
The reading of keys. There are many kinds of keys, and which of them can be read, in which forms,
and used in handshakes is the matter of libraries; the server only compares the keys that it is
given.
-/

set_option autoImplicit false
set_option relaxedAutoImplicit false

namespace TlsGate.Pki

/-- The libraries that read keys: the one of the server, and that of an engine that reads files
itself. -/
class KeyLibrary where
  publicKey : Algorithm → Bytes → Except KeyFault PublicKey
  privateKey : (file : Bytes) → Except PrivateKeyFault PrivateKey
  engineKey? : (file : Bytes) → Option PrivateKey
  takes : PublicKey → Bool

end TlsGate.Pki
