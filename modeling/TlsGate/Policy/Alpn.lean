import TlsGate.Bytes

/-!
Negotiation of the application protocol during a TLS handshake. The server's list is the order of
preference, and a client that offers none of its protocols goes on without one.
-/

set_option autoImplicit false
set_option relaxedAutoImplicit false

namespace TlsGate.Policy

inductive AlpnFault where
  | notAscii
  | length
  deriving DecidableEq, Repr

namespace Alpn

def encode (protocols : List String) : Except AlpnFault (List Bytes) :=
  if protocols.all fun p => p.toList.all fun c => c.toNat < 128 then
    .ok (protocols.map Bytes.ofString)
  else .error .notAscii

/-- Protocol names as they stand in a handshake message: ASCII, and one to 255 bytes each. The
first bad name in the list decides the fault. -/
def wire (protocols : List String) : Except AlpnFault (List Bytes) :=
  protocols.mapM fun p =>
    if !(p.toList.all fun c => c.toNat < 128) then .error .notAscii
    else if p.isEmpty || 255 < p.length then .error .length
    else .ok (Bytes.ofString p)

def select (supported offered : List Bytes) : Option Bytes :=
  supported.find? offered.contains

end Alpn

end TlsGate.Policy
