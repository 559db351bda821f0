import TlsGate.Text.Quoted

/-!
An address that a server listens at, and its two printed forms. A host that has a colon is printed
between brackets, so that the last colon of the text always starts the port.
-/

set_option autoImplicit false
set_option relaxedAutoImplicit false

namespace TlsGate.Address

/-- A host and a port; the empty host stands for all interfaces. -/
structure ListenAddress where
  host : String
  port : Int
  deriving DecidableEq, Repr, Inhabited

namespace ListenAddress

def text (a : ListenAddress) : String :=
  if a.host.toList.contains ':' then "[" ++ a.host ++ "]:" ++ toString a.port
  else a.host ++ ":" ++ toString a.port

def shown (a : ListenAddress) : String :=
  "<ListenAddress: " ++ Text.quoted a.text ++ ">"

end ListenAddress

end TlsGate.Address
