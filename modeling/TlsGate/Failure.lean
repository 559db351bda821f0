/-!
What can go wrong while a connection is served: a stream operation ends without a result, a
response cannot be sent, or an application fails.
-/

set_option autoImplicit false
set_option relaxedAutoImplicit false

namespace TlsGate

inductive Breakage where
  | lost
  | handshakeCut
  | engine (detail : String)
  deriving DecidableEq, Repr

/-- What the error of a broken stream says, unless the transport speaks for itself. -/
def Breakage.message? : Breakage → Option String
  | lost => none
  | handshakeCut => some "Connection closed during a TLS handshake."
  | engine detail => some ("TLS error: " ++ detail)

inductive StreamFault where
  | ended
  | broken (why : Breakage)
  | closed
  | reset
  /-- The TLS engine met bytes that are no TLS record, and its stream shows the engine's error. -/
  | badRecord
  | exit
  deriving DecidableEq, Repr

inductive Unsendable where
  | status
  | fieldName
  | fieldValue
  | framing
  | tooMuchData
  | tooLittleData
  | switched
  deriving DecidableEq, Repr

inductive Failure where
  | stream (fault : StreamFault)
  | unsendable (why : Unsendable)
  | noResponse
  | raised (name : String)
  deriving DecidableEq, Repr

def Failure.exits : Failure → Bool
  | .stream .exit => true
  | .raised name => name == "SystemExit" || name == "KeyboardInterrupt"
  | _ => false

end TlsGate
