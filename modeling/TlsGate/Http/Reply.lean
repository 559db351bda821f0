import TlsGate.Failure
import TlsGate.Http.Head

/-!
Responses as they are written on a connection. The framing of the body follows from the request
method, the status and the fields; a response whose body the client cannot delimit, and every
response to a client that does not keep the connection, says that the connection closes.
-/

set_option autoImplicit false
set_option relaxedAutoImplicit false

namespace TlsGate.Http

open TlsGate.Text

structure Peer where
  method : Option Bytes
  modern : Bool
  keepsAlive : Bool
  deriving DecidableEq, Repr

def Peer.unknown : Peer := ⟨none, false, true⟩

def Head.peer (h : Head) : Peer := ⟨some h.line.method, h.isModern, h.keepsAlive⟩

def headMethod : Bytes := Bytes.ofString "HEAD"

def connectMethod : Bytes := Bytes.ofString "CONNECT"

inductive BodyForm where
  | counted (n : Nat)
  | chunked
  | untilClose
  deriving DecidableEq, Repr

structure Transmission where
  pieces : List Bytes
  /-- What keeps the rest from being sent. -/
  fault : Option Unsendable
  keepsAlive : Bool
  deriving DecidableEq, Repr

def Response.checkedFields (r : Response) : Except Unsendable (List Field) :=
  let stated := r.statedFields
  if !(200 ≤ r.status && r.status < 1000) then .error .status
  else if !stated.all (isToken ·.1) then .error .fieldName
  else if !stated.all (isFieldValue ·.2) then .error .fieldValue
  else match checkFraming none false stated with
    | .ok fs => .ok fs
    | .error _ => .error .framing

def withoutField (name : Bytes) (fs : List Field) : List Field :=
  fs.filter (Bytes.toLower ·.1 != name)

def fieldLine (f : Field) : Bytes := f.1 ++ 58 :: 32 :: f.2 ++ [13, 10]

def writeHead (status : Int) (fs : List Field) : Bytes :=
  Bytes.ofString ("HTTP/1.1 " ++ toString status ++ " \r\n") ++
    ((fs.filter (·.1 == hostName)) ++ (fs.filter (·.1 != hostName))).flatMap fieldLine ++ [13, 10]

def sortWords (words : List Bytes) : List Bytes :=
  (words.mergeSort Bytes.lessOrEqual).eraseDups

def closingElements (fs : List Field) : List Bytes :=
  sortWords (closeOption ::
    (elements connectionName fs).filter (· != Bytes.ofString "keep-alive"))

def withClose (fs : List Field) : List Field :=
  withoutField connectionName fs ++
    (closingElements fs).map fun element => (Bytes.ofString "Connection", element)

def bodyPieces : BodyForm → (body : Bytes) → List Bytes × Option Unsendable
  | .counted n, body =>
    if n < body.length then ([], some .tooMuchData)
    else (if body.isEmpty then [] else [body],
      if body.length < n then some .tooLittleData else none)
  | .chunked, body =>
    let last := Bytes.ofString "0\r\n\r\n"
    (if body.isEmpty then [last]
      else [Bytes.ofString (String.ofList (Nat.toDigits 16 body.length) ++ "\r\n") ++ body ++
        [13, 10], last], none)
  | .untilClose, body => (if body.isEmpty then [] else [body], none)

/-- What is sent to a client for a response. -/
def transmit (peer : Peer) (r : Response) : Transmission :=
  match r.checkedFields with
  | .error why => ⟨[], some why, false⟩
  | .ok stated =>
    let head := peer.method == some headMethod
    let tunnel := peer.method == some connectMethod && r.status < 300
    let bodiless := r.status == 204 || r.status == 304 || tunnel
    let coded := !bodiless && !(elements transferEncoding stated).isEmpty
    let plain := withoutField contentLength (withoutField transferEncoding stated)
    let framed :=
      if !coded then stated
      else if peer.modern then plain ++ [(Bytes.ofString "Transfer-Encoding", chunkedCoding)]
      else plain
    let closes := !peer.keepsAlive || (coded && !peer.modern && !head)
    let fs := if closes then withClose framed else framed
    let lowered := fs.map fun f => (Bytes.toLower f.1, f.2)
    let keepsAlive := peer.keepsAlive && !(elements connectionName lowered).contains closeOption
    let opening := writeHead r.status fs
    if tunnel then ⟨[opening], some .switched, false⟩
    else
      let form :=
        if head || bodiless then .counted 0
        else match coded, peer.modern, elements contentLength lowered with
          | true, true, _ => .chunked
          | _, _, length :: _ => .counted (Bytes.decimalValue length)
          | _, _, [] => .untilClose
      let (pieces, fault) := bodyPieces form (if head then [] else r.body)
      ⟨opening :: pieces, fault, keepsAlive && fault.isNone⟩

end TlsGate.Http
