import TlsGate.Http.Grammar

/-!
Request heads: a request line and header fields. A head that breaks a rule of HTTP is refused with
a fault, and the fault knows the status of the answer.
-/

set_option autoImplicit false
set_option relaxedAutoImplicit false

namespace TlsGate.Http

open TlsGate.Text

inductive Fault where
  | requestLine
  | noRequestLine
  | fieldLine
  | continuation
  | contentLength
  | conflictingLengths
  | transferCoding
  | repeatedCoding
  | hostMissing
  | hostRepeated
  | chunkSize
  | chunkEnd
  | headTooLong
  | cutOff
  | bodyTooLarge (limit : Int)
  deriving DecidableEq, Repr

namespace Fault

def status : Fault → Int
  | transferCoding => 501
  | repeatedCoding => 501
  | headTooLong => 431
  | bodyTooLarge _ => 413
  | _ => 400

def message : Fault → String
  | requestLine => "illegal request line"
  | noRequestLine => "no request line received"
  | fieldLine => "illegal header line"
  | continuation => "continuation line at start of headers"
  | contentLength => "bad Content-Length"
  | conflictingLengths => "conflicting Content-Length headers"
  | transferCoding => "only Transfer-Encoding: chunked is supported"
  | repeatedCoding => "multiple Transfer-Encoding headers"
  | hostMissing => "missing mandatory Host header"
  | hostRepeated => "found multiple Host headers"
  | chunkSize => "illegal chunk header"
  | chunkEnd => "malformed chunk footer"
  | headTooLong => "receive buffer too long"
  | cutOff => "peer unexpectedly closed connection"
  | bodyTooLarge limit => "Request body exceeds " ++ toString limit ++ " bytes."

end Fault

inductive Framing where
  | length (n : Nat)
  | chunked
  deriving DecidableEq, Repr

def transferEncoding : Bytes := Bytes.ofString "transfer-encoding"

def chunkedCoding : Bytes := Bytes.ofString "chunked"

def connectionName : Bytes := Bytes.ofString "connection"

def closeOption : Bytes := Bytes.ofString "close"

def hostName : Bytes := Bytes.ofString "host"

def parseLength (value : Bytes) : Except Fault Bytes :=
  match (fields 44 value).map (trim isBlank) with
  | [] => .error .conflictingLengths
  | first :: others =>
    if !others.all (· == first) then .error .conflictingLengths
    else if first.isEmpty || !first.all Bytes.isDigit || 20 < first.length then
      .error .contentLength
    else .ok first

/-- Checks the framing fields in the order they stand in. A second field that states the same
length is dropped. The state is the stated length and whether a coding was seen. -/
def checkFraming : (length : Option Bytes) → (coded : Bool) → List Field → Except Fault (List Field)
  | _, _, [] => .ok []
  | length, coded, (name, value) :: rest =>
    if name = contentLength then do
      let stated ← parseLength value
      match length with
      | none => return (name, stated) :: (← checkFraming (some stated) coded rest)
      | some before =>
        if before ≠ stated then throw .conflictingLengths
        checkFraming length coded rest
    else if name = transferEncoding then do
      if coded then throw .repeatedCoding
      if Bytes.toLower value ≠ chunkedCoding then throw .transferCoding
      return (name, Bytes.toLower value) :: (← checkFraming length true rest)
    else return (name, value) :: (← checkFraming length coded rest)

/-- Chunked coding wins over a stated length; without either there is no body. -/
def framingOf (fs : List Field) : Framing :=
  if !(elements transferEncoding fs).isEmpty then .chunked
  else match elements contentLength fs with
    | length :: _ => .length (Bytes.decimalValue length)
    | [] => .length 0

structure Head where
  line : RequestLine
  fields : List Field
  deriving DecidableEq, Repr

namespace Head

def isModern (h : Head) : Bool := Bytes.lessOrEqual [49, 46, 49] h.line.version

def keepsAlive (h : Head) : Bool :=
  h.isModern && !(elements connectionName h.fields).contains closeOption

def statedLength? (h : Head) : Option Nat :=
  (h.fields.find? (·.1 == contentLength)).map fun f => Bytes.decimalValue f.2

def request (h : Head) (body : Bytes) : Request where
  method := (Bytes.toString? h.line.method).getD ""
  target := (Bytes.toString? h.line.target).getD ""
  fields := h.fields
  body := body
  version := "HTTP/" ++ (Bytes.toString? h.line.version).getD ""

def parse : (lines : List Bytes) → Except Fault Head
  | [] => .error .noRequestLine
  | first :: others => do
    let some line := RequestLine.parse? first | throw .requestLine
    let some unfolded := joinFolded? others | throw .continuation
    let some fs := unfolded.mapM parseField? | throw .fieldLine
    let fs ← checkFraming none false fs
    let hosts := (fs.filter (·.1 == hostName)).length
    if line.version = [49, 46, 49] ∧ hosts = 0 then throw .hostMissing
    if 1 < hosts then throw .hostRepeated
    return ⟨line, fs⟩

end Head

end TlsGate.Http
