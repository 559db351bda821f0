import TlsGate.Http.Reply

/-!
A client that reads responses. It finds the lines of a head by their ends, reads the status and the
fields, and finds the end of a body as RFC 7230 has it: some responses have no body, a coding wins
over a stated length, and without either a body goes on to the end of the stream. The client knows
the methods of its requests and nothing else.
-/

set_option autoImplicit false
set_option relaxedAutoImplicit false

namespace TlsGate.Http

open TlsGate.Text

/-- A response as a client reads it. -/
structure Received where
  status : Nat
  fields : List Field
  body : Bytes
  deriving DecidableEq, Repr

namespace Client

def line? : Bytes → Option (Bytes × Bytes)
  | [] => none
  | 13 :: 10 :: rest => some ([], rest)
  | b :: rest => (line? rest).map fun found => (b :: found.1, found.2)

def status? : Bytes → Option Nat
  | 72 :: 84 :: 84 :: 80 :: 47 :: 49 :: 46 :: minor :: 32 :: x :: y :: z :: 32 :: _ =>
    if [minor, x, y, z].all Bytes.isDigit then some (Bytes.decimalValue [x, y, z]) else none
  | _ => none

def field? (text : Bytes) : Option Field :=
  match cutFirst 58 text with
  | (name, some value) => if isToken name then some (name, trim isBlank value) else none
  | (_, none) => none

private theorem line?_length {input text rest : Bytes} (h : line? input = some (text, rest)) :
    rest.length < input.length := by
  fun_induction line? input generalizing text with
  | case1 => cases h
  | case2 after =>
    cases h
    simp only [List.length_cons]
    omega
  | case3 b after _ ih =>
    obtain ⟨⟨found, left⟩, hfound, heq⟩ := Option.map_eq_some_iff.1 h
    cases heq
    exact Nat.lt_succ_of_lt (ih hfound)

def fields? (input : Bytes) : Option (List Field × Bytes) :=
  match _h : line? input with
  | none => none
  | some ([], rest) => some ([], rest)
  | some (text, rest) => do
    let f ← field? text
    let (others, after) ← fields? rest
    return (f :: others, after)
termination_by input.length
decreasing_by exact line?_length _h

def chunks? (input : Bytes) : Option (Bytes × Bytes) :=
  match _h : line? input with
  | none => none
  | some (text, rest) =>
    match parseChunkSize? text with
    | none => none
    | some 0 => (fields? rest).map fun found => ([], found.2)
    | some size =>
      if size ≤ rest.length then
        match _hend : rest.drop size with
        | 13 :: 10 :: left => (chunks? left).map fun found => (rest.take size ++ found.1, found.2)
        | _ => none
      else none
termination_by input.length
decreasing_by
  have hline := line?_length _h
  have hdrop := congrArg List.length _hend
  simp only [List.length_drop, List.length_cons] at hdrop
  omega

inductive Delimiter where
  | nothing
  | counted (n : Nat)
  | chunked
  | close
  deriving DecidableEq, Repr

/-- How the end of the body of a response to a method is found; lengths that contradict each other
delimit nothing. -/
def delimiter? (method : Bytes) (status : Nat) (fs : List Field) : Option Delimiter :=
  let lowered := fs.map fun f => (Bytes.toLower f.1, f.2)
  let tunnel := method == connectMethod && status / 100 == 2
  if method == headMethod || status / 100 == 1 || status == 204 || status == 304 || tunnel then
    some .nothing
  else match (elements transferEncoding lowered).getLast?, elements contentLength lowered with
    | some coding, _ => some (if coding == chunkedCoding then .chunked else .close)
    | none, [] => some .close
    | none, length :: others =>
      if length.all Bytes.isDigit && others.all (· == length) then
        some (.counted (Bytes.decimalValue length))
      else none

def body? : Delimiter → Bytes → Option (Bytes × Bytes)
  | .nothing, input => some ([], input)
  | .counted n, input => if n ≤ input.length then some (input.take n, input.drop n) else none
  | .chunked, input => chunks? input
  | .close, input => some (input, [])

/-- The first response to a request with a method, and what follows it. -/
def response? (method input : Bytes) : Option (Received × Bytes) := do
  let (first, rest) ← line? input
  let status ← status? first
  let (fs, rest) ← fields? rest
  let delimiter ← delimiter? method status fs
  let (body, rest) ← body? delimiter rest
  return (⟨status, fs, body⟩, rest)

/-- The responses to requests in order, and what follows them. -/
def responses? : (methods : List Bytes) → Bytes → Option (List Received × Bytes)
  | [], input => some ([], input)
  | method :: others, input => do
    let (got, rest) ← response? method input
    let (later, rest) ← responses? others rest
    return (got :: later, rest)

/-- A body in chunks, and one that the stream ends. -/
example :
    responses? [Bytes.ofString "GET", Bytes.ofString "GET"]
      (Bytes.ofString "HTTP/1.1 200 OK\r\nTransfer-Encoding: chunked\r\n\r\n2\r\nab\r\n0\r\n\r\n" ++
        Bytes.ofString "HTTP/1.0 404 Not Found\r\n\r\nc") =
    some ([⟨200, [(Bytes.ofString "Transfer-Encoding", chunkedCoding)], Bytes.ofString "ab"⟩,
      ⟨404, [], Bytes.ofString "c"⟩], []) := by
  decide +kernel

end Client

end TlsGate.Http
