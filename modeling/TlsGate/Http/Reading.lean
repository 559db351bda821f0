import TlsGate.Http.Body

/-!
Reading a request from what has been received. Reading goes as far as the buffer allows: it ends
with a request, with the end of the connection, with a refusal, or waiting for more.
-/

set_option autoImplicit false
set_option relaxedAutoImplicit false

namespace TlsGate.Http

/-- What has been received and not yet read, and whether the client has ended its side. -/
structure Inbox where
  buffer : Bytes := []
  closed : Bool := false
  deriving DecidableEq, Repr

inductive Progress where
  | head
  /-- The head, the place in the body, and the pieces of the body so far, the last one first. -/
  | body (head : Head) (decoder : Decoder) (pieces : List Bytes) (size : Nat)
  deriving DecidableEq, Repr

inductive Reading where
  | waiting (progress : Progress) (inbox : Inbox)
  | request (head : Head) (body : Bytes) (inbox : Inbox)
  | finished
  | refused (fault : Fault) (progress : Progress)
  deriving DecidableEq, Repr

def maxIncomplete : Nat := 16384

def wait (progress : Progress) (inbox : Inbox) : Reading :=
  if inbox.closed then
    match progress with
    | .head => if inbox.buffer.isEmpty then .finished else .refused .cutOff progress
    | .body .. => .refused .cutOff progress
  else if maxIncomplete < inbox.buffer.length then .refused .headTooLong progress
  else .waiting progress inbox

def readBody (limit : Int) (head : Head) (decoder : Decoder) (pieces : List Bytes) (size : Nat)
    (inbox : Inbox) : Reading :=
  match _h : decoder.step inbox.buffer with
  | .more => wait (.body head decoder pieces size) inbox
  | .piece data rest next =>
    if limit < (size + data.length : Nat) then
      .refused (.bodyTooLarge limit) (.body head next pieces size)
    else
      readBody limit head next (data :: pieces) (size + data.length) { inbox with buffer := rest }
  | .passed rest next => readBody limit head next pieces size { inbox with buffer := rest }
  | .complete rest => .request head pieces.reverse.flatten { inbox with buffer := rest }
  | .broken fault => .refused fault (.body head decoder pieces size)
termination_by inbox.buffer.length
decreasing_by
  · exact Decoder.step_piece_length _h
  · exact Decoder.step_passed_length _h

def startsBadly (buffer : Bytes) : Bool :=
  match buffer with
  | [] => false
  | b :: _ => b < 33

def readHead (limit : Int) (inbox : Inbox) : Reading :=
  match takeLines inbox.buffer with
  | none =>
    if startsBadly inbox.buffer then .refused .requestLine .head else wait .head inbox
  | some (lines, rest) =>
    match Head.parse lines with
    | .error fault => .refused fault .head
    | .ok head =>
      let decoder := Decoder.start (framingOf head.fields)
      match head.statedLength? with
      | some n =>
        if limit < (n : Int) then .refused (.bodyTooLarge limit) (.body head decoder [] 0)
        else readBody limit head decoder [] 0 { inbox with buffer := rest }
      | none => readBody limit head decoder [] 0 { inbox with buffer := rest }

/-- Reads on from where reading waited. -/
def readOn (limit : Int) : Progress → Inbox → Reading
  | .head, inbox => readHead limit inbox
  | .body head decoder pieces size, inbox => readBody limit head decoder pieces size inbox

end TlsGate.Http
