import TlsGate.Http.Reading
import TlsGate.Http.Reply
import TlsGate.Log
import TlsGate.Stream.Basic

/-!
Serving HTTP/1.1 on one stream. The requests of a connection are answered one after the other, each
by one call of the application, until the client closes, a request is refused, or a response ends
the connection. A run is recorded as the list of what happened, in order.
-/

set_option autoImplicit false
set_option relaxedAutoImplicit false

namespace TlsGate.Http

open TlsGate.Log

inductive Answer where
  | response (r : Response)
  | nothing
  | raised (name : String)
  deriving DecidableEq, Repr

structure Application (τ : Type) where
  answer : Request → τ → Answer × τ

inductive Event where
  | received (data : Bytes)
  | receiveFailed (fault : StreamFault)
  | called (request : Request) (answer : Answer)
  | sent (data : Bytes)
  | sendFailed (data : Bytes) (fault : StreamFault)
  | logged (record : Record)
  deriving DecidableEq, Repr

/-- The end of a run; the outcome is missing if the steps allowed were too few. -/
structure Run (σ τ : Type) where
  events : List Event
  outcome : Option (Except Failure Unit)
  stream : σ
  application : τ

namespace Run

variable {σ τ : Type}

def after (events : List Event) (run : Run σ τ) : Run σ τ :=
  { run with events := events ++ run.events }

def requests (run : Run σ τ) : List Request :=
  run.events.filterMap fun
    | .called request _ => some request
    | _ => none

def records (run : Run σ τ) : List Record :=
  run.events.filterMap fun
    | .logged record => some record
    | _ => none

end Run

def defaultBodyLimit : Int := 1024 * 1024

def receiveSize : Nat := 65536

def protocols : List String := ["http/1.1"]

variable {σ τ : Type}

/-- The end of a run by a fault of the stream: a lost connection is logged, anything else goes to
the caller. -/
def stopAt (fault : StreamFault) (stream : σ) (application : τ) : Run σ τ :=
  match fault with
  | .broken _ => ⟨[.logged ⟨.http, .debug, "Connection lost: BrokenResourceError", none, none⟩],
      some (.ok ()), stream, application⟩
  | .closed => ⟨[.logged ⟨.http, .debug, "Connection lost: ClosedResourceError", none, none⟩],
      some (.ok ()), stream, application⟩
  | _ => ⟨[], some (.error (.stream fault)), stream, application⟩

def sendAll (io : ByteStream σ) : List Bytes → σ → List Event × Option StreamFault × σ
  | [], stream => ([], none, stream)
  | piece :: others, stream =>
    match io.send piece stream with
    | (some fault, stream) => ([.sendFailed piece fault], some fault, stream)
    | (none, stream) =>
      let (events, fault, stream) := sendAll io others stream
      (.sent piece :: events, fault, stream)

/-- Sends what is written for a response, and goes on unless something went wrong. -/
def sendReply (io : ByteStream σ) (reply : Transmission) (stream : σ) (application : τ)
    (next : σ → Run σ τ) : Run σ τ :=
  let (events, fault, stream) := sendAll io reply.pieces stream
  Run.after events <|
    match fault, reply.fault with
    | some fault, _ => stopAt fault stream application
    | none, some why => ⟨[], some (.error (.unsendable why)), stream, application⟩
    | none, none =>
      if reply.keepsAlive then next stream else ⟨[], some (.ok ()), stream, application⟩

def failureResponse : Response := { status := 500 }

def refusalRecord (fault : Fault) : Record :=
  match fault with
  | .bodyTooLarge _ => ⟨.http, .info, "Invalid HTTP request: " ++ fault.message, none, none⟩
  | _ => ⟨.http, .info, "Invalid HTTP request: ", some fault.message, none⟩

def Progress.peer : Progress → Peer
  | .head => Peer.unknown
  | .body start .. => start.peer

/-- Serves a connection for a number of steps, each of which receives once or answers once. -/
def serve (app : Application τ) (limit : Int) (io : ByteStream σ) :
    (steps : Nat) → Progress → Inbox → σ → τ → Run σ τ
  | 0, _, _, stream, application => ⟨[], none, stream, application⟩
  | steps + 1, progress, inbox, stream, application =>
    match readOn limit progress inbox with
    | .waiting progress inbox =>
      match io.receive receiveSize stream with
      | (.ok data, stream) =>
        (serve app limit io steps progress
          { buffer := inbox.buffer ++ data, closed := data.isEmpty } stream application).after
          [.received data]
      | (.error .ended, stream) =>
        (serve app limit io steps progress { inbox with closed := true } stream application).after
          [.receiveFailed .ended]
      | (.error fault, stream) => (stopAt fault stream application).after [.receiveFailed fault]
    | .finished => ⟨[], some (.ok ()), stream, application⟩
    | .refused fault progress =>
      (sendReply io (transmit progress.peer { status := fault.status }) stream application
        fun stream => ⟨[], some (.ok ()), stream, application⟩).after
        [.logged (refusalRecord fault)]
    | .request head body inbox =>
      let request := head.request body
      let (answer, application) := app.answer request application
      let goOn := fun stream => serve app limit io steps .head inbox stream application
      Run.after [.called request answer] <|
        match answer with
        | .response response => sendReply io (transmit head.peer response) stream application goOn
        | .nothing => ⟨[], some (.error .noResponse), stream, application⟩
        | .raised name =>
          if (Failure.raised name).exits then
            ⟨[], some (.error (.raised name)), stream, application⟩
          else
            (sendReply io (transmit head.peer failureResponse) stream application goOn).after
              [.logged ⟨.http, .error, request.method ++ " " ++ request.target ++
                ": application thrown an unhandled exception:", none, some (.raised name)⟩]

end TlsGate.Http
