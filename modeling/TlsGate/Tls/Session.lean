import TlsGate.Tls.Record
import TlsGate.Tls.Stack

/-!
An engine for one connection: it performs the handshake that the parties can come to, opens the
records that arrive, and seals what it is given.
-/

set_option autoImplicit false
set_option relaxedAutoImplicit false

namespace TlsGate.Tls

inductive Phase where
  | start
  | greeted
  | established
  | failed
  deriving DecidableEq, Repr

/-- The state of an engine. -/
structure Session where
  /-- The answer to the client; none if the parties have nothing in common. -/
  greeting? : Option Greeting
  admits : Bool
  peer? : Option Pki.Certificate
  /-- Whether bytes are taken for one record at a time. -/
  oneRecord : Bool
  /-- Whether the end of the bytes that arrive counts as a closure alert. -/
  endCloses : Bool
  phase : Phase := .start
  input : Bytes := []
  inputEnded : Bool := false
  plain : Bytes := []
  deriving DecidableEq, Repr

namespace Session

def make (here : Surroundings) (c : Policy.Context) (offer : Offer) : Session where
  greeting? := c.greeting? offer
  admits := c.admits here offer.chain
  peer? := c.peer? offer
  oneRecord := c.hasCallback
  endCloses := !c.hasCallback

def fail {α : Type} (fault : EngineFault) (s : Session) : Step Session α :=
  { attempt := .failed fault, next := { s with phase := .failed } }

def await {α : Type} (s : Session) : Step Session α :=
  if !s.inputEnded then { attempt := .wantRead, next := s }
  else if s.endCloses then { attempt := .closed, next := s }
  else s.fail .unexpectedEnd

def version (s : Session) : Version := (s.greeting?.map Greeting.version).getD .v13

def conclude (s : Session) : Step Session Unit :=
  match Record.firstPlain s.input with
  | .more => s.await
  | .bad => s.fail .badRecord
  | .record kind payload rest =>
    if kind ≠ Record.handshakeKind || payload ≠ Record.conclusion then s.fail .badRecord
    else if !s.admits then s.fail .peerRefused
    else
      { attempt := .done ()
        emitted := Record.finished
        next := { s with phase := .established, input := rest } }

def handshake (s : Session) : Step Session Unit :=
  match s.phase with
  | .established => { attempt := .done (), next := s }
  | .failed => { attempt := .failed .shutDown, next := s }
  | .greeted => s.conclude
  | .start =>
    match Record.firstPlain s.input with
    | .more => s.await
    | .bad => s.fail .badRecord
    | .record kind payload rest =>
      if kind ≠ Record.handshakeKind || payload ≠ Record.greeting then s.fail .badRecord
      else if s.greeting?.isNone then s.fail .noAgreement
      else
        let step := conclude { s with phase := .greeted, input := rest }
        { step with emitted := Record.hello ++ step.emitted }

def receive (size : Nat) (s : Session) : Step Session Bytes :=
  if s.phase = .failed then { attempt := .failed .shutDown, next := s }
  else if s.plain ≠ [] then
    { attempt := .done (s.plain.take size), next := { s with plain := s.plain.drop size } }
  else
    match _h : Record.firstSealed s.version s.input with
    | .more => s.await
    | .bad => s.fail .badRecord
    | .record _ payload rest =>
      match Record.unseal? payload with
      | none => s.fail .badRecord
      | some (kind, content) =>
        if kind = Record.alertKind then { attempt := .closed, next := s }
        else if content = [] then receive size { s with input := rest }
        else
          { attempt := .done (content.take size)
            next := { s with input := rest, plain := content.drop size } }
termination_by s.input.length
decreasing_by
  unfold Record.firstSealed at _h
  split at _h <;> exact Record.first_length _h

def send (data : Bytes) (s : Session) : Step Session Nat :=
  if s.phase ≠ .established then { attempt := .failed .shutDown, next := s }
  else
    let taken := if s.oneRecord then data.take Record.most else data
    { attempt := .done taken.length, emitted := Record.ofData taken, next := s }

def feed (b : Bytes) (s : Session) : Session := { s with input := s.input ++ b }

def finish (s : Session) : Session := { s with inputEnded := true }

def engine : Engine Session where
  handshake := handshake
  receive := receive
  send := send
  feed := feed
  finish := finish

def stored (s : Session) : Nat := s.input.length + s.plain.length

/-- More steps than a handler can take that does something with each byte it receives and once more
at the end. -/
def enoughSteps (c : Channel Session) : Nat :=
  2 * (c.transport.size + (c.engine?.map stored).getD 0) + 4

def stack (here : Surroundings) : Stack Session where
  engine := engine
  start := make here
  facts s := ⟨s.version, s.greeting?.bind Greeting.protocol?, s.peer?⟩

end Session

end TlsGate.Tls
