import TlsGate.Proofs.Http.Plain
import TlsGate.Proofs.Http.Serving

/-!
The two sides of a connection. Each side of an HTTP exchange is in a state of its own, and the
states move with the parts of requests and responses that go past, with the client's wish to end the
connection, and with proposals to switch to another protocol. Serving can be driven by these states
alone: an error response is sent only if the server may still respond, and the next request is read
only if both sides are done. Main statement: that is the same as serving.
-/

set_option autoImplicit false
set_option relaxedAutoImplicit false

namespace TlsGate.Http

/-! ## States of the sides -/

inductive SideState where
  | idle
  | sendResponse
  | sendBody
  | done
  | mustClose
  | closed
  | error
  | mightSwitch
  | switched
  deriving DecidableEq, Repr

/-- Both sides of a connection, whether it may live on, and what the client has proposed. -/
structure Sides where
  client : SideState := .idle
  server : SideState := .idle
  keepsAlive : Bool := true
  tunnel : Bool := false
  upgrade : Bool := false
  deriving DecidableEq, Repr

namespace Sides

def closing (s : Sides) (side : SideState) : SideState :=
  if side = .done ∧ s.keepsAlive = false then .mustClose else side

def waiting (s : Sides) : SideState :=
  match s.client, s.tunnel || s.upgrade with
  | .done, true => .mightSwitch
  | .mightSwitch, false => .done
  | client, _ => client

def settleOnce (s : Sides) : Sides :=
  match s.closing s.waiting, s.closing s.server with
  | .mightSwitch, .switched => { s with client := .switched, server := .switched }
  | .closed, .done => { s with client := .closed, server := .mustClose }
  | .closed, .idle => { s with client := .closed, server := .mustClose }
  | .error, .done => { s with client := .error, server := .mustClose }
  | .done, .closed => { s with client := .mustClose, server := .closed }
  | .idle, .closed => { s with client := .mustClose, server := .closed }
  | .done, .error => { s with client := .mustClose, server := .error }
  | client, server => { s with client := client, server := server }

def settle (s : Sides) : Sides := s.settleOnce.settleOnce

def limit (s : Sides) (keepsAlive : Bool) : Sides :=
  if keepsAlive then s else settle { s with keepsAlive := false }

def requested (s : Sides) (head : Head) : Sides :=
  let proposed := settle { s with
    tunnel := s.tunnel || head.line.method == connectMethod
    upgrade := s.upgrade || !(elements (Bytes.ofString "upgrade") head.fields).isEmpty }
  (settle { proposed with client := .sendBody, server := .sendResponse }).limit head.keepsAlive

def requestEnded (s : Sides) : Sides := settle { s with client := .done }

def clientClosed (s : Sides) : Sides := settle { s with client := .closed }

def clientFailed (s : Sides) : Sides := settle { s with client := .error }

def mayRespond (s : Sides) : Bool := s.server == .idle || s.server == .sendResponse

/-- The head of a response goes past, if the server may respond. It accepts a proposed tunnel or
declines all proposals. -/
def responded (s : Sides) (status : Int) (keepsAlive : Bool) : Option Sides :=
  if !s.mayRespond then none
  else if s.tunnel && status < 300 then
    some ((settle { s with server := .switched }).limit keepsAlive)
  else
    some
      ((settle { s with server := .sendBody, tunnel := false, upgrade := false }).limit keepsAlive)

def responseEnded (s : Sides) : Option Sides :=
  if s.server = .sendBody then some (settle { s with server := .done }) else none

def isExchanged (s : Sides) : Bool := s.server == .done && s.client == .done

def nextCycle (s : Sides) : Sides := { s with client := .idle, server := .idle }

end Sides

def Response.asksToClose (peer : Peer) (r : Response) : Bool :=
  match r.checkedFields with
  | .ok stated =>
    (elements connectionName ((r.sentFields peer stated).map lowerName)).contains closeOption
  | .error _ => false

namespace Sides

def answered (s : Sides) (peer : Peer) (r : Response) : Option Sides :=
  (s.responded r.status (!r.asksToClose peer)).bind responseEnded

/-- What is sent for a response; whether it can be sent as a whole and whether another request may
follow is up to the sides. -/
def transmit (s : Sides) (peer : Peer) (r : Response) : Transmission :=
  let reply := Http.transmit peer r
  match s.answered peer r with
  | none => { reply with fault := reply.fault.or (some .switched), keepsAlive := false }
  | some after => { reply with keepsAlive := reply.fault.isNone && after.isExchanged }

/-- The sides after reading. Only the start of a request, its end and an error of the client's go
past; a body that is too large for the server is none. -/
def read (s : Sides) (from' : Progress) (reading : Reading) : Sides :=
  let begun (head : Head) : Sides :=
    match from' with
    | .head => s.requested head
    | .body .. => s
  match reading with
  | .waiting .head _ => s
  | .waiting (.body head ..) _ => begun head
  | .request head _ _ => (begun head).requestEnded
  | .finished => s.clientClosed
  | .refused _ .head => s.clientFailed
  | .refused (.bodyTooLarge _) (.body head ..) => begun head
  | .refused _ (.body head ..) => (begun head).clientFailed

end Sides

/-! ## Serving by the states -/

variable {σ τ : Type}

def Answer.follow (request : Request) (answer : Answer) (stream : σ) (application : τ)
    (reply : Response → Run σ τ) : Run σ τ :=
  match answer with
  | .response r => reply r
  | .nothing => ⟨[], some (.error .noResponse), stream, application⟩
  | .raised name =>
    if (Failure.raised name).exits then ⟨[], some (.error (.raised name)), stream, application⟩
    else (reply failureResponse).after [.logged (crashRecord request name)]

/-- Serves a connection by the states of its sides. -/
def serveBySides (app : Application τ) (limit : Int) (io : ByteStream σ) :
    (steps : Nat) → Sides → Progress → Inbox → σ → τ → Run σ τ
  | 0, _, _, _, stream, application => ⟨[], none, stream, application⟩
  | steps + 1, sides, progress, inbox, stream, application =>
    let reading := readOn limit progress inbox
    let sides := sides.read progress reading
    match reading with
    | .waiting progress inbox =>
      match io.receive receiveSize stream with
      | (.ok data, stream) =>
        (serveBySides app limit io steps sides progress
          { buffer := inbox.buffer ++ data, closed := data.isEmpty } stream application).after
          [.received data]
      | (.error .ended, stream) =>
        (serveBySides app limit io steps sides progress { inbox with closed := true } stream
          application).after [.receiveFailed .ended]
      | (.error fault, stream) => (stopAt fault stream application).after [.receiveFailed fault]
    | .finished => ⟨[], some (.ok ()), stream, application⟩
    | .refused fault progress =>
      Run.after [.logged (refusalRecord fault)] <|
        if sides.mayRespond then
          sendReply io (sides.transmit progress.peer { status := fault.status }) stream application
            fun stream => ⟨[], some (.ok ()), stream, application⟩
        else ⟨[], some (.ok ()), stream, application⟩
    | .request head body inbox =>
      let request := head.request body
      let application' := (app.answer request application).2
      Run.after [.called request (app.answer request application).1] <|
        (app.answer request application).1.follow request stream application' fun r =>
          sendReply io (sides.transmit head.peer r) stream application' fun stream =>
            serveBySides app limit io steps ((sides.answered head.peer r).getD sides).nextCycle
              .head inbox stream application'

/-! ## The head of a request in progress -/

def Progress.head? : Progress → Option Head
  | .head => none
  | .body start .. => some start

/-- Reading goes on with a request that has been started, or ends with it. -/
def Reading.Keeps (head : Head) : Reading → Prop
  | .waiting p _ => p.head? = some head
  | .request head' _ _ => head' = head
  | .finished => False
  | .refused _ p => p.head? = some head

theorem readBody_keeps (limit : Int) (head : Head) (d : Decoder) (ps : List Bytes) (n : Nat)
    (i : Inbox) : (readBody limit head d ps n i).Keeps head := by
  fun_induction readBody limit head d ps n i with
  | case1 d ps n i hstep =>
    unfold wait
    split
    · rfl
    · split <;> rfl
  | case2 d ps n i data rest next hstep hlimit => rfl
  | case3 d ps n i data rest next hstep hlimit ih => exact ih
  | case4 d ps n i rest next hstep ih => exact ih
  | case5 d ps n i rest hstep => rfl
  | case6 d ps n i fault hstep => rfl

/-! ## The sides follow the progress -/

namespace Sides

/-- The sides while a request is read. -/
def during : Progress → Sides
  | .head => {}
  | .body head .. => requested {} head

def asked (head : Head) : Sides := (requested {} head).requestEnded

theorem requested_eq (head : Head) :
    requested {} head =
      { client := .sendBody, server := .sendResponse, keepsAlive := head.keepsAlive
        tunnel := head.line.method == connectMethod
        upgrade := !(elements (Bytes.ofString "upgrade") head.fields).isEmpty } := by
  unfold requested
  generalize head.keepsAlive = k
  generalize (head.line.method == connectMethod) = t
  generalize (elements (Bytes.ofString "upgrade") head.fields).isEmpty = u
  cases k <;> cases t <;> cases u <;> rfl

theorem mayRespond_during (p : Progress) :
    (during p).mayRespond = true ∧ (during p).clientFailed.mayRespond = true := by
  cases p with
  | head => exact ⟨rfl, rfl⟩
  | body head d ps n =>
    rw [during, requested_eq]
    generalize head.keepsAlive = k
    generalize (head.line.method == connectMethod) = t
    generalize (elements (Bytes.ofString "upgrade") head.fields).isEmpty = u
    cases k <;> cases t <;> cases u <;> exact ⟨rfl, rfl⟩

private theorem mayRespond_refused (p : Progress) (head : Head) (d : Decoder) (ps : List Bytes)
    (n : Nat)
    (fault : Fault) :
    ((during p).read p (.refused fault (.body head d ps n))).mayRespond = true := by
  cases p with
  | head =>
    have hmay := mayRespond_during (.body head d ps n)
    cases fault <;> first | exact hmay.1 | exact hmay.2
  | body head' d' ps' n' =>
    have hmay := mayRespond_during (.body head' d' ps' n')
    cases fault <;> first | exact hmay.1 | exact hmay.2

private theorem read_during (limit : Int) (p : Progress) (i : Inbox) :
    match readOn limit p i with
    | .waiting p' j => (during p).read p (.waiting p' j) = during p'
    | .request head body j => (during p).read p (.request head body j) = asked head
    | .finished => True
    | .refused fault p' => ((during p).read p (.refused fault p')).mayRespond = true := by
  cases p with
  | head =>
    split <;> rename_i hread
    · rename_i p' j
      cases p' <;> rfl
    · rfl
    · trivial
    · rename_i fault p'
      cases p' with
      | head => exact (mayRespond_during .head).2
      | body head d ps n => exact mayRespond_refused .head head d ps n fault
  | body head d ps n =>
    have hkeeps := readBody_keeps limit head d ps n i
    simp only [readOn]
    split <;> rename_i hread <;> rw [hread] at hkeeps
    · rename_i p' j
      cases p' with
      | head => cases hkeeps
      | body => cases hkeeps; rfl
    · cases hkeeps; rfl
    · trivial
    · rename_i fault p'
      cases p' with
      | head => cases hkeeps
      | body head' d' ps' n' => exact mayRespond_refused (.body head d ps n) head' d' ps' n' fault

private theorem settle_server {s : Sides} (h : s.server = .sendBody) :
    s.settle.server = .sendBody := by
  obtain ⟨client, server, k, t, u⟩ := s
  cases h
  cases client <;> cases k <;> cases t <;> cases u <;> rfl

theorem answered_isSome {s : Sides} (hmay : s.mayRespond = true) {peer : Peer} {r : Response}
    (hstatus : ¬ r.status < 300) : (s.answered peer r).isSome = true := by
  have hbegun (keepsAlive : Bool) :
      ((settle { s with server := .sendBody, tunnel := false, upgrade := false }).limit
        keepsAlive).server = .sendBody := by
    have hsettled := settle_server
      (s := { s with server := .sendBody, tunnel := false, upgrade := false }) rfl
    unfold limit
    split
    · exact hsettled
    · exact settle_server hsettled
  simp [answered, responded, hmay, hstatus, responseEnded, hbegun]

private theorem answered_asked (head : Head) (r : Response) :
    (asked head).answered head.peer r =
      if head.peer.opensTunnel r then none
      else if head.keepsAlive && !r.asksToClose head.peer then
        some { client := .done, server := .done }
      else some { client := .mustClose, server := .mustClose, keepsAlive := false } := by
  have htunnel : head.peer.opensTunnel r =
      ((head.line.method == connectMethod) && decide (r.status < 300)) := rfl
  rw [htunnel, answered, responded, asked, requested_eq]
  generalize head.keepsAlive = k
  generalize (head.line.method == connectMethod) = t
  generalize (elements (Bytes.ofString "upgrade") head.fields).isEmpty = u
  generalize decide (r.status < 300) = accepted
  generalize r.asksToClose head.peer = c
  cases k <;> cases t <;> cases u <;> cases accepted <;> cases c <;> rfl

theorem transmit_asked (head : Head) (r : Response) :
    (asked head).transmit head.peer r = Http.transmit head.peer r := by
  simp only [transmit, answered_asked]
  cases hchecked : r.checkedFields with
  | error why =>
    rw [Response.transmit_of_error hchecked]
    split <;> rfl
  | ok stated =>
    have hasks : r.asksToClose head.peer = (elements connectionName
        ((r.sentFields head.peer stated).map lowerName)).contains closeOption := by
      simp only [Response.asksToClose, hchecked]
    have hlives : r.letsLive head.peer stated =
        (head.keepsAlive && !r.asksToClose head.peer) := by
      rw [hasks]
      rfl
    rw [Response.transmit_of_ok hchecked, hlives]
    cases head.peer.opensTunnel r with
    | true => rfl
    | false =>
      cases head.keepsAlive && !r.asksToClose head.peer <;>
        simp [isExchanged]

theorem transmit_pieces (s : Sides) {peer : Peer} {r : Response} :
    (s.transmit peer r).pieces = (Http.transmit peer r).pieces := by
  unfold transmit
  dsimp only
  split <;> rfl

theorem transmit_fault {s : Sides} {peer : Peer} {r : Response}
    (h : (s.answered peer r).isSome = true) :
    (s.transmit peer r).fault = (Http.transmit peer r).fault := by
  unfold transmit
  dsimp only
  split
  · rename_i hnone
    rw [hnone] at h
    cases h
  · rfl

theorem nextCycle_asked {head : Head} {r : Response}
    (hkeep : (Http.transmit head.peer r).keepsAlive = true) :
    (((asked head).answered head.peer r).getD (asked head)).nextCycle = {} := by
  rw [← transmit_asked, transmit] at hkeep
  rw [answered_asked] at hkeep ⊢
  split at hkeep
  · cases hkeep
  · rename_i after hafter
    split at hafter
    · cases hafter
    · rename_i htunnel
      split at hafter <;> cases hafter
      · rename_i hlives
        rw [if_neg htunnel, if_pos hlives]
        rfl
      · simp [isExchanged] at hkeep

end Sides

/-! ## Serving is serving by the states -/

theorem sendReply_last {io : ByteStream σ} {reply reply' : Transmission}
    (hpieces : reply.pieces = reply'.pieces) (hfault : reply.fault = reply'.fault) (stream : σ)
    (application : τ) :
    (sendReply io reply stream application fun t => ⟨[], some (.ok ()), t, application⟩) =
      sendReply io reply' stream application fun t => ⟨[], some (.ok ()), t, application⟩ := by
  simp only [sendReply, hpieces, hfault]
  split
  · rfl
  · rfl
  · split <;> split <;> rfl

theorem sendReply_congr {io : ByteStream σ} {reply : Transmission} {stream : σ} {application : τ}
    {next next' : σ → Run σ τ} (h : reply.keepsAlive = true → ∀ t, next t = next' t) :
    sendReply io reply stream application next = sendReply io reply stream application next' := by
  simp only [sendReply]
  congr 1
  split
  · rfl
  · rfl
  · split
    · rename_i hkeep
      exact h hkeep _
    · rfl

theorem deliver_eq_follow (io : ByteStream σ) (head : Head) (request : Request) (answer : Answer)
    (stream : σ) (application : τ) (next : σ → Run σ τ) :
    answer.deliver io head request stream application next =
      answer.follow request stream application fun r =>
        sendReply io (transmit head.peer r) stream application next := by
  cases answer <;> rfl

variable {app : Application τ} {limit : Int} {io : ByteStream σ}

theorem serveBySides_eq (steps : Nat) (p : Progress) (i : Inbox) (s : σ) (a : τ) :
    serveBySides app limit io steps (Sides.during p) p i s a =
      serve app limit io steps p i s a := by
  induction steps generalizing p i s a with
  | zero => rfl
  | succ steps ih =>
    have hsides := Sides.read_during limit p i
    simp only [serveBySides]
    split at hsides <;> rename_i hread
    · simp only [hread, hsides, ih]
      rewrite [serve_of_waiting hread]
      rfl
    · rename_i head body j
      rw [serve_of_request hread]
      simp only [hread, hsides, deliver_eq_follow, Sides.transmit_asked]
      congr 2
      funext r
      refine sendReply_congr fun hkeep t => ?_
      rw [Sides.nextCycle_asked hkeep]
      exact ih .head j t _
    · simp only [hread, serve_of_finished hread]
    · rename_i fault p'
      have hsome : (((Sides.during p).read p (.refused fault p')).answered p'.peer
          { status := fault.status }).isSome = true :=
        Sides.answered_isSome hsides fault.not_status_lt
      rw [serve_of_refused hread]
      simp only [hread, if_pos hsides]
      congr 1
      exact sendReply_last (Sides.transmit_pieces _) (Sides.transmit_fault hsome) s a

end TlsGate.Http
