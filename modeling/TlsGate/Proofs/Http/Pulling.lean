import TlsGate.Proofs.Http.BodyLimit
import TlsGate.Proofs.Http.Conversation
import TlsGate.Proofs.Server.StreamUse

/-!
A connection that is asked for one event after the other. The client's side gives the head of a
request, the pieces of its body, their end, or that the client has closed; it may also need data, be
paused, or refuse what has been received. Serving can be driven by these events: outside a body each
event but a head ends it, and in a body each event but a piece and the end is passed over. Main
statement: all that the next event can be from where serving stands, and what it leads to.
-/

set_option autoImplicit false
set_option relaxedAutoImplicit false

namespace TlsGate.Http

variable {σ τ : Type}

/-! ## Events of the client's side -/

inductive Part where
  | request (head : Head)
  | data (piece : Bytes)
  | endOfMessage
  | closed
  /-- What has been received waits until the exchange is over or a proposal has been decided. -/
  | paused
  deriving DecidableEq, Repr

/-- What a connection gives when it is asked for the next part. -/
inductive Pull where
  | part (part : Part)
  | needData
  | refused (fault : Fault)
  | misused
  deriving DecidableEq, Repr

def Inbox.lack (inbox : Inbox) (between : Bool) : Pull :=
  if inbox.closed then
    if between && inbox.buffer.isEmpty then .part .closed else .refused .cutOff
  else if maxIncomplete < inbox.buffer.length then .refused .headTooLong
  else .needData

def pullHead (inbox : Inbox) : Pull × Option Decoder × Inbox :=
  match takeLines inbox.buffer with
  | none =>
    (if startsBadly inbox.buffer then .refused .requestLine else inbox.lack true, none, inbox)
  | some (lines, rest) =>
    match Head.parse lines with
    | .error fault => (.refused fault, none, inbox)
    | .ok head => (.part (.request head), some (Decoder.start (framingOf head.fields)),
        { inbox with buffer := rest })

def pullBody (decoder : Decoder) (inbox : Inbox) : Pull × Decoder × Inbox :=
  match _h : decoder.step inbox.buffer with
  | .more => (inbox.lack false, decoder, inbox)
  | .piece data rest next => (.part (.data data), next, { inbox with buffer := rest })
  | .passed rest next => pullBody next { inbox with buffer := rest }
  | .complete rest => (.part .endOfMessage, decoder, { inbox with buffer := rest })
  | .broken fault => (.refused fault, decoder, inbox)
termination_by inbox.buffer.length
decreasing_by exact Decoder.step_passed_length _h

def pullEnd (inbox : Inbox) : Pull :=
  if !inbox.buffer.isEmpty then .misused
  else if inbox.closed then .part .closed
  else .needData

def Sides.pulled (s : Sides) : Pull → Sides
  | .part (.request head) => s.requested head
  | .part .endOfMessage => s.requestEnded
  | .part .closed => s.clientClosed
  | .refused _ => s.clientFailed
  | .misused => s.clientFailed
  | _ => s

/-- A connection: where its sides stand, what has been received, and where a body is being read. -/
structure Connection where
  sides : Sides := {}
  inbox : Inbox := {}
  decoder : Option Decoder := none
  deriving DecidableEq, Repr

namespace Connection

def find (c : Connection) : Pull × Connection :=
  match c.sides.client, c.decoder with
  | .idle, _ =>
    let (found, decoder, inbox) := pullHead c.inbox
    (found, { c with inbox := inbox, decoder := decoder })
  | .sendBody, some decoder =>
    let (found, decoder, inbox) := pullBody decoder c.inbox
    (found, { c with inbox := inbox, decoder := some decoder })
  | .done, _ => (if c.inbox.buffer.isEmpty then pullEnd c.inbox else .part .paused, c)
  | .mightSwitch, _ => (.part .paused, c)
  | .switched, _ => (.part .paused, c)
  | .mustClose, _ => (pullEnd c.inbox, c)
  | .closed, _ => (pullEnd c.inbox, c)
  | _, _ => (.misused, c)

def pull (c : Connection) : Pull × Connection :=
  let (found, c) := c.find
  (found, { c with sides := c.sides.pulled found })

/-- Gives received data to a connection; empty data are the end of what the client sends, and after
that no data may be given. -/
def give (c : Connection) (data : Bytes) : Option Connection :=
  if c.inbox.closed && !data.isEmpty then none
  else some { c with inbox := ⟨c.inbox.buffer ++ data, c.inbox.closed || data.isEmpty⟩ }

def nextCycle (c : Connection) (sides : Sides) : Connection :=
  { sides := sides.nextCycle, inbox := c.inbox }

def during (p : Progress) (i : Inbox) : Connection :=
  match p with
  | .head => { inbox := i }
  | .body head decoder _ _ => ⟨Sides.requested {} head, i, some decoder⟩

end Connection

/-! ## Serving by events -/

instance (limit : Int) (head : Head) : Decidable (head.isTooLong limit) :=
  decidable_of_iff (head.statedLength?.any (fun n : Nat => limit < n) = true) <| by
    simp only [Head.isTooLong, Option.any_eq_true, decide_eq_true_eq]

/-- What has been put together of a request: the head, the pieces of the body, the last one first,
and their size. -/
structure Collected where
  head : Head
  pieces : List Bytes := []
  size : Nat := 0
  deriving DecidableEq, Repr

inductive Turn where
  | fed (data : Bytes)
  | given (inBody : Bool) (part : Part)
  deriving DecidableEq, Repr

/-- A run with the turns that it takes, in order. -/
structure Course (σ τ : Type) where
  turns : List Turn
  run : Run σ τ

namespace Course

def after (turns : List Turn) (events : List Event) (course : Course σ τ) : Course σ τ :=
  ⟨turns ++ course.turns, course.run.after events⟩

def still (run : Run σ τ) : Course σ τ := ⟨[], run⟩

def reply (io : ByteStream σ) (reply : Transmission) (stream : σ) (application : τ)
    (next : σ → Course σ τ) : Course σ τ :=
  let (_, fault, later) := sendAll io reply.pieces stream
  ⟨if fault.isNone && reply.fault.isNone && reply.keepsAlive then (next later).turns else [],
    sendReply io reply stream application fun stream => (next stream).run⟩

def follow (request : Request) (answer : Answer) (stream : σ) (application : τ)
    (reply : Response → Course σ τ) : Course σ τ :=
  ⟨answer.reply?.elim [] fun r => (reply r).turns,
    (answer.follow request stream application fun r => (reply r).run).after
      [.called request answer]⟩

end Course

def receipt : Except StreamFault Bytes → Event
  | .ok data => .received data
  | .error fault => .receiveFailed fault

def heard : Except StreamFault Bytes → Except StreamFault Bytes
  | .error .ended => .ok []
  | result => result

def refuse (io : ByteStream σ) (fault : Fault) (sides : Sides) (peer : Peer) (stream : σ)
    (application : τ) : Run σ τ :=
  Run.after [.logged (refusalRecord fault)] <|
    if sides.mayRespond then
      sendReply io (sides.transmit peer { status := fault.status }) stream application
        fun stream => ⟨[], some (.ok ()), stream, application⟩
    else ⟨[], some (.ok ()), stream, application⟩

/-- Serves a connection by its events, for a number of pulls. -/
def serveByPulls (app : Application τ) (limit : Int) (io : ByteStream σ) :
    (pulls : Nat) → Connection → Option Collected → σ → τ → Course σ τ
  | 0, _, _, stream, application => .still ⟨[], none, stream, application⟩
  | pulls + 1, c, collected, stream, application =>
    let peer := collected.elim Peer.unknown (·.head.peer)
    match c.pull with
    | (.misused, _) =>
      .still ⟨[], some (.error (.raised "RemoteProtocolError")), stream, application⟩
    | (.refused fault, c) => .still (refuse io fault c.sides peer stream application)
    | (.needData, c) =>
      let (result, stream) := io.receive receiveSize stream
      match heard result with
      | .error fault => .still ((stopAt fault stream application).after [receipt result])
      | .ok data =>
        Course.after [.fed data] [receipt result] <|
          match c.give data with
          | some c => serveByPulls app limit io pulls c collected stream application
          | none => .still ⟨[], some (.error (.raised "RuntimeError")), stream, application⟩
    | (.part part, c) =>
      Course.after [.given collected.isSome part] [] <|
        match collected, part with
        | none, .request head =>
          if head.isTooLong limit then
            .still (refuse io (.bodyTooLarge limit) c.sides head.peer stream application)
          else serveByPulls app limit io pulls c (some { head := head }) stream application
        | none, _ => .still ⟨[], some (.ok ()), stream, application⟩
        | some got, .data piece =>
          let size := got.size + piece.length
          if limit < size then
            .still (refuse io (.bodyTooLarge limit) c.sides peer stream application)
          else
            serveByPulls app limit io pulls c
              (some { got with pieces := piece :: got.pieces, size := size }) stream application
        | some got, .endOfMessage =>
          let request := got.head.request got.pieces.reverse.flatten
          let (answer, application) := app.answer request application
          Course.follow request answer stream application fun r =>
            Course.reply io (c.sides.transmit peer r) stream application fun stream =>
              serveByPulls app limit io pulls
                (c.nextCycle ((c.sides.answered peer r).getD c.sides)) none stream application
        -- any other event is passed over, and the connection is asked again
        | some _, _ => serveByPulls app limit io pulls c collected stream application

/-! ## What a pull can be -/

def Progress.collected : Progress → Option Collected
  | .head => none
  | .body start _ pieces size => some ⟨start, pieces, size⟩

private theorem peer_collected (p : Progress) :
    (p.collected.elim Peer.unknown (·.head.peer)) = p.peer := by
  cases p <;> rfl

def Head.begun (head : Head) : Progress :=
  .body head (Decoder.start (framingOf head.fields)) [] 0

inductive Pulls (limit : Int) : Progress → Inbox → Pull → Connection → Prop
  | needData {p p' : Progress} {i i' : Inbox} (waits : readOn limit p i = .waiting p' i')
      (same : p'.collected = p.collected) : Pulls limit p i .needData (.during p' i')
  | refused {p p' : Progress} {i : Inbox} {fault : Fault} {c : Connection}
      (refuses : readOn limit p i = .refused fault p') (same : p'.peer = p.peer)
      (sides : c.sides = (Sides.during p).clientFailed) : Pulls limit p i (.refused fault) c
  | closed {i : Inbox} {c : Connection} (finishes : readOn limit .head i = .finished) :
      Pulls limit .head i (.part .closed) c
  | request {i i' : Inbox} {head : Head}
      (shorter : i'.buffer.length < i.buffer.length) (same : i'.closed = i.closed)
      (tooLong : head.isTooLong limit →
        readOn limit .head i = .refused (.bodyTooLarge limit) head.begun)
      (goesOn : ¬ head.isTooLong limit → readOn limit .head i = readOn limit head.begun i') :
      Pulls limit .head i (.part (.request head)) (.during head.begun i')
  | data {i i' : Inbox} {head : Head} {d d' : Decoder} {ps : List Bytes} {n : Nat} {piece : Bytes}
      (shorter : i'.buffer.length < i.buffer.length) (same : i'.closed = i.closed)
      (tooLong : limit < (n + piece.length : Nat) → readOn limit (.body head d ps n) i =
        .refused (.bodyTooLarge limit) (.body head d' ps n))
      (goesOn : ¬ limit < (n + piece.length : Nat) → readOn limit (.body head d ps n) i =
        readOn limit (.body head d' (piece :: ps) (n + piece.length)) i') :
      Pulls limit (.body head d ps n) i (.part (.data piece))
        ⟨Sides.requested {} head, i', some d'⟩
  | endOfMessage {i i' : Inbox} {head : Head} {d : Decoder} {ps : List Bytes} {n : Nat}
      {c : Connection} (asks : readOn limit (.body head d ps n) i =
        .request head ps.reverse.flatten i')
      (inbox : c.inbox = i') (sides : c.sides = Sides.asked head) :
      Pulls limit (.body head d ps n) i (.part .endOfMessage) c

private theorem lack_head (i : Inbox) :
    (i.lack true = .needData ∧ wait .head i = .waiting .head i) ∨
      (i.lack true = .part .closed ∧ wait .head i = .finished) ∨
      ∃ fault, i.lack true = .refused fault ∧ wait .head i = .refused fault .head := by
  unfold Inbox.lack wait
  cases i.closed <;> cases i.buffer.isEmpty <;> by_cases hlong : maxIncomplete < i.buffer.length <;>
    simp [hlong]

private theorem lack_body (i : Inbox) {p : Progress} {head : Head} {d : Decoder} {ps : List Bytes}
    {n : Nat}
    (hp : p = .body head d ps n) :
    (i.lack false = .needData ∧ wait p i = .waiting p i) ∨
      ∃ fault, i.lack false = .refused fault ∧ wait p i = .refused fault p := by
  subst hp
  unfold Inbox.lack wait
  cases i.closed <;> by_cases hlong : maxIncomplete < i.buffer.length <;> simp [hlong]

private theorem pull_during_head (i : Inbox) :
    (Connection.during .head i).pull =
      ((pullHead i).1, ⟨Sides.pulled {} (pullHead i).1, (pullHead i).2.2, (pullHead i).2.1⟩) := rfl

private theorem pull_during_body (i : Inbox) (head : Head) (d : Decoder) (ps : List Bytes)
    (n : Nat) :
    (Connection.during (.body head d ps n) i).pull =
      ((pullBody d i).1, ⟨(Sides.requested {} head).pulled (pullBody d i).1, (pullBody d i).2.2,
        some (pullBody d i).2.1⟩) := by
  have hclient : (Sides.requested {} head).client = .sendBody := by rw [Sides.requested_eq]
  simp only [Connection.pull, Connection.find, Connection.during, hclient]

private theorem pulls_head (limit : Int) (i : Inbox) :
    Pulls limit .head i (Connection.during .head i).pull.1 (Connection.during .head i).pull.2 := by
  rw [pull_during_head]
  cases hlines : takeLines i.buffer with
  | none =>
    have hread : readOn limit .head i = _ := readHead_of_none hlines
    by_cases hbad : startsBadly i.buffer = true
    · rw [if_pos hbad] at hread
      simp only [pullHead, hlines, if_pos hbad]
      exact .refused hread rfl rfl
    · rw [if_neg hbad] at hread
      simp only [pullHead, hlines, if_neg hbad]
      rcases lack_head i with ⟨hlack, hwait⟩ | ⟨hlack, hwait⟩ | ⟨fault, hlack, hwait⟩
      · rw [hlack]
        exact .needData (hread.trans hwait) rfl
      · rw [hlack]
        exact .closed (hread.trans hwait)
      · rw [hlack]
        exact .refused (hread.trans hwait) rfl rfl
  | some found =>
    obtain ⟨lines, rest⟩ := found
    cases hparse : Head.parse lines with
    | error fault =>
      simp only [pullHead, hlines, hparse]
      exact .refused (readHead_of_error hlines hparse) rfl rfl
    | ok head =>
      simp only [pullHead, hlines, hparse]
      exact .request (takeLines_length hlines) rfl (readHead_of_tooLong hlines hparse)
        (readHead_of_ok hlines hparse)

private theorem Pulls.of_passed {limit : Int} {i : Inbox} {rest : Bytes} {head : Head}
    {d next : Decoder}
    {ps : List Bytes} {n : Nat} {found : Pull} {c : Connection}
    (h : Pulls limit (.body head next ps n) { i with buffer := rest } found c)
    (hstep : d.step i.buffer = .passed rest next) : Pulls limit (.body head d ps n) i found c := by
  have hread : readOn limit (.body head d ps n) i =
      readOn limit (.body head next ps n) { i with buffer := rest } := readBody_of_passed hstep
  have hlength := Decoder.step_passed_length hstep
  cases h with
  | needData waits same => exact .needData (hread.trans waits) same
  | refused refuses same sides => exact .refused (hread.trans refuses) same sides
  | data shorter same tooLong goesOn =>
    exact .data (Nat.lt_trans shorter hlength) same (fun hlimit => hread.trans (tooLong hlimit))
      fun hlimit => hread.trans (goesOn hlimit)
  | endOfMessage asks inbox sides => exact .endOfMessage (hread.trans asks) inbox sides

private theorem pulls_body (limit : Int) (i : Inbox) (head : Head) (d : Decoder) (ps : List Bytes)
    (n : Nat) :
    Pulls limit (.body head d ps n) i (Connection.during (.body head d ps n) i).pull.1
      (Connection.during (.body head d ps n) i).pull.2 := by
  rw [pull_during_body]
  fun_induction pullBody d i with
  | case1 d i hstep =>
    have hread : readOn limit (.body head d ps n) i = _ := readBody_of_more hstep
    rcases lack_body i rfl with ⟨hlack, hwait⟩ | ⟨fault, hlack, hwait⟩
    · rw [hlack]
      exact .needData (hread.trans hwait) rfl
    · rw [hlack]
      exact .refused (hread.trans hwait) rfl rfl
  | case2 d i data rest next hstep =>
    have hread : readOn limit (.body head d ps n) i = _ := readBody_of_piece hstep
    refine .data (Decoder.step_piece_length hstep) rfl ?_ ?_
    · intro hlimit
      rw [hread, if_pos hlimit]
    · intro hlimit
      rw [hread, if_neg hlimit]
      rfl
  | case3 d i rest next hstep ih => exact ih.of_passed hstep
  | case4 d i rest hstep =>
    exact .endOfMessage (readBody_of_complete hstep) rfl rfl
  | case5 d i fault hstep =>
    exact .refused (readBody_of_broken hstep) rfl rfl

private theorem pulls_during (limit : Int) (p : Progress) (i : Inbox) :
    Pulls limit p i (Connection.during p i).pull.1 (Connection.during p i).pull.2 := by
  cases p with
  | head => exact pulls_head limit i
  | body head d ps n => exact pulls_body limit i head d ps n

/-! ## Serving by events is serving -/

variable {app : Application τ} {limit : Int} {io : ByteStream σ}

private theorem give_of_open {p : Progress} {i : Inbox} (hopen : i.closed = false) (data : Bytes) :
    (Connection.during p i).give data =
      some (.during p ⟨i.buffer ++ data, data.isEmpty⟩) := by
  cases p <;> simp [Connection.give, Connection.during, hopen]

private theorem refuse_eq {p p' : Progress} {i : Inbox} {fault : Fault}
    (hread : readOn limit p i = .refused fault p') {sides : Sides} (hmay : sides.mayRespond = true)
    (pulls : Nat) (s : σ) (a : τ) :
    serve app limit io (pulls + 1) p i s a = refuse io fault sides p'.peer s a := by
  have hsome : (sides.answered p'.peer { status := fault.status }).isSome = true :=
    Sides.answered_isSome hmay fault.not_status_lt
  rw [serve_of_refused hread, refuse, if_pos hmay]
  congr 1
  exact sendReply_last (Sides.transmit_pieces sides).symm (Sides.transmit_fault hsome).symm s a

/-! ## What a pull leads to -/

def Part.isOfBody : Part → Bool
  | data _ => true
  | endOfMessage => true
  | _ => false

/-- Whether nothing more comes after an event of receiving. -/
def Event.endsInput : Event → Bool
  | .received data => data.isEmpty
  | .receiveFailed _ => true
  | _ => false

def Event.input : Event → Bytes
  | .received data => data
  | _ => []

/-- Nothing is received after the end, or at all if that has been before; and the calls of the
application are no more than so many and the bytes that are received. -/
structure Orderly (closed : Bool) (stock : Nat) (events : List Event) : Prop where
  once : events.Pairwise fun event later => event.endsInput = true → later.isReceipt = false
  silent : closed = true → ∀ event ∈ events, event.isReceipt = false
  calls : (events.filterMap Event.request?).length ≤ stock + (events.flatMap Event.input).length

def Quiet (events : List Event) : Prop :=
  ∀ event ∈ events, event.isReceipt = false ∧ event.request? = none

theorem Quiet.append {events later : List Event} (h : Quiet events) (hlater : Quiet later) :
    Quiet (events ++ later) := by
  intro event hevent
  rcases List.mem_append.1 hevent with hevent | hevent
  · exact h event hevent
  · exact hlater event hevent

theorem Quiet.requests {events : List Event} (h : Quiet events) :
    events.filterMap Event.request? = [] :=
  List.filterMap_eq_nil_iff.2 fun event hevent => (h event hevent).2

theorem Orderly.of_silent {closed : Bool} {stock : Nat} {events : List Event}
    (hsilent : ∀ event ∈ events, event.isReceipt = false)
    (hcalls : (events.filterMap Event.request?).length ≤ stock) : Orderly closed stock events := by
  refine ⟨?_, fun _ => hsilent, Nat.le_add_right_of_le hcalls⟩
  refine List.pairwise_of_forall_mem_list ?_
  intro event _ later hlater _
  exact hsilent later hlater

theorem Quiet.orderly {events : List Event} (h : Quiet events) (closed : Bool) (stock : Nat) :
    Orderly closed stock events :=
  .of_silent (fun event hevent => (h event hevent).1) (by simp [h.requests])

private theorem stopAt_quiet (fault : StreamFault) (s : σ) (a : τ) :
    Quiet (stopAt fault s a).events := by
  cases fault <;> simp [Quiet, stopAt, Event.isReceipt, Event.request?]

private theorem sendAll_quiet (io : ByteStream σ) (pieces : List Bytes) (s : σ) :
    Quiet (sendAll io pieces s).1 := by
  induction pieces generalizing s with
  | nil => simp [Quiet, sendAll]
  | cons piece others ih =>
    simp only [sendAll]
    split
    · simp [Quiet, Event.isReceipt, Event.request?]
    · rename_i t _
      intro event hevent
      rcases List.mem_cons.1 hevent with rfl | hevent
      · exact ⟨rfl, rfl⟩
      · exact ih t event hevent

private theorem reply_cases (io : ByteStream σ) (reply : Transmission) (s : σ) (a : τ) :
    (∃ run : Run σ τ, run.outcome ≠ none ∧ Quiet run.events ∧
      ∀ next, Course.reply io reply s a next = .still run) ∨
    (reply.keepsAlive = true ∧ ∃ (events : List Event) (t : σ), Quiet events ∧
      (∀ P : σ → Prop, io.Keeps P → P s → P t) ∧
      ∀ next, Course.reply io reply s a next = (next t).after [] events) := by
  have hquiet := sendAll_quiet io reply.pieces s
  have hkeeps := fun (P : σ → Prop) (hk : io.Keeps P) => sendAll_keeps hk reply.pieces s
  simp only [Course.reply, sendReply]
  generalize sendAll io reply.pieces s = sent at hquiet hkeeps ⊢
  obtain ⟨events, fault, t⟩ := sent
  cases fault with
  | some fault =>
    exact .inl ⟨(stopAt fault t a).after events, stopAt_outcome fault t a,
      hquiet.append (stopAt_quiet fault t a), fun _ => rfl⟩
  | none =>
    cases hfault : reply.fault with
    | some why =>
      exact .inl ⟨⟨events, some (.error (.unsendable why)), t, a⟩, Option.some_ne_none _, hquiet,
        fun _ => by simp [Course.still, Run.after]⟩
    | none =>
      cases hkeep : reply.keepsAlive with
      | true => exact .inr ⟨rfl, events, t, hquiet, hkeeps, fun _ => rfl⟩
      | false =>
        exact .inl ⟨⟨events, some (.ok ()), t, a⟩, Option.some_ne_none _, hquiet,
          fun _ => by simp [Course.still, Run.after]⟩

private theorem refuse_ends (io : ByteStream σ) (fault : Fault) (sides : Sides) (peer : Peer)
    (s : σ)
    (a : τ) :
    (refuse io fault sides peer s a).outcome ≠ none ∧
      Quiet (refuse io fault sides peer s a).events := by
  have hlogged : Quiet [.logged (refusalRecord fault)] := by
    simp [Quiet, Event.isReceipt, Event.request?]
  unfold refuse
  split
  · let last : σ → Course σ τ := fun t => .still ⟨[], some (.ok ()), t, a⟩
    have hreply : ∀ reply, sendReply io reply s a (fun t => ⟨[], some (.ok ()), t, a⟩) =
      (Course.reply io reply s a last).run := fun _ => rfl
    rw [hreply]
    rcases reply_cases io (sides.transmit peer { status := fault.status }) s a with
      ⟨run, hended, hquiet, hrun⟩ | ⟨-, events, t, hquiet, -, hrun⟩
    · rw [hrun]
      exact ⟨hended, hlogged.append hquiet⟩
    · rw [hrun]
      have hlast : Quiet (last t).run.events := by simp [Quiet, last, Course.still]
      exact ⟨Option.some_ne_none _, hlogged.append (hquiet.append hlast)⟩
  · exact ⟨Option.some_ne_none _, hlogged⟩

/-- What the next pull leads to from where serving stands: serving stops, or the connection is given
what has been received, or it gives a part. -/
inductive Proceeds (app : Application τ) (limit : Int) (io : ByteStream σ) (p : Progress)
    (i : Inbox) (s : σ) (a : τ) : Prop
  | stops (turns : List Turn) (run : Run σ τ)
      (given : turns = [] ∨ ∃ part, turns = [.given p.collected.isSome part] ∧
        (p.collected.isSome = true → part.isOfBody = true))
      (orderly : Orderly i.closed (i.buffer.length + p.lack) run.events)
      (ended : run.outcome ≠ none)
      (course : ∀ pulls,
        serveByPulls app limit io (pulls + 1) (.during p i) p.collected s a = ⟨turns, run⟩)
      (served : ∀ pulls, serve app limit io (pulls + 1) p i s a = run)
  | feeds (p' : Progress) (i' : Inbox) (t : σ) (result : Except StreamFault Bytes) (data : Bytes)
      (opened : i.closed = false) (shorter : i'.buffer.length ≤ i.buffer.length)
      (lack : p'.lack = p.lack) (receives : io.receive receiveSize s = (result, t))
      (hears : heard result = .ok data)
      (course : ∀ pulls, serveByPulls app limit io (pulls + 1) (.during p i) p.collected s a =
        (serveByPulls app limit io pulls (.during p' ⟨i'.buffer ++ data, data.isEmpty⟩) p'.collected
          t a).after [.fed data] [receipt result])
      (served : ∀ pulls, serve app limit io (pulls + 1) p i s a =
        (serve app limit io pulls p' ⟨i'.buffer ++ data, data.isEmpty⟩ t a).after [receipt result])
  | gives (p' : Progress) (i' : Inbox) (t : σ) (b : τ) (part : Part) (events : List Event)
      (more : Nat) (ofBody : p.collected.isSome = true → part.isOfBody = true)
      (same : i'.closed = i.closed) (silent : ∀ event ∈ events, event.isReceipt = false)
      (calls : (events.filterMap Event.request?).length + (i'.buffer.length + p'.lack) ≤
        i.buffer.length + p.lack)
      (less : 2 * i'.buffer.length + p'.lack < 2 * i.buffer.length + p.lack)
      (keeps : ∀ P : σ → Prop, io.Keeps P → P s → P t) (few : more ≤ 1)
      (course : ∀ pulls, serveByPulls app limit io (pulls + 1) (.during p i) p.collected s a =
        (serveByPulls app limit io pulls (.during p' i') p'.collected t b).after
          [.given p.collected.isSome part] events)
      (served : ∀ pulls, serve app limit io (pulls + more) p i s a =
        (serve app limit io pulls p' i' t b).after events)

variable {p p' : Progress} {i i' : Inbox} {s : σ} {a : τ}

private theorem proceeds_of_needData
    (hpull : (Connection.during p i).pull = (.needData, .during p' i'))
    (hwaits : readOn limit p i = .waiting p' i') (hsame : p'.collected = p.collected) :
    Proceeds app limit io p i s a := by
  have hshrinks := readOn_shrinks limit p i
  rw [hwaits] at hshrinks
  obtain ⟨hopen, hopen', hlength⟩ := hshrinks
  have hlack : p'.lack = p.lack := by
    cases p <;> cases p' <;> first | rfl | cases hsame
  rcases hreceive : io.receive receiveSize s with ⟨result, t⟩
  cases hheard : heard result with
  | error fault =>
    refine .stops [] ((stopAt fault t a).after [receipt result]) (.inl rfl) ?_
      (stopAt_outcome fault t a) ?_ ?_
    · have hstop := stopAt_quiet fault t a
      refine ⟨?_, ?_, ?_⟩
      · refine List.pairwise_cons.2 ⟨fun later hlater _ => (hstop later hlater).1, ?_⟩
        exact (hstop.orderly false 0).once
      · intro hclosed
        rw [hopen] at hclosed
        cases hclosed
      · have hnone : (receipt result).request? = none := by cases result <;> rfl
        rw [Run.after, List.filterMap_append, hstop.requests]
        simp [hnone]
    · intro pulls
      simp only [serveByPulls, hpull, hreceive, hheard]
      rfl
    · intro pulls
      rw [serve_of_waiting hwaits, hreceive]
      cases result with
      | ok data => cases hheard
      | error fault' => cases fault' <;> cases hheard <;> rfl
  | ok data =>
    refine .feeds p' i' t result data hopen (by omega) hlack hreceive hheard ?_ ?_
    · intro pulls
      simp only [serveByPulls, hpull, hreceive, hheard, give_of_open hopen', hsame]
    · intro pulls
      rw [serve_of_waiting hwaits, hreceive]
      cases result with
      | ok data' =>
        cases hheard
        rfl
      | error fault' =>
        cases fault' <;> cases hheard
        simp only [List.append_nil]
        rfl

private theorem proceeds_of_refused {fault : Fault} {c : Connection}
    (hpull : (Connection.during p i).pull = (.refused fault, c))
    (hrefuses : readOn limit p i = .refused fault p') (hsame : p'.peer = p.peer)
    (hsides : c.sides = (Sides.during p).clientFailed) : Proceeds app limit io p i s a := by
  have hmay : c.sides.mayRespond = true := hsides ▸ (Sides.mayRespond_during p).2
  obtain ⟨hended, hquiet⟩ := refuse_ends io fault c.sides p.peer s a
  refine .stops [] (refuse io fault c.sides p.peer s a) (.inl rfl) (hquiet.orderly _ _) hended ?_ ?_
  · intro pulls
    simp only [serveByPulls, hpull, peer_collected, Course.still]
  · intro pulls
    rw [refuse_eq hrefuses hmay, hsame]

private theorem proceeds_of_closed {c : Connection}
    (hpull : (Connection.during .head i).pull = (.part .closed, c))
    (hfinishes : readOn limit .head i = .finished) : Proceeds app limit io .head i s a := by
  have hquiet : Quiet [] := by simp [Quiet]
  refine .stops [.given false .closed] ⟨[], some (.ok ()), s, a⟩
    (.inr ⟨.closed, rfl, fun hbody => by cases hbody⟩) (hquiet.orderly _ _)
    (Option.some_ne_none _) ?_ ?_
  · intro pulls
    simp only [serveByPulls, hpull, Progress.collected]
    rfl
  · intro pulls
    exact serve_of_finished hfinishes

private theorem proceeds_of_request {head : Head}
    (hpull : (Connection.during .head i).pull =
      (.part (.request head), .during head.begun i'))
    (hshorter : i'.buffer.length < i.buffer.length) (hclosed : i'.closed = i.closed)
    (htooLong : head.isTooLong limit →
      readOn limit .head i = .refused (.bodyTooLarge limit) head.begun)
    (hgoesOn : ¬ head.isTooLong limit → readOn limit .head i = readOn limit head.begun i') :
    Proceeds app limit io .head i s a := by
  by_cases hlong : head.isTooLong limit
  · have hmay : (Sides.requested {} head).mayRespond = true :=
      (Sides.mayRespond_during head.begun).1
    obtain ⟨hended, hquiet⟩ := refuse_ends io (.bodyTooLarge limit)
      (Sides.requested {} head) head.peer s a
    refine .stops [.given false (.request head)] _
      (.inr ⟨.request head, rfl, fun hbody => by cases hbody⟩) (hquiet.orderly _ _) hended ?_ ?_
    · intro pulls
      simp only [serveByPulls, hpull, Progress.collected, if_pos hlong]
      rfl
    · intro pulls
      exact refuse_eq (htooLong hlong) hmay pulls s a
  · refine .gives head.begun i' s a (.request head) [] 0 (fun hbody => by cases hbody) hclosed
      (by simp) ?_ ?_ (fun _ _ h => h) (Nat.zero_le 1) ?_ ?_
    · simp only [Head.begun, Progress.lack, List.filterMap_nil, List.length_nil]
      omega
    · simp only [Head.begun, Progress.lack]
      omega
    · intro pulls
      simp only [serveByPulls, hpull, Progress.collected, if_neg hlong]
      rfl
    · intro pulls
      exact Stage.serve_congr (hgoesOn hlong) pulls s a

private theorem proceeds_of_data {head : Head} {d d' : Decoder} {ps : List Bytes} {n : Nat}
    {piece : Bytes}
    (hpull : (Connection.during (.body head d ps n) i).pull =
      (.part (.data piece), ⟨Sides.requested {} head, i', some d'⟩))
    (hshorter : i'.buffer.length < i.buffer.length) (hclosed : i'.closed = i.closed)
    (htooLong : limit < (n + piece.length : Nat) → readOn limit (.body head d ps n) i =
      .refused (.bodyTooLarge limit) (.body head d' ps n))
    (hgoesOn : ¬ limit < (n + piece.length : Nat) → readOn limit (.body head d ps n) i =
      readOn limit (.body head d' (piece :: ps) (n + piece.length)) i') :
    Proceeds app limit io (.body head d ps n) i s a := by
  by_cases hlong : limit < (n + piece.length : Nat)
  · have hmay : (Sides.requested {} head).mayRespond = true :=
      (Sides.mayRespond_during (.body head d ps n)).1
    obtain ⟨hended, hquiet⟩ := refuse_ends io (.bodyTooLarge limit)
      (Sides.requested {} head) head.peer s a
    refine .stops [.given true (.data piece)] _ (.inr ⟨.data piece, rfl, fun _ => rfl⟩)
      (hquiet.orderly _ _) hended ?_ ?_
    · intro pulls
      simp only [serveByPulls, hpull, Progress.collected, if_pos hlong]
      rfl
    · intro pulls
      exact refuse_eq (htooLong hlong) hmay pulls s a
  · refine .gives (.body head d' (piece :: ps) (n + piece.length)) i' s a (.data piece) [] 0
      (fun _ => rfl) hclosed (by simp) ?_ ?_ (fun _ _ h => h) (Nat.zero_le 1) ?_ ?_
    · simp only [Progress.lack, List.filterMap_nil, List.length_nil]
      omega
    · simp only [Progress.lack]
      omega
    · intro pulls
      simp only [serveByPulls, hpull, Progress.collected, if_neg hlong]
      rfl
    · intro pulls
      exact Stage.serve_congr (hgoesOn hlong) pulls s a

private theorem reply_congr {reply : Transmission} {next next' : σ → Course σ τ}
    (h : reply.keepsAlive = true → ∀ t, next t = next' t) :
    Course.reply io reply s a next = Course.reply io reply s a next' := by
  cases hkeep : reply.keepsAlive with
  | true =>
    have hsame : next = next' := funext (h hkeep)
    rw [hsame]
  | false =>
    have hrun : sendReply io reply s a (fun t => (next t).run) =
        sendReply io reply s a (fun t => (next' t).run) :=
      sendReply_congr fun hlives => by rw [hkeep] at hlives; cases hlives
    simp [Course.reply, hkeep, hrun]

private theorem follow_of_reply {request : Request} {answer : Answer} {r : Response}
    (hreply : answer.reply? = some r) (s : σ) (a : τ) (course : Response → Course σ τ) :
    Course.follow request answer s a course =
      (course r).after [] (.called request answer :: answer.logged request) := by
  cases answer with
  | response r' =>
    cases hreply
    rfl
  | nothing => cases hreply
  | raised name =>
    simp only [Answer.reply?] at hreply
    split at hreply
    · cases hreply
    · rename_i hexits
      cases hreply
      simp only [Course.follow, Answer.reply?, Answer.follow, if_neg hexits]
      rfl

private theorem follow_of_none {answer : Answer} (hreply : answer.reply? = none)
    (request : Request) (s : σ)
    (a : τ) : ∃ run : Run σ τ, run.outcome ≠ none ∧ Quiet run.events ∧
      ∀ course, Course.follow request answer s a course =
        .still (run.after [.called request answer]) := by
  have hquiet : Quiet [] := by simp [Quiet]
  cases answer with
  | response r => cases hreply
  | nothing =>
    exact ⟨⟨[], some (.error .noResponse), s, a⟩, Option.some_ne_none _, hquiet, fun _ => rfl⟩
  | raised name =>
    simp only [Answer.reply?] at hreply
    split at hreply
    · rename_i hexits
      refine ⟨⟨[], some (.error (.raised name)), s, a⟩, Option.some_ne_none _, hquiet, ?_⟩
      intro course
      simp only [Course.follow, Answer.reply?, Answer.follow, if_pos hexits]
      rfl
    · cases hreply

private theorem follow_cases (io : ByteStream σ) (peer : Peer) (request : Request)
    (answer : Answer) (s : σ)
    (a : τ) :
    (∃ run : Run σ τ, run.outcome ≠ none ∧ Quiet run.events ∧ ∀ next,
      Course.follow request answer s a (fun r => Course.reply io (transmit peer r) s a next) =
        .still (run.after [.called request answer])) ∨
    ∃ (events : List Event) (t : σ), Quiet events ∧ (∀ P : σ → Prop, io.Keeps P → P s → P t) ∧
      ∀ next,
      Course.follow request answer s a (fun r => Course.reply io (transmit peer r) s a next) =
        (next t).after [] (.called request answer :: events) := by
  cases hreply : answer.reply? with
  | none =>
    obtain ⟨run, hended, hquiet, hrun⟩ := follow_of_none hreply request s a
    exact .inl ⟨run, hended, hquiet, fun _ => hrun _⟩
  | some r =>
    have hlogged : Quiet (answer.logged request) := by
      cases answer <;> simp [Answer.logged, Quiet, Event.isReceipt, Event.request?]
    rcases reply_cases io (transmit peer r) s a with
      ⟨run, hended, hrun, hcourse⟩ | ⟨-, events, t, hevents, hkeeps, hcourse⟩
    · refine .inl ⟨run.after (answer.logged request), hended, hlogged.append hrun, fun next => ?_⟩
      rw [follow_of_reply hreply, hcourse]
      rfl
    · refine .inr ⟨answer.logged request ++ events, t, hlogged.append hevents, hkeeps,
        fun next => ?_⟩
      rw [follow_of_reply hreply, hcourse]
      simp [Course.after, Run.after]

private theorem proceeds_of_endOfMessage {head : Head} {d : Decoder} {ps : List Bytes} {n : Nat}
    {c : Connection} (hpull : (Connection.during (.body head d ps n) i).pull =
      (.part .endOfMessage, c))
    (hasks : readOn limit (.body head d ps n) i = .request head ps.reverse.flatten i')
    (hinbox : c.inbox = i') (hsides : c.sides = Sides.asked head) :
    Proceeds app limit io (.body head d ps n) i s a := by
  rcases hanswer : app.answer (head.request ps.reverse.flatten) a with ⟨answer, b⟩
  have hcourse (pulls : Nat) :
      serveByPulls app limit io (pulls + 1) (.during (.body head d ps n) i)
        (Progress.collected (.body head d ps n)) s a =
      (Course.follow (head.request ps.reverse.flatten) answer s b fun r =>
        Course.reply io (transmit head.peer r) s b fun t =>
          serveByPulls app limit io pulls (.during .head i') none t b).after
          [.given true .endOfMessage] [] := by
    have hreply (r : Response) : Course.reply io (transmit head.peer r) s b (fun t =>
          serveByPulls app limit io pulls (c.nextCycle
            (((Sides.asked head).answered head.peer r).getD (Sides.asked head))) none t b) =
        Course.reply io (transmit head.peer r) s b fun t =>
          serveByPulls app limit io pulls (.during .head i') none t b := by
      refine reply_congr fun hkeep t => ?_
      rw [Connection.nextCycle, Sides.nextCycle_asked hkeep, hinbox]
      rfl
    simp only [serveByPulls, hpull, Progress.collected, hsides, Option.elim_some,
      Sides.transmit_asked, hanswer, hreply]
    rfl
  have hserved (pulls : Nat) : serve app limit io (pulls + 1) (.body head d ps n) i s a =
      (Course.follow (head.request ps.reverse.flatten) answer s b fun r =>
        Course.reply io (transmit head.peer r) s b fun t =>
          Course.still (serve app limit io pulls .head i' t b)).run := by
    rw [serve_of_request hasks, deliver_eq_follow, hanswer]
    rfl
  have hshrinks := readOn_shrinks limit (.body head d ps n) i
  rw [hasks] at hshrinks
  obtain ⟨hclosed, hlength⟩ := hshrinks
  simp only [Progress.lack] at hlength
  have hsilent {events : List Event} (hquiet : Quiet events) :
      ∀ event ∈ .called (head.request ps.reverse.flatten) answer :: events,
        event.isReceipt = false := by
    intro event hevent
    rcases List.mem_cons.1 hevent with rfl | hevent
    · rfl
    · exact (hquiet event hevent).1
  have hcalls {events : List Event} (hquiet : Quiet events) :
      ((Event.called (head.request ps.reverse.flatten) answer :: events).filterMap
        Event.request?).length = 1 := by
    show (_ :: events.filterMap Event.request?).length = 1
    rw [hquiet.requests, List.length_singleton]
  rcases follow_cases io head.peer (head.request ps.reverse.flatten) answer s b with
    ⟨run, hended, hquiet, hfollow⟩ | ⟨events, t, hquiet, hkeeps, hfollow⟩
  · refine .stops [.given true .endOfMessage]
      (run.after [.called (head.request ps.reverse.flatten) answer])
      (.inr ⟨.endOfMessage, rfl, fun _ => rfl⟩) ?_ hended ?_ ?_
    · refine .of_silent (hsilent hquiet) ?_
      rw [Run.after, List.singleton_append, hcalls hquiet]
      exact Nat.le_add_left 1 _
    · intro pulls
      rw [hcourse, hfollow]
      rfl
    · intro pulls
      rw [hserved, hfollow]
      rfl
  · refine .gives .head i' t b .endOfMessage
      (.called (head.request ps.reverse.flatten) answer :: events) 1 (fun _ => rfl) hclosed
      (hsilent hquiet) ?_ ?_ hkeeps (Nat.le_refl 1) ?_ ?_
    · rw [hcalls hquiet]
      simp only [Progress.lack]
      omega
    · simp only [Progress.lack]
      omega
    · intro pulls
      rw [hcourse, hfollow]
      rfl
    · intro pulls
      rw [hserved, hfollow]
      rfl

theorem proceeds (app : Application τ) (limit : Int) (io : ByteStream σ) (p : Progress) (i : Inbox)
    (s : σ) (a : τ) : Proceeds app limit io p i s a := by
  have hpull := pulls_during limit p i
  generalize hfound : (Connection.during p i).pull = result at hpull
  obtain ⟨found, c⟩ := result
  simp only at hpull
  cases hpull with
  | needData waits same => exact proceeds_of_needData hfound waits same
  | refused refuses same sides => exact proceeds_of_refused hfound refuses same sides
  | closed finishes => exact proceeds_of_closed hfound finishes
  | request shorter same tooLong goesOn =>
    exact proceeds_of_request hfound shorter same tooLong goesOn
  | data shorter same tooLong goesOn => exact proceeds_of_data hfound shorter same tooLong goesOn
  | endOfMessage asks inbox sides => exact proceeds_of_endOfMessage hfound asks inbox sides

end TlsGate.Http
