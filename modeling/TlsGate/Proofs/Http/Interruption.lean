import TlsGate.Http.Canned
import TlsGate.Proofs.Http.Serving

/-!
Serving on a stream whose send fails at some point. Two streams are compared that do the same up to
that send, and what is served on them is the same up to that send too. After it nothing is done but
to log that the connection is lost, if it is.
-/

set_option autoImplicit false
set_option relaxedAutoImplicit false

namespace TlsGate

variable {σ σ' τ : Type}

/-- A stream does the same as one that takes everything, except that a send fails after `n` others.
The relation says which states belong together with so many sends to go. -/
structure ByteStream.CutsShort (io : ByteStream σ) (io' : ByteStream σ') (fault : StreamFault)
    (R : Nat → σ → σ' → Prop) : Prop where
  received {n : Nat} {s : σ} {s' : σ'} (most : Nat) : R n s s' →
    (io.receive most s).1 = (io'.receive most s').1 ∧
      R n (io.receive most s).2 (io'.receive most s').2
  taken {n : Nat} {s : σ} {s' : σ'} (data : Bytes) : R n s s' → (io.send data s).1 = none
  sent {n : Nat} {s : σ} {s' : σ'} (data : Bytes) : R (n + 1) s s' →
    (io'.send data s').1 = none ∧ R n (io.send data s).2 (io'.send data s').2
  fails {s : σ} {s' : σ'} (data : Bytes) : R 0 s s' → (io'.send data s').1 = some fault

/-- A script whose send fails after `n` others. -/
def Script.failingAfter (n : Nat) (fault : StreamFault) (s : Script) : Script :=
  { s with sendsLeft := some n, sendFault := fault }

private theorem Script.receive_failingAfter (most n : Nat) (fault : StreamFault) (s : Script) :
    (s.failingAfter n fault).receive most =
      ((s.receive most).1, (s.receive most).2.failingAfter n fault) := by
  simp only [Script.receive, Script.failingAfter]
  split <;> rfl

private theorem Script.receive_sendsLeft (most : Nat) (s : Script) :
    (s.receive most).2.sendsLeft = s.sendsLeft := by
  simp only [Script.receive]
  split <;> rfl

private theorem Script.cutsShort (fault : StreamFault) :
    stream.CutsShort stream fault fun n s s' =>
      s.sendsLeft = none ∧ s' = s.failingAfter n fault where
  received {n s s'} most h := by
    obtain ⟨hleft, rfl⟩ := h
    have hreceive := receive_failingAfter most n fault s
    refine ⟨?_, (receive_sendsLeft most s).trans hleft, ?_⟩
    · exact (congrArg Prod.fst hreceive).symm
    · exact congrArg Prod.snd hreceive
  taken {n s s'} data h := by
    simp only [stream, send, h.1]
  sent {n s s'} data h := by
    obtain ⟨hleft, rfl⟩ := h
    refine ⟨rfl, ?_, ?_⟩
    · simp only [stream, send, hleft, Option.map_none]
    · simp only [stream, send, hleft, failingAfter, Option.map_some, Nat.add_sub_cancel]
  fails {s s'} data h := by
    obtain ⟨-, rfl⟩ := h
    rfl

namespace Http

/-! ## Events as uses of the stream and of the application -/

def Event.piece? : Event → Option Bytes
  | .sent data => some data
  | _ => none

def Run.pieces (run : Run σ τ) : List Bytes := run.events.filterMap Event.piece?

/-- The record that an event leaves for debugging. -/
def Event.debugRecord? : Event → Option Log.Record
  | .logged record => if record.level = .debug then some record else none
  | _ => none

def Event.useStream (io : ByteStream σ) (s : σ) : Event → σ
  | .received _ => (io.receive receiveSize s).2
  | .receiveFailed _ => (io.receive receiveSize s).2
  | .sent data => (io.send data s).2
  | .sendFailed data _ => (io.send data s).2
  | _ => s

def Event.askApplication (app : Application τ) (a : τ) : Event → τ
  | .called request _ => (app.answer request a).2
  | _ => a

structure Run.Replays (app : Application τ) (io : ByteStream σ) (s : σ) (a : τ) (run : Run σ τ) :
    Prop where
  stream : run.stream = run.events.foldl (Event.useStream io) s
  application : run.application = run.events.foldl (Event.askApplication app) a

section Replays

variable {app : Application τ} {io : ByteStream σ} {s : σ} {a : τ} {run : Run σ τ}

theorem Run.Replays.after {events : List Event}
    (h : run.Replays app io (events.foldl (Event.useStream io) s)
      (events.foldl (Event.askApplication app) a)) :
    (run.after events).Replays app io s a where
  stream := by
    rw [Run.stream_after, h.stream]
    exact List.foldl_append.symm
  application := by
    rw [Run.application_after, h.application]
    exact List.foldl_append.symm

private theorem stopAt_replays (fault : StreamFault) : (stopAt fault s a).Replays app io s a := by
  cases fault <;> exact ⟨rfl, rfl⟩

private theorem sendAll_replays (app : Application τ) (io : ByteStream σ) (pieces : List Bytes)
    (s : σ)
    (a : τ) :
    (sendAll io pieces s).2.2 = (sendAll io pieces s).1.foldl (Event.useStream io) s ∧
      a = (sendAll io pieces s).1.foldl (Event.askApplication app) a := by
  induction pieces generalizing s with
  | nil => exact ⟨rfl, rfl⟩
  | cons piece others ih =>
    rcases hsend : io.send piece s with ⟨fault | fault, t⟩
    · obtain ⟨hstream, happlication⟩ := ih t
      simp only [sendAll, hsend, List.foldl_cons, Event.useStream, Event.askApplication]
      exact ⟨hstream, happlication⟩
    · simp only [sendAll, hsend, List.foldl_cons, List.foldl_nil, Event.useStream,
        Event.askApplication, and_self]

private theorem sendReply_replays (reply : Transmission) {next : σ → Run σ τ}
    (hnext : ∀ t, (next t).Replays app io t a) :
    (sendReply io reply s a next).Replays app io s a := by
  obtain ⟨hstream, happlication⟩ := sendAll_replays app io reply.pieces s a
  rw [sendReply_eq]
  refine Run.Replays.after ?_
  rw [← hstream, ← happlication]
  unfold Transmission.settle
  split
  · exact stopAt_replays _
  · exact ⟨rfl, rfl⟩
  · split
    · exact hnext _
    · exact ⟨rfl, rfl⟩

private theorem deliver_replays (head : Head) (request : Request) (answer : Answer)
    {next : σ → Run σ τ}
    (hnext : ∀ t, (next t).Replays app io t a) :
    (answer.deliver io head request s a next).Replays app io s a := by
  cases answer with
  | response r => exact sendReply_replays _ hnext
  | nothing => exact ⟨rfl, rfl⟩
  | raised name =>
    simp only [Answer.deliver]
    split
    · exact ⟨rfl, rfl⟩
    · exact Run.Replays.after (sendReply_replays _ hnext)

private theorem serve_replays (app : Application τ) (limit : Int) (io : ByteStream σ) (steps : Nat)
    (p : Progress) (i : Inbox) (s : σ) (a : τ) :
    (serve app limit io steps p i s a).Replays app io s a := by
  induction steps generalizing p i s a with
  | zero => exact ⟨rfl, rfl⟩
  | succ steps ih =>
    cases hread : readOn limit p i with
    | waiting p' i' =>
      rw [serve_of_waiting hread]
      rcases hreceive : io.receive receiveSize s with ⟨result, t⟩
      obtain rfl : (io.receive receiveSize s).2 = t := congrArg Prod.snd hreceive
      cases result with
      | ok data => exact Run.Replays.after (ih ..)
      | error f =>
        cases f with
        | ended => exact Run.Replays.after (ih ..)
        | _ => exact Run.Replays.after (stopAt_replays _)
    | finished =>
      rw [serve_of_finished hread]
      exact ⟨rfl, rfl⟩
    | refused fault p' =>
      rw [serve_of_refused hread]
      refine Run.Replays.after (sendReply_replays _ ?_)
      intro t
      exact ⟨rfl, rfl⟩
    | request head body i' =>
      rw [serve_of_request hread]
      refine Run.Replays.after (deliver_replays head _ _ ?_)
      intro t
      exact ih .head i' t _

end Replays

/-! ## The run that is cut short -/

section Cuts

variable {io : ByteStream σ} {io' : ByteStream σ'} {fault : StreamFault}
variable {R : Nat → σ → σ' → Prop} {n : Nat} {s : σ} {s' : σ'}

inductive Interrupted (fault : StreamFault) (n : Nat) (run : Run σ τ) (run' : Run σ' τ) : Prop
  | whole (hsends : run.pieces.length ≤ n) (hevents : run'.events = run.events)
      (houtcome : run'.outcome = run.outcome)
  | cut (before : List Event) (data : Bytes) (rest : List Event) (t' : σ') (b : τ)
      (hevents : run.events = before ++ .sent data :: rest)
      (hsends : (before.filterMap Event.piece?).length = n)
      (hquiet : before.filterMap Event.debugRecord? = [])
      (hcut : run' = (stopAt fault t' b).after (before ++ [.sendFailed data fault]))

theorem Interrupted.after {run : Run σ τ} {run' : Run σ' τ} (h : Interrupted fault n run run')
    {events : List Event} (hquiet : events.filterMap Event.debugRecord? = []) :
    Interrupted fault ((events.filterMap Event.piece?).length + n) (run.after events)
      (run'.after events) := by
  cases h with
  | whole hsends hevents houtcome =>
    refine .whole ?_ ?_ houtcome
    · simp only [Run.pieces, Run.after, List.filterMap_append, List.length_append] at hsends ⊢
      omega
    · simp only [Run.after, hevents]
  | cut before data rest t' b hevents hsends hbefore hcut =>
    refine .cut (events ++ before) data rest t' b ?_ ?_ ?_ ?_
    · simp only [Run.after, hevents, List.append_assoc]
    · rw [List.filterMap_append, List.length_append, hsends]
    · rw [List.filterMap_append, hquiet, hbefore, List.nil_append]
    · rw [hcut, Run.after_after, List.append_assoc]

theorem Interrupted.after_silent {run : Run σ τ} {run' : Run σ' τ}
    (h : Interrupted fault n run run') {events : List Event}
    (hquiet : events.filterMap Event.debugRecord? = [])
    (hsilent : events.filterMap Event.piece? = []) :
    Interrupted fault n (run.after events) (run'.after events) := by
  have hafter := h.after hquiet
  rw [hsilent, List.length_nil, Nat.zero_add] at hafter
  exact hafter

private theorem Interrupted.of_ended {outcome : Option (Except Failure Unit)} {a : τ} :
    Interrupted fault n (⟨[], outcome, s, a⟩ : Run σ τ) (⟨[], outcome, s', a⟩ : Run σ' τ) :=
  .whole (Nat.zero_le n) rfl rfl

private theorem Interrupted.of_stopAt (f : StreamFault) {a : τ} :
    Interrupted fault n (stopAt f s a) (stopAt f s' a) := by
  cases f <;> exact .whole (Nat.zero_le n) rfl rfl

private theorem sendAll_cut (hcuts : io.CutsShort io' fault R) (hs : R n s s')
    (pieces : List Bytes) :
    (∃ m t t', n = pieces.length + m ∧ sendAll io pieces s = (pieces.map .sent, none, t) ∧
      sendAll io' pieces s' = (pieces.map .sent, none, t') ∧ R m t t') ∨
    ∃ (earlier : List Bytes) (piece : Bytes) (rest : List Event) (t' : σ'), earlier.length = n ∧
      (sendAll io pieces s).1 = earlier.map .sent ++ .sent piece :: rest ∧
      sendAll io' pieces s' =
        (earlier.map .sent ++ [.sendFailed piece fault], some fault, t') := by
  induction pieces generalizing n s s' with
  | nil => exact .inl ⟨n, s, s', (Nat.zero_add n).symm, rfl, rfl, hs⟩
  | cons piece others ih =>
    rcases hsend : io.send piece s with ⟨result, t⟩
    rcases hsend' : io'.send piece s' with ⟨result', t'⟩
    have htaken := hcuts.taken piece hs
    rw [hsend] at htaken
    obtain rfl : result = none := htaken
    cases n with
    | zero =>
      have hfails := hcuts.fails piece hs
      rw [hsend'] at hfails
      obtain rfl : result' = some fault := hfails
      refine .inr ⟨[], piece, (sendAll io others t).1, t', rfl, ?_, ?_⟩
      · simp only [sendAll, hsend, List.map_nil, List.nil_append]
      · simp only [sendAll, hsend', List.map_nil, List.nil_append]
    | succ n =>
      obtain ⟨hsent, hnext⟩ := hcuts.sent piece hs
      rw [hsend'] at hsent
      rw [hsend, hsend'] at hnext
      obtain rfl : result' = none := hsent
      rcases ih hnext with
        ⟨m, u, u', hm, hall, hall', hu⟩ | ⟨earlier, last, rest, u', hn, hall, hall'⟩
      · refine .inl ⟨m, u, u', ?_, ?_, ?_, hu⟩
        · rw [List.length_cons]
          omega
        · simp only [sendAll, hsend, hall, List.map_cons]
        · simp only [sendAll, hsend', hall', List.map_cons]
      · refine .inr ⟨piece :: earlier, last, rest, u', ?_, ?_, ?_⟩
        · rw [List.length_cons, hn]
        · simp only [sendAll, hsend, hall, List.map_cons, List.cons_append]
        · simp only [sendAll, hsend', hall', List.map_cons, List.cons_append]

private theorem filterMap_piece?_sent (pieces : List Bytes) :
    (pieces.map Event.sent).filterMap Event.piece? = pieces := by
  induction pieces with
  | nil => rfl
  | cons piece others ih => simp only [List.map_cons, List.filterMap_cons, Event.piece?, ih]

private theorem filterMap_debugRecord?_sent (pieces : List Bytes) :
    (pieces.map Event.sent).filterMap Event.debugRecord? = [] := by
  induction pieces with
  | nil => rfl
  | cons piece others ih => exact ih

private theorem sendReply_interrupted (hcuts : io.CutsShort io' fault R) (hs : R n s s')
    (reply : Transmission) (a : τ) {next : σ → Run σ τ} {next' : σ' → Run σ' τ}
    (hnext : ∀ {m t t'}, R m t t' → Interrupted fault m (next t) (next' t')) :
    Interrupted fault n (sendReply io reply s a next) (sendReply io' reply s' a next') := by
  simp only [sendReply_eq]
  rcases sendAll_cut hcuts hs reply.pieces with
    ⟨m, t, t', rfl, hall, hall', ht⟩ | ⟨earlier, piece, rest, t', rfl, hall, hall'⟩
  · rw [hall, hall']
    have hsettle : Interrupted fault m (reply.settle none t a next)
        (reply.settle none t' a next') := by
      cases hreply : reply.fault with
      | some why =>
        simp only [Transmission.settle, hreply]
        exact .of_ended
      | none =>
        simp only [Transmission.settle, hreply]
        split
        · exact hnext ht
        · exact .of_ended
    have hafter := hsettle.after (filterMap_debugRecord?_sent reply.pieces)
    rw [filterMap_piece?_sent] at hafter
    exact hafter
  · rw [hall', hall]
    generalize reply.settle (sendAll io reply.pieces s).2.1 (sendAll io reply.pieces s).2.2 a next =
      follow
    refine .cut (earlier.map .sent) piece (rest ++ follow.events) t' a ?_ ?_
      (filterMap_debugRecord?_sent earlier) rfl
    · simp only [Run.after, List.append_assoc, List.cons_append]
    · rw [filterMap_piece?_sent]

private theorem deliver_interrupted (hcuts : io.CutsShort io' fault R) (hs : R n s s') (head : Head)
    (request : Request) (answer : Answer) (a : τ) {next : σ → Run σ τ} {next' : σ' → Run σ' τ}
    (hnext : ∀ {m t t'}, R m t t' → Interrupted fault m (next t) (next' t')) :
    Interrupted fault n (answer.deliver io head request s a next)
      (answer.deliver io' head request s' a next') := by
  cases answer with
  | response r => exact sendReply_interrupted hcuts hs _ a hnext
  | nothing => exact .of_ended
  | raised name =>
    simp only [Answer.deliver]
    split
    · exact .of_ended
    · exact (sendReply_interrupted hcuts hs _ a hnext).after_silent rfl rfl

private theorem refusalRecord_debugRecord? (f : Fault) :
    [Event.logged (refusalRecord f)].filterMap Event.debugRecord? = [] := by
  cases f <;> rfl

private theorem serve_interrupted (hcuts : io.CutsShort io' fault R) (hs : R n s s')
    (app : Application τ) (limit : Int) (steps : Nat) (p : Progress) (i : Inbox) (a : τ) :
    Interrupted fault n (serve app limit io steps p i s a)
      (serve app limit io' steps p i s' a) := by
  induction steps generalizing n p i s s' a with
  | zero => exact .of_ended
  | succ steps ih =>
    cases hread : readOn limit p i with
    | waiting p' i' =>
      obtain ⟨hresult, hnext⟩ := hcuts.received receiveSize hs
      rw [serve_of_waiting hread, serve_of_waiting hread]
      rcases hreceive : io.receive receiveSize s with ⟨result, t⟩
      rcases hreceive' : io'.receive receiveSize s' with ⟨result', t'⟩
      rw [hreceive, hreceive'] at hresult hnext
      obtain rfl : result = result' := hresult
      cases result with
      | ok data => exact (ih hnext ..).after_silent rfl rfl
      | error f =>
        cases f with
        | ended => exact (ih hnext ..).after_silent rfl rfl
        | _ => exact (Interrupted.of_stopAt _).after_silent rfl rfl
    | finished =>
      rw [serve_of_finished hread, serve_of_finished hread]
      exact .of_ended
    | refused f p' =>
      rw [serve_of_refused hread, serve_of_refused hread]
      have hreply : Interrupted fault n
          (sendReply io (transmit p'.peer { status := f.status }) s a
            fun t => ⟨[], some (.ok ()), t, a⟩)
          (sendReply io' (transmit p'.peer { status := f.status }) s' a
            fun t => ⟨[], some (.ok ()), t, a⟩) :=
        sendReply_interrupted hcuts hs _ a fun _ => .of_ended
      exact hreply.after_silent (refusalRecord_debugRecord? f) rfl
    | request head body i' =>
      rw [serve_of_request hread, serve_of_request hread]
      refine (deliver_interrupted hcuts hs head _ _ _ ?_).after_silent rfl rfl
      intro m t t' ht
      exact ih ht ..

/-- How a run ends by a fault: the loss of the connection is logged for debugging, and any other
fault goes to the caller as it is. -/
def EndsBy (fault : StreamFault) (outcome : Option (Except Failure Unit))
    (records : List Log.Record) : Prop :=
  match fault with
  | .broken _ | .closed => outcome = some (.ok ()) ∧ ∃ r, r.level = .debug ∧ records = [r]
  | fault => outcome = some (.error (.stream fault)) ∧ records = []

/-- A run is as another one up to the send of a piece. That send fails, and nothing is done after it
with the stream or the application. -/
structure BreaksOff (app : Application τ) (io' : ByteStream σ') (s' : σ') (a : τ)
    (fault : StreamFault) (n : Nat) (run : Run σ τ) (run' : Run σ' τ) (before : List Event)
    (data : Bytes) (records : List Log.Record) : Prop where
  agrees : ∃ rest, run.events = before ++ .sent data :: rest
  events : run'.events = before ++ .sendFailed data fault :: records.map .logged
  pieces : run'.pieces = run.pieces.take n
  requests : run'.requests = before.filterMap Event.request?
  application : run'.application = before.foldl (Event.askApplication app) a
  stream : run'.stream = (io'.send data (before.foldl (Event.useStream io') s')).2
  debug : run'.events.filterMap Event.debugRecord? = records
  ended : EndsBy fault run'.outcome records

private theorem stopAt_events (fault : StreamFault) (t : σ) (b : τ) :
    ∃ records : List Log.Record, (stopAt fault t b).events = records.map .logged ∧
      (records.map Event.logged).filterMap Event.debugRecord? = records ∧
      EndsBy fault (stopAt fault t b).outcome records := by
  cases fault with
  | broken why => exact ⟨[_], rfl, rfl, rfl, _, rfl, rfl⟩
  | closed => exact ⟨[_], rfl, rfl, rfl, _, rfl, rfl⟩
  | _ => exact ⟨[], rfl, rfl, rfl, rfl⟩

private theorem filterMap_logged {α : Type} {f : Event → Option α} (hf : ∀ r, f (.logged r) = none)
    (records : List Log.Record) : (records.map Event.logged).filterMap f = [] := by
  induction records with
  | nil => rfl
  | cons r records ih => rw [List.map_cons, List.filterMap_cons, hf, ih]

private theorem foldl_logged {β : Type} {f : β → Event → β} (hf : ∀ b r, f b (.logged r) = b)
    (records : List Log.Record) (b : β) : (records.map Event.logged).foldl f b = b := by
  induction records with
  | nil => rfl
  | cons r records ih => rw [List.map_cons, List.foldl_cons, hf, ih]

/-- A send that fails only cuts a run short. If the run without the failure has at most `n` sends,
nothing changes; and if it has more, it breaks off at the send after these. -/
theorem breaks_off_at_failing_send (hcuts : io.CutsShort io' fault R) (hs : R n s s')
    (app : Application τ) (limit : Int) (steps : Nat) (p : Progress) (i : Inbox) (a : τ) :
    let run := serve app limit io steps p i s a
    let run' := serve app limit io' steps p i s' a
    (run.pieces.length ≤ n → run'.events = run.events ∧ run'.outcome = run.outcome ∧
      run'.application = run.application) ∧
    (n < run.pieces.length →
      ∃ before data records, BreaksOff app io' s' a fault n run run' before data records) := by
  intro run run'
  have hreplays : run.Replays app io s a := serve_replays app limit io steps p i s a
  have hreplays' : run'.Replays app io' s' a := serve_replays app limit io' steps p i s' a
  have hinterrupted : Interrupted fault n run run' :=
    serve_interrupted hcuts hs app limit steps p i a
  cases hinterrupted with
  | whole hsends hevents houtcome =>
    refine ⟨fun _ => ⟨hevents, houtcome, ?_⟩, fun hmore => absurd hsends (Nat.not_le.2 hmore)⟩
    rw [hreplays'.application, hreplays.application, hevents]
  | cut before data rest t' b hevents hsends hquiet hcut =>
    have hpieces : run.pieces =
        before.filterMap Event.piece? ++ data :: rest.filterMap Event.piece? := by
      rw [Run.pieces, hevents, List.filterMap_append]
      rfl
    obtain ⟨records, hstop, hdebug, hended⟩ := stopAt_events fault t' b
    have hevents' : run'.events = before ++ .sendFailed data fault :: records.map .logged := by
      rw [hcut, Run.after, hstop, List.append_assoc]
      rfl
    refine ⟨fun hfew => ?_, fun _ => ⟨before, data, records, ?_⟩⟩
    · rw [hpieces, List.length_append, List.length_cons, hsends] at hfew
      omega
    refine
      { agrees := ⟨rest, hevents⟩
        events := hevents'
        pieces := ?pieces
        requests := ?requests
        application := ?application
        stream := ?stream
        debug := ?debug
        ended := ?ended }
    case pieces =>
      rw [hpieces, ← hsends, List.take_left, Run.pieces, hevents', List.filterMap_append,
        List.filterMap_cons, filterMap_logged fun _ => rfl]
      exact List.append_nil _
    case requests =>
      have hstopped : (stopAt fault t' b).requests = [] := by cases fault <;> rfl
      rw [hcut, Run.requests_after, List.filterMap_append, hstopped, List.append_nil]
      exact List.append_nil _
    case application =>
      rw [hreplays'.application, hevents', List.foldl_append, List.foldl_cons,
        foldl_logged fun _ _ => rfl]
      rfl
    case stream =>
      rw [hreplays'.stream, hevents', List.foldl_append, List.foldl_cons,
        foldl_logged fun _ _ => rfl]
      rfl
    case debug =>
      rw [hevents', List.filterMap_append, hquiet, List.nil_append, List.filterMap_cons]
      exact hdebug
    case ended =>
      rw [hcut]
      exact hended

end Cuts

def askingAtOnce : Script where
  items := [.data (Bytes.ofString
    "GET /a HTTP/1.1\r\nHost: b\r\n\r\nGET /c HTTP/1.1\r\nHost: b\r\n\r\n")]

def greeted (transport : Script) : Run Script Nat :=
  serve (canned [.hello]) 8 Script.stream 64 .head {} transport 0

/-- The head of the second response cannot be sent: both requests have been answered, and only the
first response goes out. -/
theorem breaks_off_at_failing_send_third :
    let run := greeted askingAtOnce
    let run' := greeted (askingAtOnce.failingAfter 2 .closed)
    (askingAtOnce.sendsLeft = none ∧ run.pieces.length = 4) ∧
      run'.pieces = run.pieces.take 2 ∧ run'.requests = run.requests ∧
      run'.outcome = some (.ok ()) ∧ ∃ r, run'.events.filterMap Event.debugRecord? = [r] := by
  have hsends : (greeted askingAtOnce).pieces.length = 4 := by decide +kernel
  have hrequests : (greeted (askingAtOnce.failingAfter 2 .closed)).requests =
      (greeted askingAtOnce).requests := by decide +kernel
  have hstates : askingAtOnce.sendsLeft = none ∧
      askingAtOnce.failingAfter 2 .closed = askingAtOnce.failingAfter 2 .closed := ⟨rfl, rfl⟩
  obtain ⟨-, hcut⟩ := breaks_off_at_failing_send (Script.cutsShort .closed) hstates
    (canned [.hello]) 8 64 .head {} 0
  have hmore : 2 < (greeted askingAtOnce).pieces.length := by
    rw [hsends]
    decide
  obtain ⟨before, data, records, hbreaks⟩ := hcut hmore
  obtain ⟨hended, r, -, hrecords⟩ := hbreaks.ended
  exact ⟨⟨rfl, hsends⟩, hbreaks.pieces, hrequests, hended, r, hbreaks.debug.trans hrecords⟩

end Http

end TlsGate
