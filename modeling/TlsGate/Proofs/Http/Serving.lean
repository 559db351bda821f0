import TlsGate.Proofs.Http.Resuming
import TlsGate.Stream.Script

/-!
Runs of the HTTP handler step by step. After an answer a run either ends or goes on with the next
request, and which of the two it is does not depend on how it would go on; so runs on streams that
take the same data alike go the same way.
-/

set_option autoImplicit false
set_option relaxedAutoImplicit false

namespace TlsGate

variable {σ σ' τ : Type}

def ByteStream.SendAlike (io : ByteStream σ) (io' : ByteStream σ') (R : σ → σ' → Prop) : Prop :=
  ∀ data s s', data ≠ [] → R s s' →
    (io.send data s).1 = (io'.send data s').1 ∧ R (io.send data s).2 (io'.send data s').2

/-- A scripted transport takes data alike in two states with the same limit and history, whatever
is still to be received. -/
structure Script.SameSends (s s' : Script) : Prop where
  sendsLeft : s.sendsLeft = s'.sendsLeft
  sendFault : s.sendFault = s'.sendFault
  sent : s.sent = s'.sent

theorem Script.sendAlike (items items' : List ScriptItem) :
    stream.SendAlike stream
      fun s s' => s.SameSends s' ∧ s.items = items ∧ s'.items = items' := by
  intro data s s' _ h
  obtain ⟨⟨hleft, hfault, hsent⟩, rfl, rfl⟩ := h
  simp only [Script.stream, Script.send, hleft, hfault]
  split
  · exact ⟨rfl, ⟨hleft, hfault, hsent⟩, rfl, rfl⟩
  · exact ⟨rfl, ⟨rfl, rfl, by simp only [hsent]⟩, rfl, rfl⟩

namespace Http

/-! ## What is seen of a run -/

def Event.isOutward : Event → Bool
  | .called .. => true
  | .sent _ => true
  | .sendFailed .. => true
  | _ => false

def Event.request? : Event → Option Request
  | .called request _ => some request
  | _ => none

def Event.output : Event → Bytes
  | .sent data => data
  | _ => []

namespace Run

/-- The calls of the application and the sends of a run, in order. -/
def conversation (run : Run σ τ) : List Event := run.events.filter Event.isOutward

def output (run : Run σ τ) : Bytes := run.events.flatMap Event.output

theorem requests_eq (run : Run σ τ) :
    run.requests = run.conversation.filterMap Event.request? := by
  unfold requests conversation
  rw [List.filterMap_filter]
  congr 1
  funext event
  cases event <;> rfl

theorem output_eq (run : Run σ τ) : run.output = run.conversation.flatMap Event.output := by
  unfold output conversation
  induction run.events with
  | nil => rfl
  | cons event events ih =>
    cases event <;> simp [List.filter_cons, Event.isOutward, Event.output, ih]

@[simp] theorem conversation_after (events : List Event) (run : Run σ τ) :
    (run.after events).conversation = events.filter Event.isOutward ++ run.conversation := by
  simp [conversation, after]

@[simp] theorem outcome_after (events : List Event) (run : Run σ τ) :
    (run.after events).outcome = run.outcome := rfl

@[simp] theorem application_after (events : List Event) (run : Run σ τ) :
    (run.after events).application = run.application := rfl

@[simp] theorem stream_after (events : List Event) (run : Run σ τ) :
    (run.after events).stream = run.stream := rfl

theorem requests_after (events : List Event) (run : Run σ τ) :
    (run.after events).requests = events.filterMap Event.request? ++ run.requests := by
  have hrequests (run : Run σ τ) : run.requests = run.events.filterMap Event.request? := by
    unfold requests
    congr 1
  rw [hrequests, hrequests, after, List.filterMap_append]

private theorem after_nil (run : Run σ τ) : run.after [] = run := rfl

theorem after_after (earlier later : List Event) (run : Run σ τ) :
    (run.after later).after earlier = run.after (earlier ++ later) := by
  simp [after]

structure Agrees (R : σ → σ' → Prop) (run : Run σ τ) (run' : Run σ' τ) : Prop where
  conversation : run.conversation = run'.conversation
  outcome : run.outcome = run'.outcome
  application : run.application = run'.application
  stream : R run.stream run'.stream

theorem Agrees.after {R : σ → σ' → Prop} {run : Run σ τ} {run' : Run σ' τ} (h : run.Agrees R run')
    {events events' : List Event}
    (he : events.filter Event.isOutward = events'.filter Event.isOutward) :
    (run.after events).Agrees R (run'.after events') := by
  refine ⟨?_, h.outcome, h.application, h.stream⟩
  rw [conversation_after, conversation_after, he, h.conversation]

end Run

/-! ## Answering -/

variable {io : ByteStream σ} {io' : ByteStream σ'} {R : σ → σ' → Prop}

inductive Parallel (R : σ → σ' → Prop) (k : (σ → Run σ τ) → Run σ τ)
    (k' : (σ' → Run σ' τ) → Run σ' τ) : Prop
  | ends (run : Run σ τ) (run' : Run σ' τ) (hk : ∀ next, k next = run)
      (hk' : ∀ next, k' next = run') (hended : run.outcome ≠ none) (h : run.Agrees R run')
  | goesOn (events : List Event) (s : σ) (s' : σ')
      (hk : ∀ next, k next = (next s).after events)
      (hk' : ∀ next, k' next = (next s').after events) (h : R s s')

theorem Parallel.after {k : (σ → Run σ τ) → Run σ τ} {k' : (σ' → Run σ' τ) → Run σ' τ}
    (h : Parallel R k k') (events : List Event) :
    Parallel R (fun next => (k next).after events) (fun next => (k' next).after events) := by
  cases h with
  | ends run run' hk hk' hended h =>
    exact .ends (run.after events) (run'.after events) (fun next => by rw [hk])
      (fun next => by rw [hk']) hended (h.after rfl)
  | goesOn later s s' hk hk' h =>
    exact .goesOn (events ++ later) s s' (fun next => by rw [hk, Run.after_after])
      (fun next => by rw [hk', Run.after_after]) h

theorem Parallel.outcome_ne_none {k : (σ → Run σ τ) → Run σ τ} {k' : (σ' → Run σ' τ) → Run σ' τ}
    (h : Parallel R k k') {next : σ → Run σ τ}
    (hnext : ∀ s s', R s s' → (next s).outcome ≠ none) : (k next).outcome ≠ none := by
  cases h with
  | ends run run' hk hk' hended h =>
    rw [hk]
    exact hended
  | goesOn events s s' hk hk' h =>
    rw [hk]
    exact hnext s s' h

theorem transmit_pieces (peer : Peer) (r : Response) :
    ∀ piece ∈ (transmit peer r).pieces, piece ≠ [] := by
  have hhead (status : Int) (fs : List Field) : writeHead status fs ≠ [] :=
    List.append_ne_nil_of_right_ne_nil _ (List.cons_ne_nil _ _)
  have hbody (form : BodyForm) (body : Bytes) : ∀ piece ∈ (bodyPieces form body).1, piece ≠ [] := by
    have hall : ∀ piece ∈ if body.isEmpty then [] else [body], piece ≠ [] := by
      cases body <;> simp
    have hlast : Bytes.ofString "0\r\n\r\n" ≠ [] := by decide
    intro piece hpiece
    cases form with
    | counted n =>
      simp only [bodyPieces] at hpiece
      split at hpiece
      · cases hpiece
      · exact hall piece hpiece
    | chunked =>
      simp only [bodyPieces] at hpiece
      split at hpiece
      · exact List.mem_singleton.1 hpiece ▸ hlast
      · simp only [List.mem_cons, List.not_mem_nil, or_false] at hpiece
        rcases hpiece with rfl | rfl
        · exact List.append_ne_nil_of_right_ne_nil _ (List.cons_ne_nil _ _)
        · exact hlast
    | untilClose => exact hall piece hpiece
  intro piece hpiece
  unfold transmit at hpiece
  split at hpiece
  · cases hpiece
  · dsimp only at hpiece
    split at hpiece
    · exact List.mem_singleton.1 hpiece ▸ hhead _ _
    · rcases List.mem_cons.1 hpiece with rfl | hpiece
      · exact hhead _ _
      · exact hbody _ _ piece hpiece

private theorem sendAll_alike (hio : io.SendAlike io' R) (pieces : List Bytes)
    (hpieces : ∀ piece ∈ pieces, piece ≠ []) {s : σ} {s' : σ'} (h : R s s') :
    (sendAll io pieces s).1 = (sendAll io' pieces s').1 ∧
      (sendAll io pieces s).2.1 = (sendAll io' pieces s').2.1 ∧
      R (sendAll io pieces s).2.2 (sendAll io' pieces s').2.2 := by
  induction pieces generalizing s s' with
  | nil => exact ⟨rfl, rfl, h⟩
  | cons piece others ih =>
    obtain ⟨hfault, hnext⟩ := hio piece s s' (hpieces piece List.mem_cons_self) h
    rcases hsend : io.send piece s with ⟨fault, t⟩
    rcases hsend' : io'.send piece s' with ⟨fault', t'⟩
    rw [hsend, hsend'] at hfault hnext
    simp only at hfault hnext
    subst hfault
    cases fault with
    | some fault => simp only [sendAll, hsend, hsend', hnext, and_self]
    | none =>
      obtain ⟨hevents, hfaults, hlast⟩ :=
        ih (fun x hx => hpieces x (List.mem_cons_of_mem _ hx)) hnext
      simp only [sendAll, hsend, hsend', hevents, hfaults, hlast, and_self]

theorem sendAll_requests (io : ByteStream σ) (pieces : List Bytes) (s : σ) :
    (sendAll io pieces s).1.filterMap Event.request? = [] := by
  induction pieces generalizing s with
  | nil => rfl
  | cons piece others ih =>
    simp only [sendAll]
    split
    · rfl
    · rename_i t _
      exact ih t

private theorem stopAt_agrees (fault : StreamFault) {s : σ} {s' : σ'} (h : R s s')
    (application : τ) :
    (stopAt fault s application).Agrees R (stopAt fault s' application) := by
  cases fault <;> exact ⟨rfl, rfl, rfl, h⟩

theorem stopAt_outcome (fault : StreamFault) (s : σ) (application : τ) :
    (stopAt fault s application).outcome ≠ none := by
  cases fault <;> simp [stopAt]

def Transmission.settle (reply : Transmission) (fault : Option StreamFault) (stream : σ)
    (application : τ) (next : σ → Run σ τ) : Run σ τ :=
  match fault, reply.fault with
  | some fault, _ => stopAt fault stream application
  | none, some why => ⟨[], some (.error (.unsendable why)), stream, application⟩
  | none, none =>
    if reply.keepsAlive then next stream else ⟨[], some (.ok ()), stream, application⟩

theorem sendReply_eq (io : ByteStream σ) (reply : Transmission) (s : σ) (application : τ) :
    sendReply io reply s application = fun next =>
      (reply.settle (sendAll io reply.pieces s).2.1 (sendAll io reply.pieces s).2.2 application
        next).after (sendAll io reply.pieces s).1 := rfl

private theorem settle_parallel (reply : Transmission) (fault : Option StreamFault) {s : σ}
    {s' : σ'}
    (h : R s s') (application : τ) :
    Parallel R (reply.settle fault s application) (reply.settle fault s' application) := by
  cases fault with
  | some fault =>
    exact .ends _ _ (fun _ => rfl) (fun _ => rfl) (stopAt_outcome fault s application)
      (stopAt_agrees fault h application)
  | none =>
    cases hreply : reply.fault with
    | some why =>
      exact .ends ⟨[], some (.error (.unsendable why)), s, application⟩
        ⟨[], some (.error (.unsendable why)), s', application⟩
        (fun _ => by simp only [Transmission.settle, hreply])
        (fun _ => by simp only [Transmission.settle, hreply])
        (Option.some_ne_none _) ⟨rfl, rfl, rfl, h⟩
    | none =>
      by_cases hkeep : reply.keepsAlive = true
      · exact .goesOn [] s s'
          (fun _ => by simp only [Transmission.settle, hreply, if_pos hkeep, Run.after_nil])
          (fun _ => by simp only [Transmission.settle, hreply, if_pos hkeep, Run.after_nil]) h
      · exact .ends ⟨[], some (.ok ()), s, application⟩ ⟨[], some (.ok ()), s', application⟩
          (fun _ => by simp only [Transmission.settle, hreply, if_neg hkeep])
          (fun _ => by simp only [Transmission.settle, hreply, if_neg hkeep])
          (Option.some_ne_none _) ⟨rfl, rfl, rfl, h⟩

theorem sendReply_parallel (hio : io.SendAlike io' R) (peer : Peer) (r : Response) {s : σ}
    {s' : σ'} (h : R s s') (application : τ) :
    Parallel R (sendReply io (transmit peer r) s application)
      (sendReply io' (transmit peer r) s' application) := by
  obtain ⟨hevents, hfault, hnext⟩ :=
    sendAll_alike hio (transmit peer r).pieces (transmit_pieces peer r) h
  rw [sendReply_eq, sendReply_eq, hevents, hfault]
  exact (settle_parallel _ _ hnext application).after _

def crashRecord (request : Request) (name : String) : Log.Record :=
  ⟨.http, .error, request.method ++ " " ++ request.target ++
    ": application thrown an unhandled exception:", none, some (.raised name)⟩

def Answer.deliver (io : ByteStream σ) (head : Head) (request : Request) (answer : Answer)
    (stream : σ) (application : τ) (next : σ → Run σ τ) : Run σ τ :=
  match answer with
  | .response r => sendReply io (transmit head.peer r) stream application next
  | .nothing => ⟨[], some (.error .noResponse), stream, application⟩
  | .raised name =>
    if (Failure.raised name).exits then ⟨[], some (.error (.raised name)), stream, application⟩
    else
      (sendReply io (transmit head.peer failureResponse) stream application next).after
        [.logged (crashRecord request name)]

theorem deliver_parallel (hio : io.SendAlike io' R) (head : Head) (request : Request)
    (answer : Answer) {s : σ} {s' : σ'} (h : R s s') (application : τ) :
    Parallel R (answer.deliver io head request s application)
      (answer.deliver io' head request s' application) := by
  cases answer with
  | response r => exact sendReply_parallel hio head.peer r h application
  | nothing =>
    exact .ends _ _ (fun _ => rfl) (fun _ => rfl) (Option.some_ne_none _) ⟨rfl, rfl, rfl, h⟩
  | raised name =>
    unfold Answer.deliver
    dsimp only
    split
    · exact .ends _ _ (fun _ => rfl) (fun _ => rfl) (Option.some_ne_none _) ⟨rfl, rfl, rfl, h⟩
    · exact (sendReply_parallel hio head.peer failureResponse h application).after _

section Requests

variable {P : Request → Prop}

theorem stopAt_requests (fault : StreamFault) (s : σ) (a : τ) :
    (stopAt fault s a).requests = [] := by
  cases fault <;> rfl

theorem forall_sendReply {reply : Transmission} {s : σ} {a : τ} {next : σ → Run σ τ}
    (hnext : ∀ t, ∀ request ∈ (next t).requests, P request) :
    ∀ request ∈ (sendReply io reply s a next).requests, P request := by
  intro request hrequest
  rw [sendReply_eq] at hrequest
  simp only [Run.requests_after, sendAll_requests, List.nil_append] at hrequest
  unfold Transmission.settle at hrequest
  split at hrequest
  · simp [stopAt_requests] at hrequest
  · simp [Run.requests] at hrequest
  · split at hrequest
    · exact hnext _ request hrequest
    · simp [Run.requests] at hrequest

theorem forall_deliver {head : Head} {asked : Request} {answer : Answer} {s : σ} {a : τ}
    {next : σ → Run σ τ} (hnext : ∀ t, ∀ request ∈ (next t).requests, P request) :
    ∀ request ∈ (answer.deliver io head asked s a next).requests, P request := by
  intro request hrequest
  cases answer with
  | response r => exact forall_sendReply hnext request hrequest
  | nothing => simp [Answer.deliver, Run.requests] at hrequest
  | raised name =>
    simp only [Answer.deliver] at hrequest
    split at hrequest
    · simp [Run.requests] at hrequest
    · rw [Run.requests_after] at hrequest
      exact forall_sendReply hnext request hrequest

end Requests

/-! ## Equations of a run -/

variable {app : Application τ} {limit : Int} {steps : Nat} {p : Progress} {i : Inbox} {s : σ}
variable {a : τ}

theorem serve_of_waiting {p' : Progress} {i' : Inbox} (h : readOn limit p i = .waiting p' i') :
    serve app limit io (steps + 1) p i s a =
      match io.receive receiveSize s with
      | (.ok data, t) =>
        (serve app limit io steps p' ⟨i'.buffer ++ data, data.isEmpty⟩ t a).after [.received data]
      | (.error .ended, t) =>
        (serve app limit io steps p' { i' with closed := true } t a).after [.receiveFailed .ended]
      | (.error fault, t) => (stopAt fault t a).after [.receiveFailed fault] := by
  rewrite [serve, h]
  rfl

theorem serve_of_finished (h : readOn limit p i = .finished) :
    serve app limit io (steps + 1) p i s a = ⟨[], some (.ok ()), s, a⟩ := by
  simp only [serve, h]

theorem serve_of_refused {fault : Fault} {p' : Progress}
    (h : readOn limit p i = .refused fault p') :
    serve app limit io (steps + 1) p i s a =
      (sendReply io (transmit p'.peer { status := fault.status }) s a
        fun t => ⟨[], some (.ok ()), t, a⟩).after [.logged (refusalRecord fault)] := by
  simp only [serve, h]

theorem serve_of_request {head : Head} {body : Bytes} {i' : Inbox}
    (h : readOn limit p i = .request head body i') :
    serve app limit io (steps + 1) p i s a =
      ((app.answer (head.request body) a).1.deliver io head (head.request body) s
        (app.answer (head.request body) a).2
        fun t => serve app limit io steps .head i' t (app.answer (head.request body) a).2).after
        [.called (head.request body) (app.answer (head.request body) a).1] := by
  rewrite [serve, h]
  rfl

/-! ## Runs that end -/

theorem sendAlike_refl (io : ByteStream σ) : io.SendAlike io Eq := by
  intro data s s' _ h
  subst h
  exact ⟨rfl, rfl⟩

theorem serve_more_steps {more : Nat} (h : (serve app limit io steps p i s a).outcome ≠ none)
    (hle : steps ≤ more) :
    serve app limit io more p i s a = serve app limit io steps p i s a := by
  induction steps generalizing more p i s a with
  | zero => exact absurd rfl h
  | succ steps ih =>
    obtain ⟨more, rfl⟩ : ∃ k, more = k + 1 := ⟨more - 1, by omega⟩
    have hle : steps ≤ more := by omega
    cases hread : readOn limit p i with
    | waiting p' i' =>
      rw [serve_of_waiting hread] at h ⊢
      rw [serve_of_waiting hread]
      split at h <;> rename_i hreceive
      · rw [ih h hle]
      · rw [ih h hle]
      · rfl
    | finished => rw [serve_of_finished hread, serve_of_finished hread]
    | refused fault p' => rw [serve_of_refused hread, serve_of_refused hread]
    | request head body i' =>
      rw [serve_of_request hread] at h ⊢
      rw [serve_of_request hread]
      have hpar := deliver_parallel (sendAlike_refl io) head (head.request body)
        (app.answer (head.request body) a).1 (Eq.refl s) (app.answer (head.request body) a).2
      cases hpar with
      | ends _ _ hk => rw [hk, hk]
      | goesOn _ _ _ hk =>
        rw [hk] at h
        rw [hk, hk, ih h hle]

/-! ### Runs on scripts -/

def Progress.lack : Progress → Nat
  | .head => 0
  | .body .. => 1

def Reading.Shrinks (i : Inbox) (size : Nat) : Reading → Prop
  | .waiting p' i' =>
    i.closed = false ∧ i'.closed = false ∧ i'.buffer.length + p'.lack ≤ size
  | .request _ _ i' => i'.closed = i.closed ∧ i'.buffer.length < size
  | _ => True

theorem Reading.Shrinks.mono {r : Reading} {j : Inbox} {size most : Nat}
    (h : r.Shrinks i size) (hclosed : i.closed = j.closed) (hle : size ≤ most) :
    r.Shrinks j most := by
  cases r with
  | waiting p' i' => exact ⟨hclosed ▸ h.1, h.2.1, Nat.le_trans h.2.2 hle⟩
  | request head body i' => exact ⟨h.1.trans hclosed, Nat.lt_of_lt_of_le h.2 hle⟩
  | finished => trivial
  | refused fault p' => trivial

private theorem wait_shrinks (p : Progress) (i : Inbox) :
    (wait p i).Shrinks i (i.buffer.length + p.lack) := by
  unfold wait
  split
  · split
    · split <;> trivial
    · trivial
  · rename_i hopen
    have hopen : i.closed = false := by simpa using hopen
    split
    · trivial
    · exact ⟨hopen, hopen, Nat.le_refl _⟩

private theorem readBody_shrinks {head : Head} {d : Decoder} {ps : List Bytes} {n : Nat} :
    (readBody limit head d ps n i).Shrinks i (i.buffer.length + 1) := by
  fun_induction readBody limit head d ps n i with
  | case1 d ps n i hstep => exact wait_shrinks _ i
  | case2 d ps n i data rest next hstep hlimit => trivial
  | case3 d ps n i data rest next hstep hlimit ih =>
    have hlt := Decoder.step_piece_length hstep
    exact ih.mono rfl (Nat.succ_le_succ (Nat.le_of_lt hlt))
  | case4 d ps n i rest next hstep ih =>
    have hlt := Decoder.step_passed_length hstep
    exact ih.mono rfl (Nat.succ_le_succ (Nat.le_of_lt hlt))
  | case5 d ps n i rest hstep =>
    exact ⟨rfl, Nat.lt_succ_of_le (Decoder.step_complete_length hstep)⟩
  | case6 d ps n i fault hstep => trivial

private theorem readHead_shrinks : (readHead limit i).Shrinks i i.buffer.length := by
  cases hlines : takeLines i.buffer with
  | none =>
    rw [readHead_of_none hlines]
    split
    · trivial
    · exact wait_shrinks .head i
  | some found =>
    obtain ⟨lines, rest⟩ := found
    cases hparse : Head.parse lines with
    | error fault =>
      rw [readHead_of_error hlines hparse]
      trivial
    | ok head =>
      by_cases hlong : head.isTooLong limit
      · rw [readHead_of_tooLong hlines hparse hlong]
        trivial
      · rw [readHead_of_ok hlines hparse hlong]
        exact (readBody_shrinks (i := { i with buffer := rest })).mono rfl (takeLines_length hlines)

theorem readOn_shrinks (limit : Int) (p : Progress) (i : Inbox) :
    (readOn limit p i).Shrinks i (i.buffer.length + p.lack) := by
  cases p with
  | head => exact readHead_shrinks
  | body => exact readBody_shrinks

/-- How many steps are left at most: what is still to come counts twice, once for being received
and once for being read. -/
def stepsLeft (p : Progress) (i : Inbox) (s : Script) : Nat :=
  2 * s.size + i.buffer.length + p.lack + if i.closed then 0 else 1

private theorem receive_size {most : Nat} (hmost : 0 < most) {s t : Script}
    {result : Except StreamFault Bytes} (h : s.receive most = (result, t)) :
    t.size ≤ s.size ∧ ∀ data, result = .ok data → 2 * t.size + data.length < 2 * s.size := by
  unfold Script.receive at h
  simp only at h
  split at h <;> rename_i hitems <;> simp only [Prod.mk.injEq] at h <;> obtain ⟨rfl, rfl⟩ := h
  · exact ⟨by simp [Script.size, hitems], fun _ hok => by cases hok⟩
  · refine ⟨?_, fun _ hok => by cases hok⟩
    simp only [Script.size, hitems, List.foldr_cons]
    exact Nat.le_add_left _ _
  · refine ⟨?_, fun _ hok => by cases hok⟩
    simp only [Script.size, hitems, List.foldr_cons]
    exact Nat.le_add_left _ _
  · rename_i data items hne
    have hpos : 0 < data.length := List.length_pos_iff.2 hne
    simp only [Script.size, hitems, List.foldr_cons, Script.weight]
    by_cases hle : data.length ≤ most
    · rw [if_pos hle]
      refine ⟨by omega, fun taken htaken => ?_⟩
      cases htaken
      rw [List.length_take]
      omega
    · rw [if_neg hle]
      simp only [List.foldr_cons, List.length_drop]
      refine ⟨by omega, fun taken htaken => ?_⟩
      cases htaken
      rw [List.length_take]
      omega

section steps

variable {s t : Script} {p' : Progress} {i' : Inbox}

private theorem stepsLeft_received {data : Bytes} {closed : Bool}
    (h : (Reading.waiting p' i').Shrinks i (i.buffer.length + p.lack))
    (hsize : 2 * t.size + data.length < 2 * s.size) :
    stepsLeft p' ⟨i'.buffer ++ data, closed⟩ t < stepsLeft p i s := by
  obtain ⟨hopen, -, hle⟩ := h
  simp only [stepsLeft, hopen, List.length_append, Bool.false_eq_true, if_false]
  split <;> omega

private theorem stepsLeft_closed (h : (Reading.waiting p' i').Shrinks i (i.buffer.length + p.lack))
    (hsize : t.size ≤ s.size) :
    stepsLeft p' { i' with closed := true } t < stepsLeft p i s := by
  obtain ⟨hopen, -, hle⟩ := h
  simp only [stepsLeft, hopen, Bool.false_eq_true, if_false, if_true]
  omega

private theorem stepsLeft_request {head : Head} {body : Bytes}
    (h : (Reading.request head body i').Shrinks i (i.buffer.length + p.lack))
    (hitems : t.items = s.items) : stepsLeft .head i' t < stepsLeft p i s := by
  obtain ⟨hclosed, hlt⟩ := h
  have hsize : t.size = s.size := by rw [Script.size, Script.size, hitems]
  have hhead : Progress.head.lack = 0 := rfl
  simp only [stepsLeft, hclosed, hsize, hhead]
  omega

end steps

theorem serve_ends {s : Script} (h : stepsLeft p i s < steps) :
    (serve app limit Script.stream steps p i s a).outcome ≠ none := by
  induction steps generalizing p i s a with
  | zero => exact absurd h (Nat.not_lt_zero _)
  | succ steps ih =>
    have hle := Nat.le_of_lt_succ h
    have hshrinks := readOn_shrinks limit p i
    cases hread : readOn limit p i with
    | waiting p' i' =>
      rw [hread] at hshrinks
      rw [serve_of_waiting hread]
      rcases hreceive : Script.stream.receive receiveSize s with ⟨result, t⟩
      obtain ⟨hsize, hdata⟩ := receive_size (by decide) hreceive
      cases result with
      | ok data => exact ih (Nat.lt_of_lt_of_le (stepsLeft_received hshrinks (hdata data rfl)) hle)
      | error fault =>
        cases fault with
        | ended => exact ih (Nat.lt_of_lt_of_le (stepsLeft_closed hshrinks hsize) hle)
        | _ => exact stopAt_outcome _ _ _
    | finished =>
      rw [serve_of_finished hread]
      exact Option.some_ne_none _
    | refused fault p' =>
      rw [serve_of_refused hread, Run.outcome_after]
      have hpar := sendReply_parallel (sendAlike_refl Script.stream) p'.peer
        { status := fault.status } (Eq.refl s) a
      refine hpar.outcome_ne_none ?_
      intro t t' ht
      exact Option.some_ne_none _
    | request head body i' =>
      rw [hread] at hshrinks
      rw [serve_of_request hread, Run.outcome_after]
      have hpar := deliver_parallel (Script.sendAlike s.items s.items) head (head.request body)
        (app.answer (head.request body) a).1 (s := s) ⟨⟨rfl, rfl, rfl⟩, rfl, rfl⟩
        (app.answer (head.request body) a).2
      refine hpar.outcome_ne_none ?_
      intro t t' ht
      exact ih (Nat.lt_of_lt_of_le (stepsLeft_request hshrinks ht.2.1) hle)

end Http

end TlsGate
