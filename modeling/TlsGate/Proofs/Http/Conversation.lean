import TlsGate.Proofs.Http.Delivery
import TlsGate.Proofs.Http.Lifecycle

/-!
The shape of a conversation. On a transport that does not fail, the bytes that a server sends are
the whole responses to its calls of the application, in the order of the calls, and then a single
error response without a body exactly if the next request is refused. Nothing is done with the
application or the stream after that.
-/

set_option autoImplicit false
set_option relaxedAutoImplicit false

namespace TlsGate

variable {σ τ : Type}

/-- A transport that takes all data, and that gives data or nothing more. -/
structure Script.NeverFails (s : Script) : Prop where
  takes : s.sendsLeft = none
  gives : ∀ fault, .fault fault ∈ s.items → fault = .ended

theorem Script.NeverFails.receive {s t : Script} (h : s.NeverFails) {most : Nat}
    {result : Except StreamFault Bytes} (hreceive : stream.receive most s = (result, t)) :
    ((∃ data, result = .ok data) ∨ result = .error .ended) ∧ t.NeverFails := by
  simp only [stream, Script.receive] at hreceive
  split at hreceive <;> rename_i hitems <;> simp only [Prod.mk.injEq] at hreceive <;>
    obtain ⟨rfl, rfl⟩ := hreceive
  · exact ⟨.inr rfl, h.takes, h.gives⟩
  · rename_i fault items
    obtain rfl := h.gives fault (by simp [hitems])
    exact ⟨.inr rfl, h.takes, fun f hf => h.gives f (by simp [hitems, hf])⟩
  · exact ⟨.inr rfl, h.takes, fun f hf => h.gives f (by simp [hitems, hf])⟩
  · refine ⟨.inl ⟨_, rfl⟩, h.takes, fun f hf => h.gives f ?_⟩
    dsimp only at hf
    split at hf <;> simp_all

namespace Http

/-! ## Readings and calls -/

/-- Reading, with as much receiving as it takes, comes to a place; the stream is then in a state. -/
inductive Obtains (limit : Int) (io : ByteStream σ) :
    Progress → Inbox → σ → Reading → σ → Prop
  | reads (p : Progress) (i : Inbox) (s : σ) : Obtains limit io p i s (readOn limit p i) s
  | receives {p p' : Progress} {i i' : Inbox} {s t u : σ} {data : Bytes} {found : Reading}
      (waits : readOn limit p i = .waiting p' i')
      (received : io.receive receiveSize s = (.ok data, t))
      (rest : Obtains limit io p' ⟨i'.buffer ++ data, data.isEmpty⟩ t found u) :
      Obtains limit io p i s found u
  | ends {p p' : Progress} {i i' : Inbox} {s t u : σ} {found : Reading}
      (waits : readOn limit p i = .waiting p' i')
      (ended : io.receive receiveSize s = (.error .ended, t))
      (rest : Obtains limit io p' { i' with closed := true } t found u) :
      Obtains limit io p i s found u

/-- A call of the application: the request, as its head and its body, and the answer. -/
structure Call where
  head : Head
  body : Bytes
  answer : Answer

namespace Call

def pieces (c : Call) : List Bytes :=
  c.answer.reply?.elim [] fun r => (transmit c.head.peer r).pieces

/-- What the application and the client see of a call that is answered in full. -/
def events (c : Call) : List Event :=
  .called (c.head.request c.body) c.answer :: c.pieces.map .sent

def IsComplete (c : Call) : Prop :=
  ∃ r, c.answer.reply? = some r ∧ (transmit c.head.peer r).fault = none

end Call

/-- Why no further call follows. -/
inductive Ending where
  | closed
  | exchanged
  | refused (fault : Fault) (peer : Peer)
  deriving DecidableEq, Repr

def Ending.pieces : Ending → List Bytes
  | refused fault peer => [refusalHead peer fault]
  | _ => []

/-- The calls that a server makes and how it ends, as far as reading and the answers of the
application decide them. -/
inductive Converses (app : Application τ) (limit : Int) (io : ByteStream σ) :
    Progress → Inbox → σ → τ → List Call → Ending → Prop
  | closed {p : Progress} {i : Inbox} {s t : σ} {a : τ}
      (finished : Obtains limit io p i s .finished t) : Converses app limit io p i s a [] .closed
  | refused {p p' : Progress} {i : Inbox} {s t : σ} {a : τ} {fault : Fault}
      (refused : Obtains limit io p i s (.refused fault p') t) :
      Converses app limit io p i s a [] (.refused fault p'.peer)
  | last {p : Progress} {i j : Inbox} {s t : σ} {a : τ} {head : Head} {body : Bytes} {r : Response}
      (asked : Obtains limit io p i s (.request head body j) t)
      (answered : (app.answer (head.request body) a).1.reply? = some r)
      (ends : (transmit head.peer r).keepsAlive = false) :
      Converses app limit io p i s a [⟨head, body, (app.answer (head.request body) a).1⟩] .exchanged
  | next {p : Progress} {i j : Inbox} {s t u : σ} {a : τ} {head : Head} {body : Bytes}
      {r : Response} {calls : List Call} {ending : Ending} {events : List Event}
      (asked : Obtains limit io p i s (.request head body j) t)
      (answered : (app.answer (head.request body) a).1.reply? = some r)
      (sent : sendAll io (transmit head.peer r).pieces t = (events, none, u))
      (goesOn : (transmit head.peer r).keepsAlive = true)
      (rest : Converses app limit io .head j u (app.answer (head.request body) a).2 calls ending) :
      Converses app limit io p i s a
        (⟨head, body, (app.answer (head.request body) a).1⟩ :: calls) ending

private theorem Call.filter_events {c : Call} {r : Response} (hreply : c.answer.reply? = some r) :
    ([Event.called (c.head.request c.body) c.answer] ++ (c.answer.logged (c.head.request c.body) ++
        (transmit c.head.peer r).pieces.map Event.sent)).filter Event.isOutward = c.events := by
  rw [List.filter_append, List.filter_append, Answer.logged_silent, filter_sent, List.nil_append,
    Call.events, Call.pieces, hreply]
  rfl

/-! ## Runs that tell a conversation -/

/-- A run returns, and what the application and the client see of it are the calls, each answered in
full, and the end. After an error response there is nothing. -/
structure Run.Tells (run : Run σ τ) (calls : List Call) (ending : Ending) : Prop where
  outcome : run.outcome = some (.ok ())
  conversation : run.conversation = calls.flatMap Call.events ++ ending.pieces.map .sent
  complete : ∀ c ∈ calls, c.IsComplete
  last : ∀ fault peer, ending = .refused fault peer →
    ∃ before, run.events = before ++ [.logged (refusalRecord fault), .sent (refusalHead peer fault)]

namespace Run.Tells

variable {run : Run σ τ} {calls : List Call} {ending : Ending}

theorem after (h : run.Tells calls ending) {events : List Event}
    (hevents : events.filter Event.isOutward = []) : (run.after events).Tells calls ending := by
  refine ⟨h.outcome, ?_, h.complete, fun fault peer hending => ?_⟩
  · rw [conversation_after, hevents, List.nil_append, h.conversation]
  · obtain ⟨before, hbefore⟩ := h.last fault peer hending
    exact ⟨events ++ before, by rw [Run.after, hbefore, List.append_assoc]⟩

theorem called (h : run.Tells calls ending) {c : Call} {events : List Event}
    (hc : c.IsComplete) (hevents : events.filter Event.isOutward = c.events) :
    (run.after events).Tells (c :: calls) ending := by
  refine ⟨h.outcome, ?_, ?_, fun fault peer hending => ?_⟩
  · rw [conversation_after, hevents, h.conversation, List.flatMap_cons, List.append_assoc]
  · rintro c' (_ | ⟨_, hc'⟩)
    · exact hc
    · exact h.complete c' hc'
  · obtain ⟨before, hbefore⟩ := h.last fault peer hending
    exact ⟨events ++ before, by rw [Run.after, hbefore, List.append_assoc]⟩

theorem output_eq (h : run.Tells calls ending) :
    run.output = (calls.flatMap Call.pieces ++ ending.pieces).flatten := by
  have hsent (pieces : List Bytes) :
      (pieces.map Event.sent).flatMap Event.output = pieces.flatten := by
    rw [List.flatMap_map]
    exact List.flatMap_id'
  have hcalls (calls : List Call) :
      (calls.flatMap Call.events).flatMap Event.output = (calls.flatMap Call.pieces).flatten := by
    induction calls with
    | nil => rfl
    | cons c calls ih =>
      rw [List.flatMap_cons, List.flatMap_append, ih, List.flatMap_cons, List.flatten_append,
        Call.events, List.flatMap_cons, hsent]
      rfl
  rw [Run.output_eq, h.conversation, List.flatMap_append, hcalls, hsent, List.flatten_append]

end Run.Tells

/-! ## The head of each request was read -/

def Progress.IsParsed (p : Progress) : Prop :=
  ∀ head, p.head? = some head → ∃ lines, Head.parse lines = .ok head

def Reading.IsParsed : Reading → Prop
  | .waiting p _ => p.IsParsed
  | .request head _ _ => ∃ lines, Head.parse lines = .ok head
  | .finished => True
  | .refused _ p => p.IsParsed

private theorem Reading.Keeps.isParsed {head : Head} {reading : Reading} (h : reading.Keeps head)
    (hparsed : ∃ lines, Head.parse lines = .ok head) : reading.IsParsed := by
  have hprogress {p : Progress} (hp : p.head? = some head) : p.IsParsed := by
    intro head' hhead'
    rw [hp] at hhead'
    cases hhead'
    exact hparsed
  cases reading with
  | waiting p i => exact hprogress h
  | request head' body i =>
    cases h
    exact hparsed
  | finished => trivial
  | refused fault p => exact hprogress h

theorem isParsed_head : Progress.head.IsParsed := by
  intro head hhead
  cases hhead

private theorem readOn_isParsed (limit : Int) {p : Progress} (hp : p.IsParsed) (i : Inbox) :
    (readOn limit p i).IsParsed := by
  cases p with
  | body head d ps n => exact (readBody_keeps limit head d ps n i).isParsed (hp head rfl)
  | head =>
    simp only [readOn]
    cases hlines : takeLines i.buffer with
    | none =>
      rw [readHead_of_none hlines]
      split
      · exact isParsed_head
      · unfold wait
        split
        · split
          · split
            · trivial
            · exact isParsed_head
          · exact isParsed_head
        · split <;> exact isParsed_head
    | some found =>
      obtain ⟨lines, rest⟩ := found
      cases hparse : Head.parse lines with
      | error fault =>
        rw [readHead_of_error hlines hparse]
        exact isParsed_head
      | ok head =>
        by_cases hlong : head.isTooLong limit
        · rw [readHead_of_tooLong hlines hparse hlong]
          intro head' hhead'
          cases hhead'
          exact ⟨lines, hparse⟩
        · rw [readHead_of_ok hlines hparse hlong]
          exact (readBody_keeps ..).isParsed ⟨lines, hparse⟩

/-! ## Serving tells the conversation -/

/-- Every answer that is given in a run is a response that can be sent in full to the client that
has asked, or an error that does not make the process exit. -/
def Run.IsSendable (run : Run σ τ) : Prop :=
  ∀ lines head body answer, Head.parse lines = .ok head →
    .called (head.request body) answer ∈ run.events →
    match answer with
    | .response r => (transmit head.peer r).fault = none
    | .nothing => False
    | .raised name => (Failure.raised name).exits = false

private theorem Run.IsSendable.of_after {run : Run σ τ} {events : List Event}
    (h : (run.after events).IsSendable) : run.IsSendable :=
  fun lines head body answer hparse hmem =>
    h lines head body answer hparse (List.mem_append_right events hmem)

private theorem Run.IsSendable.isComplete {run : Run σ τ} (h : run.IsSendable) {lines : List Bytes}
    {c : Call} (hparse : Head.parse lines = .ok c.head)
    (hmem : .called (c.head.request c.body) c.answer ∈ run.events) : c.IsComplete := by
  obtain ⟨head, body, answer⟩ := c
  have hanswer := h lines head body answer hparse hmem
  cases answer with
  | response r => exact ⟨r, rfl, hanswer⟩
  | nothing => exact hanswer.elim
  | raised name =>
    simp only at hanswer
    refine ⟨failureResponse, ?_, by rw [transmit_failureResponse]⟩
    rw [Answer.reply?, if_neg (by simp [hanswer])]

theorem Head.method_ne_connect {head : Head} {body : Bytes}
    (h : (head.request body).method ≠ "CONNECT") : head.line.method ≠ connectMethod := by
  intro hmethod
  refine h ?_
  simp only [Head.request, hmethod]
  decide

theorem Run.isSendable_of_delimited {run : Run σ τ}
    (hdelimited : ∀ event ∈ run.events, event.IsDelimited)
    (hconnect : ∀ request ∈ run.requests, request.method ≠ "CONNECT") : run.IsSendable := by
  intro lines head body answer _ hmem
  have hanswer : answer.IsDelimited := hdelimited _ hmem
  cases answer with
  | response r =>
    have hrequest : head.request body ∈ run.requests :=
      List.mem_filterMap.2 ⟨_, hmem, rfl⟩
    have hmethod : head.line.method ≠ connectMethod :=
      Head.method_ne_connect (hconnect _ hrequest)
    have htunnel : head.peer.opensTunnel r = false := by
      simp [Peer.opensTunnel, Head.peer, hmethod]
    exact Response.IsDelimited.isSendable hanswer htunnel
  | nothing => exact hanswer
  | raised name => exact hanswer

private theorem Run.isSendable_of_plain {run : Run σ τ}
    (hplain : ∀ event ∈ run.events, event.IsPlain)
    (hconnect : ∀ request ∈ run.requests, request.method ≠ "CONNECT") : run.IsSendable :=
  isSendable_of_delimited (fun event hevent => (hplain event hevent).isDelimited) hconnect

variable {app : Application τ} {limit : Int}

private theorem Converses.after_receiving {io : ByteStream σ} {p p' : Progress} {i j : Inbox}
    {s t : σ}
    {a : τ} {calls : List Call} {ending : Ending}
    (h : Converses app limit io p' j t a calls ending)
    (hobtains : ∀ found u, Obtains limit io p' j t found u → Obtains limit io p i s found u) :
    Converses app limit io p i s a calls ending := by
  cases h with
  | closed finished => exact .closed (hobtains _ _ finished)
  | refused refused => exact .refused (hobtains _ _ refused)
  | last asked answered ends => exact .last (hobtains _ _ asked) answered ends
  | next asked answered sent goesOn rest =>
    exact .next (hobtains _ _ asked) answered sent goesOn rest

theorem serve_tells {steps : Nat} {p : Progress} {i : Inbox} {s : Script} {a : τ}
    (hs : s.NeverFails) (hp : p.IsParsed)
    (hended : (serve app limit Script.stream steps p i s a).outcome ≠ none)
    (happ : (serve app limit Script.stream steps p i s a).IsSendable) :
    ∃ calls ending, Converses app limit Script.stream p i s a calls ending ∧
      (serve app limit Script.stream steps p i s a).Tells calls ending := by
  -- on the steps; that heads were read from lines is what makes the answers sendable
  induction steps generalizing p i s a with
  | zero => exact absurd rfl hended
  | succ steps ih =>
    have hparsed := readOn_isParsed limit hp i
    have hobtains : Obtains limit Script.stream p i s (readOn limit p i) s := .reads p i s
    cases hread : readOn limit p i with
    | waiting p' i' =>
      rw [hread] at hparsed
      rw [serve_of_waiting hread] at hended happ ⊢
      rcases hreceive : Script.stream.receive receiveSize s with ⟨result, t⟩
      obtain ⟨hresult, ht⟩ := hs.receive hreceive
      rw [hreceive] at hended happ
      -- receiving is no part of the conversation, it only moves the place where reading stands
      rcases hresult with ⟨data, rfl⟩ | rfl
      · obtain ⟨calls, ending, hconverses, htells⟩ := ih ht hparsed hended happ.of_after
        exact ⟨calls, ending,
          hconverses.after_receiving fun _ _ => .receives hread hreceive, htells.after rfl⟩
      · obtain ⟨calls, ending, hconverses, htells⟩ := ih ht hparsed hended happ.of_after
        exact ⟨calls, ending,
          hconverses.after_receiving fun _ _ => .ends hread hreceive, htells.after rfl⟩
    | finished =>
      rw [hread] at hobtains
      rw [serve_of_finished hread]
      exact ⟨[], .closed, .closed hobtains, rfl, rfl, by simp, by simp⟩
    | refused fault p' =>
      rw [hread] at hobtains
      refine ⟨[], .refused fault p'.peer, .refused hobtains, ?_⟩
      obtain ⟨t, -, -, hsent⟩ := sendReply_open
        (congrArg Transmission.fault (transmit_refusal p'.peer fault)) hs.takes a
      rw [serve_of_refused hread, hsent, transmit_refusal, ite_self]
      refine ⟨rfl, rfl, by simp, ?_⟩
      rintro _ _ ⟨⟩
      exact ⟨[], rfl⟩
    | request head body j =>
      rw [hread] at hobtains hparsed
      obtain ⟨lines, hlines⟩ := hparsed
      rw [serve_of_request hread] at hended happ ⊢
      obtain ⟨r, hreply, hfault⟩ := happ.isComplete (c := ⟨head, body, _⟩) hlines List.mem_cons_self
      have happ := happ.of_after
      obtain ⟨t, hsent, hitems, hleft⟩ := sendAll_open (transmit head.peer r).pieces hs.takes
      have hrest : t.NeverFails := ⟨hleft, fun fault hmem => hs.gives fault (hitems ▸ hmem)⟩
      rw [deliver_of_reply hreply, sendReply_eq, hsent] at hended happ ⊢
      simp only [Transmission.settle, hfault, Run.after_after, Run.outcome_after] at hended happ ⊢
      have hevents := Call.filter_events (c := ⟨head, body, (app.answer (head.request body) a).1⟩)
        hreply
      cases hkeep : (transmit head.peer r).keepsAlive with
      | false =>
        refine ⟨_, .exchanged, .last hobtains hreply hkeep,
          Run.Tells.called ?_ ⟨r, hreply, hfault⟩ hevents⟩
        exact ⟨rfl, rfl, by simp, by simp⟩
      | true =>
        rw [hkeep, if_pos rfl] at hended happ
        rw [if_pos rfl]
        obtain ⟨calls, ending, hconverses, htells⟩ := ih hrest isParsed_head hended happ.of_after
        exact ⟨_, ending, .next hobtains hreply hsent hkeep hconverses,
          htells.called ⟨r, hreply, hfault⟩ hevents⟩

/-- The shape of a conversation. On a transport that does not fail, serving makes calls and ends as
reading and the answers of the application decide it; it sends the whole response to each call
before the next one, and after them a single head with one of four statuses exactly if the next
request is refused. Nothing is received, sent or called after that. The states of the two sides of
the connection never keep the server from sending that head, or from what else it does. -/
theorem tells_conversation (app : Application τ) (limit : Int) {transport : Script}
    (hfaultless : transport.NeverFails) {steps : Nat}
    (hsteps : stepsLeft .head {} transport < steps) (application : τ)
    (happ : (serve app limit Script.stream steps .head {} transport application).IsSendable) :
    let run := serve app limit Script.stream steps .head {} transport application
    ∃ calls ending,
      Converses app limit Script.stream .head {} transport application calls ending ∧
      run.Tells calls ending ∧
      run.output = (calls.flatMap Call.pieces ++ ending.pieces).flatten ∧
      (∀ fault peer, ending = .refused fault peer →
        fault.status ∈ ([400, 413, 431, 501] : List Int)) ∧
      serveBySides app limit Script.stream steps {} .head {} transport application = run := by
  intro run
  have hended : run.outcome ≠ none := serve_ends hsteps
  obtain ⟨calls, ending, hconverses, htells⟩ := serve_tells hfaultless isParsed_head hended happ
  refine ⟨calls, ending, hconverses, htells, htells.output_eq, ?_, ?_⟩
  · rintro fault peer -
    exact fault.status_mem
  · exact serveBySides_eq steps .head {} transport application

def interrupted : Script where
  items :=
    [.data (Bytes.ofString "GET /a HTTP/1.1\r\nHost: b\r\n\r\nPOST /c HTTP/1.1\r\nHost"),
      .data (Bytes.ofString ": b\r\nContent-Length: 1\r\n\r\ndGET /e"), .fault .ended]

def greeting : Application Nat := canned [.hello, .raised "ValueError"]

/-- The first request is greeted, the second is answered with a failure, and the rest is refused. -/
theorem tells_conversation_interrupted :
    let run := serve greeting 8 Script.stream 512 .head {} interrupted 0
    interrupted.NeverFails ∧ stepsLeft .head {} interrupted < 512 ∧ run.IsSendable ∧
      run.requests.map (·.target) = ["/a", "/c"] ∧
      ∃ calls ending, Converses greeting 8 Script.stream .head {} interrupted 0 calls ending ∧
        run.Tells calls ending ∧
        run.events.getLast? = some (.sent (refusalHead Peer.unknown .cutOff)) := by
  intro run
  have hfaultless : interrupted.NeverFails := ⟨rfl, by simp [interrupted]⟩
  have hsteps : stepsLeft .head {} interrupted < 512 := by decide +kernel
  have hplain : ∀ event ∈ run.events, event.IsPlain := by decide +kernel
  have hconnect : ∀ request ∈ run.requests, request.method ≠ "CONNECT" := by decide +kernel
  have happ : run.IsSendable := Run.isSendable_of_plain hplain hconnect
  obtain ⟨calls, ending, hconverses, htells, -⟩ :=
    tells_conversation greeting 8 hfaultless hsteps 0 happ
  exact ⟨hfaultless, hsteps, happ, by decide +kernel, calls, ending, hconverses, htells,
    by decide +kernel⟩

end Http

end TlsGate
