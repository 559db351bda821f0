import Mathlib.Control.Monad.Basic
import TlsGate.Proofs.Http.Conversation
import TlsGate.Proofs.Server.StreamUse

/-!
What a client can bring about. If an application gives plain answers and the stream at worst ends,
breaks or is closed, serving returns whatever the client sends, and every call is answered in full
unless a send fails. There are two exceptions: a client that asks for a tunnel and is told that it
has one, and a send that finds the stream at its end.
-/

set_option autoImplicit false
set_option relaxedAutoImplicit false

namespace TlsGate

variable {σ τ : Type}

/-- Whether a fault says that a stream has ended, is broken or has been closed. -/
def StreamFault.isLoss : StreamFault → Bool
  | ended => true
  | broken _ => true
  | closed => true
  | _ => false

namespace Http

/-! ## Answers in full -/

/-- A client that asks for a tunnel is told that it has one. -/
def OpensTunnel (request : Request) (answer : Answer) : Prop :=
  ∃ r, answer = .response r ∧ request.method = "CONNECT" ∧ r.status < 300

def Breaks (events : List Event) : Prop :=
  ∃ (earlier : List Bytes) (data : Bytes) (fault : StreamFault),
    events = earlier.map .sent ++ [.sendFailed data fault]

def StartsWithReply (request : Request) (answer : Answer) (events : List Event) : Prop :=
  ∃ (c : Call) (r : Response), c.head.request c.body = request ∧ c.answer = answer ∧
    answer.reply? = some r ∧ (transmit c.head.peer r).fault = none ∧
    (transmit c.head.peer r).pieces.map .sent <+: events

/-- In a list of events each call is answered in full before anything else, unless a tunnel is
accepted or a send fails, and then that is the end. -/
def AnswersCalls (events : List Event) : Prop :=
  ∀ request answer later, .called request answer :: later <:+ events →
    StartsWithReply request answer later ∨ OpensTunnel request answer ∨ Breaks later

private theorem answersCalls_nil : AnswersCalls [] := by
  intro request answer later h
  simp at h

theorem AnswersCalls.append {events later : List Event} (h : AnswersCalls later)
    (hevents : events.filterMap Event.request? = []) : AnswersCalls (events ++ later) := by
  induction events with
  | nil => exact h
  | cons event events ih =>
    have hnone := List.filterMap_eq_nil_iff.1 hevents
    have hrest : AnswersCalls (events ++ later) :=
      ih (List.filterMap_eq_nil_iff.2 fun e he => hnone e (List.mem_cons_of_mem _ he))
    intro request answer others hsuffix
    -- no suffix that starts with a call reaches into the events before `later`
    rw [List.cons_append, List.suffix_cons_iff] at hsuffix
    rcases hsuffix with heq | hsuffix
    · cases heq
      exact absurd (hnone _ List.mem_cons_self) (by simp [Event.request?])
    · exact hrest request answer others hsuffix

theorem AnswersCalls.cons {events : List Event} (h : AnswersCalls events) {request : Request}
    {answer : Answer}
    (hcall : StartsWithReply request answer events ∨ OpensTunnel request answer ∨
      Breaks events) :
    AnswersCalls (.called request answer :: events) := by
  intro request' answer' later hsuffix
  rw [List.suffix_cons_iff] at hsuffix
  rcases hsuffix with heq | hsuffix
  · cases heq
    exact hcall
  · exact h request' answer' later hsuffix

private theorem filterMap_request?_filter {events : List Event}
    (h : events.filterMap Event.request? = []) :
    (events.filter Event.isOutward).filterMap Event.request? = [] := by
  have hnone := List.filterMap_eq_nil_iff.1 h
  exact List.filterMap_eq_nil_iff.2 fun event hevent => hnone event (List.mem_filter.1 hevent).1

/-! ## Failures of a run -/

/-- A run fails only with a tunnel that has been accepted, or with a send that finds the stream at
its end; and it answers its calls. -/
structure Run.IsRobust (run : Run σ τ) : Prop where
  failure : ∀ failure, run.outcome = some (.error failure) →
    (failure = .unsendable .switched ∧
        ∃ request answer, .called request answer ∈ run.events ∧ OpensTunnel request answer) ∨
      (failure = .stream .ended ∧ ∃ data, .sendFailed data .ended ∈ run.events)
  answers : AnswersCalls run.conversation

namespace Run.IsRobust

variable {run : Run σ τ}

private theorem of_ok (houtcome : run.outcome = some (.ok ())) (hevents : run.conversation = []) :
    run.IsRobust := by
  refine ⟨fun failure hfailure => ?_, hevents ▸ answersCalls_nil⟩
  rw [houtcome] at hfailure
  cases hfailure

private theorem failure_after (h : run.IsRobust) (events : List Event) (failure : Failure)
    (hfailure : (run.after events).outcome = some (.error failure)) :
    (failure = .unsendable .switched ∧ ∃ request answer,
        .called request answer ∈ (run.after events).events ∧ OpensTunnel request answer) ∨
      (failure = .stream .ended ∧ ∃ data, .sendFailed data .ended ∈ (run.after events).events) := by
  rcases h.failure failure hfailure with ⟨hf, request, answer, hmem, htunnel⟩ | ⟨hf, data, hmem⟩
  · exact .inl ⟨hf, request, answer, List.mem_append_right _ hmem, htunnel⟩
  · exact .inr ⟨hf, data, List.mem_append_right _ hmem⟩

theorem after (h : run.IsRobust) {events : List Event}
    (hevents : events.filterMap Event.request? = []) : (run.after events).IsRobust := by
  refine ⟨h.failure_after events, ?_⟩
  rw [conversation_after]
  exact h.answers.append (filterMap_request?_filter hevents)

theorem called (h : run.IsRobust) {request : Request} {answer : Answer}
    (hcall : StartsWithReply request answer run.conversation ∨ OpensTunnel request answer ∨
      Breaks run.conversation) :
    (run.after [.called request answer]).IsRobust := by
  refine ⟨h.failure_after _, ?_⟩
  rw [conversation_after]
  exact h.answers.cons hcall

private theorem called_tunnel {request : Request} {answer : Answer}
    (htunnel : OpensTunnel request answer)
    (h : run.IsRobust ∨ (run.outcome = some (.error (.unsendable .switched)) ∧
      run.conversation.filterMap Event.request? = [])) :
    (run.after [.called request answer]).IsRobust := by
  rcases h with h | ⟨houtcome, hrequests⟩
  · exact h.called (.inr (.inl htunnel))
  · refine ⟨fun failure hfailure => .inl ?_, ?_⟩
    · rw [outcome_after, houtcome] at hfailure
      cases hfailure
      exact ⟨rfl, request, answer, List.mem_cons_self, htunnel⟩
    · rw [conversation_after]
      have hrest := answersCalls_nil.append hrequests
      rw [List.append_nil] at hrest
      exact hrest.cons (.inr (.inl htunnel))

end Run.IsRobust

theorem Answer.IsPlain.reply {answer : Answer} (h : answer.IsPlain) :
    ∃ r, answer.reply? = some r ∧ r.IsPlain ∧ (answer = .response r ∨ ¬ r.status < 300) := by
  cases answer with
  | response r => exact ⟨r, rfl, h, .inl rfl⟩
  | nothing => exact h.elim
  | raised name =>
    have hexits : (Failure.raised name).exits = false := h
    refine ⟨failureResponse, ?_, isPlain_of_status (by decide) (by decide), .inr (by decide)⟩
    rw [Answer.reply?, if_neg (by simp [hexits])]

private theorem Head.opensTunnel_iff {head : Head} {r : Response} :
    head.peer.opensTunnel r = true ↔ head.line.method = connectMethod ∧ r.status < 300 := by
  simp [Peer.opensTunnel, Head.peer]

/-! ## Sending -/

section Sending

variable {io : ByteStream σ} {P : σ → Prop}

private theorem sendAll_outward (io : ByteStream σ) (pieces : List Bytes) (s : σ) :
    (sendAll io pieces s).1.filter Event.isOutward = (sendAll io pieces s).1 := by
  induction pieces generalizing s with
  | nil => rfl
  | cons piece others ih =>
    simp only [sendAll]
    split
    · rfl
    · rename_i t _
      rw [List.filter_cons_of_pos rfl, ih]

private theorem stopAt_conversation (fault : StreamFault) (s : σ) (a : τ) :
    (stopAt fault s a).conversation = [] := by
  cases fault <;> rfl

private theorem stopAt_lost {fault : StreamFault} (h : fault.isLoss = true) (s : σ) (a : τ) :
    fault = .ended ∨ (stopAt fault s a).outcome = some (.ok ()) := by
  cases fault with
  | ended => exact .inl rfl
  | broken cause => exact .inr rfl
  | closed => exact .inr rfl
  | _ => cases h

private theorem stopAt_isRobust (earlier : List Bytes) (piece : Bytes) {fault : StreamFault}
    (hloss : fault.isLoss = true) (s : σ) (a : τ) :
    ((stopAt fault s a).after (earlier.map .sent ++ [.sendFailed piece fault])).IsRobust := by
  have hrequests : (earlier.map Event.sent ++ [Event.sendFailed piece fault]).filterMap
      Event.request? = [] := by
    simp [Event.request?]
  rcases stopAt_lost hloss s a with rfl | houtcome
  · refine ⟨fun failure hfailure => .inr ?_, ?_⟩
    · cases hfailure
      exact ⟨rfl, piece, List.mem_append_left _ (List.mem_append_right _ List.mem_cons_self)⟩
    · rw [Run.conversation_after, stopAt_conversation]
      exact answersCalls_nil.append (filterMap_request?_filter hrequests)
  · exact (Run.IsRobust.of_ok houtcome (stopAt_conversation fault s a)).after hrequests

variable (hb : io.Bounds P (·.isLoss = true))
include hb

private theorem sendAll_cases (pieces : List Bytes) {s : σ} (h : P s) :
    ((sendAll io pieces s).2.1 = none ∧ (sendAll io pieces s).1 = pieces.map .sent) ∨
      ∃ (earlier : List Bytes) (piece : Bytes) (fault : StreamFault),
        (sendAll io pieces s).2.1 = some fault ∧ fault.isLoss = true ∧
          (sendAll io pieces s).1 = earlier.map .sent ++ [.sendFailed piece fault] := by
  induction pieces generalizing s with
  | nil => exact .inl ⟨rfl, rfl⟩
  | cons piece others ih =>
    rcases hsend : io.send piece s with ⟨fault, t⟩
    have ht := hb.send piece s h
    have hfault := fun f => hb.sendFault piece s f h
    rw [hsend] at ht hfault
    simp only [sendAll, hsend]
    cases fault with
    | some fault => exact .inr ⟨[], piece, fault, rfl, hfault fault rfl, rfl⟩
    | none =>
      rcases ih ht with ⟨hnone, hall⟩ | ⟨earlier, piece', fault, hsome, hloss, hall⟩
      · exact .inl ⟨hnone, by simp only [hall, List.map_cons]⟩
      · exact .inr ⟨piece :: earlier, piece', fault, hsome, hloss,
          by simp only [hall, List.map_cons, List.cons_append]⟩

private theorem sendReply_isRobust {reply : Transmission} (hfault : reply.fault = none) {s : σ}
    (h : P s)
    (a : τ) {next : σ → Run σ τ}
    (hplain : ∀ event ∈ (sendReply io reply s a next).events, event.IsPlain)
    (hnext : ∀ t, P t → (∀ event ∈ (next t).events, event.IsPlain) → (next t).IsRobust) :
    (sendReply io reply s a next).IsRobust ∧
      (reply.pieces.map .sent <+: (sendReply io reply s a next).conversation ∨
        Breaks (sendReply io reply s a next).conversation) := by
  have hrequests := sendAll_requests io reply.pieces s
  have ht := sendAll_keeps hb.toKeeps reply.pieces s h
  have houtward := sendAll_outward io reply.pieces s
  have hcases := sendAll_cases hb reply.pieces h
  rw [sendReply_eq] at hplain ⊢
  dsimp only at hplain ⊢
  generalize sendAll io reply.pieces s = result at *
  obtain ⟨events, fault, t⟩ := result
  rw [Run.conversation_after, houtward]
  rcases hcases with ⟨rfl, rfl⟩ | ⟨earlier, piece, fault, rfl, hloss, rfl⟩
  · simp only [Transmission.settle, hfault] at hplain ⊢
    refine ⟨?_, .inl (List.prefix_append _ _)⟩
    refine Run.IsRobust.after ?_ hrequests
    split
    · rename_i hkeep
      rw [if_pos hkeep] at hplain
      exact hnext t ht fun event hevent => hplain event (List.mem_append_right _ hevent)
    · exact Run.IsRobust.of_ok rfl rfl
  · simp only [Transmission.settle]
    refine ⟨stopAt_isRobust earlier piece hloss t a, .inr ⟨earlier, piece, fault, ?_⟩⟩
    rw [stopAt_conversation, List.append_nil]

private theorem sendReply_switched {reply : Transmission} (hfault : reply.fault = some .switched)
    {s : σ}
    (h : P s) (a : τ) (next : σ → Run σ τ) :
    (sendReply io reply s a next).IsRobust ∨
      ((sendReply io reply s a next).outcome = some (.error (.unsendable .switched)) ∧
        (sendReply io reply s a next).conversation.filterMap Event.request? = []) := by
  have hrequests := sendAll_requests io reply.pieces s
  have hcases := sendAll_cases hb reply.pieces h
  rw [sendReply_eq]
  dsimp only
  generalize sendAll io reply.pieces s = result at *
  obtain ⟨events, fault, t⟩ := result
  rcases hcases with ⟨rfl, -⟩ | ⟨earlier, piece, fault, rfl, hloss, rfl⟩
  · simp only [Transmission.settle, hfault]
    refine .inr ⟨rfl, ?_⟩
    rw [Run.conversation_after, List.filterMap_append, filterMap_request?_filter hrequests]
    rfl
  · exact .inl (stopAt_isRobust earlier piece hloss t a)

/-! ## Serving -/

private theorem deliver_isRobust {head : Head} {body : Bytes} {answer : Answer} {s : σ} (h : P s)
    (a : τ)
    {next : σ → Run σ τ}
    (hplain : ∀ event ∈ ((answer.deliver io head (head.request body) s a next).after
      [.called (head.request body) answer]).events, event.IsPlain)
    (hnext : ∀ t, P t → (∀ event ∈ (next t).events, event.IsPlain) → (next t).IsRobust) :
    ((answer.deliver io head (head.request body) s a next).after
      [.called (head.request body) answer]).IsRobust := by
  have hanswer : answer.IsPlain := hplain (.called (head.request body) answer) List.mem_cons_self
  obtain ⟨r, hreply, hr, hgiven⟩ := hanswer.reply
  rw [deliver_of_reply hreply] at hplain ⊢
  cases htunnel : head.peer.opensTunnel r with
  | true =>
    -- the response in place of a failure accepts no tunnel, so this one is the application's own
    obtain ⟨hmethod, hstatus⟩ := Head.opensTunnel_iff.1 htunnel
    obtain rfl : answer = .response r := hgiven.resolve_right (not_not_intro hstatus)
    refine Run.IsRobust.called_tunnel ⟨r, rfl, ?_, hstatus⟩ ?_
    · simp only [Head.request, hmethod]
      decide
    · refine sendReply_switched hb ?_ h a next
      rw [Response.transmit_of_ok hr.checkedFields_eq, if_pos htunnel]
  | false =>
    have hfault : (transmit head.peer r).fault = none := by rw [hr.transmit_eq htunnel]
    have hrest : ∀ event ∈ (sendReply io (transmit head.peer r) s a next).events, event.IsPlain :=
      fun event hevent => hplain event <|
        List.mem_append_right [_] (List.mem_append_right (answer.logged _) hevent)
    obtain ⟨hrobust, hsent⟩ := sendReply_isRobust hb hfault h a hrest hnext
    refine Run.IsRobust.called (hrobust.after ?_) ?_
    · cases answer <;> rfl
    · rw [Run.conversation_after, answer.logged_silent, List.nil_append]
      refine hsent.imp (fun hprefix => ?_) .inr
      exact ⟨⟨head, body, answer⟩, r, rfl, rfl, hreply, hfault, hprefix⟩

theorem serve_isRobust {app : Application τ} {limit : Int} {steps : Nat} {p : Progress} {i : Inbox}
    {s : σ} {a : τ} (h : P s)
    (hplain : ∀ event ∈ (serve app limit io steps p i s a).events, event.IsPlain) :
    (serve app limit io steps p i s a).IsRobust := by
  -- on the steps, over all states of the stream that have the property
  induction steps generalizing p i s a with
  | zero => exact ⟨fun failure hfailure => (by cases hfailure), answersCalls_nil⟩
  | succ steps ih =>
    cases hread : readOn limit p i with
    | waiting p' i' =>
      have ht := hb.receive receiveSize s h
      have hfault := fun f => hb.receiveFault receiveSize s f h
      rw [serve_of_waiting hread] at hplain ⊢
      rcases hreceive : io.receive receiveSize s with ⟨result, t⟩
      rw [hreceive] at hplain ht hfault
      cases result with
      | ok data =>
        exact (ih ht fun event hevent =>
          hplain event (List.mem_append_right _ hevent)).after rfl
      | error fault =>
        have hloss := hfault fault rfl
        cases fault with
        | ended =>
          exact (ih ht fun event hevent =>
            hplain event (List.mem_append_right _ hevent)).after rfl
        | broken cause => exact (Run.IsRobust.of_ok rfl rfl).after rfl
        | closed => exact (Run.IsRobust.of_ok rfl rfl).after rfl
        | _ => cases hloss
    | finished =>
      rw [serve_of_finished hread]
      exact .of_ok rfl rfl
    | refused fault p' =>
      rw [serve_of_refused hread] at hplain ⊢
      -- what answers a refused request is a head, which can be sent to every client
      refine Run.IsRobust.after (sendReply_isRobust hb ?_ h a ?_ ?_).1 rfl
      · rw [transmit_refusal]
      · exact fun event hevent => hplain event (List.mem_append_right _ hevent)
      · exact fun t _ _ => .of_ok rfl rfl
    | request head body j =>
      rw [serve_of_request hread] at hplain ⊢
      exact deliver_isRobust hb h _ hplain fun t ht hevents => ih ht hevents

end Sending

/-- What a client can bring about. With plain answers, on a transport that is at worst lost, serving
returns whatever is received, unless it has accepted a tunnel or a send finds the transport at its
end; and every call is answered with the whole response before anything else is sent or called,
unless a tunnel is accepted or a send fails. -/
theorem fails_only_by_tunnel (app : Application τ) (limit : Int) {transport : Script}
    (hlost : transport.OnlyFaults (·.isLoss = true)) {steps : Nat}
    (hsteps : stepsLeft .head {} transport < steps) (application : τ)
    (hplain : ∀ event ∈ (serve app limit Script.stream steps .head {} transport application).events,
      event.IsPlain) :
    let run := serve app limit Script.stream steps .head {} transport application
    (run.outcome = some (.ok ()) ∨
      (run.outcome = some (.error (.unsendable .switched)) ∧
        ∃ request answer, .called request answer ∈ run.events ∧ OpensTunnel request answer) ∨
      (run.outcome = some (.error (.stream .ended)) ∧
        ∃ data, .sendFailed data .ended ∈ run.events)) ∧
      AnswersCalls run.conversation := by
  intro run
  have hended : run.outcome ≠ none := serve_ends hsteps
  have hrobust : run.IsRobust := serve_isRobust (Script.bounds_onlyFaults rfl) hlost hplain
  refine ⟨?_, hrobust.answers⟩
  cases houtcome : run.outcome with
  | none => exact absurd houtcome hended
  | some result =>
    cases result with
    | ok _ => exact .inl rfl
    | error failure =>
      rcases hrobust.failure failure houtcome with ⟨rfl, htunnel⟩ | ⟨rfl, hfailed⟩
      · exact .inr (.inl ⟨rfl, htunnel⟩)
      · exact .inr (.inr ⟨rfl, hfailed⟩)

def askingTwice : Script where
  items :=
    [.data (Bytes.ofString "CONNECT a:1 HTTP/1.1\r\nHost: a\r\n\r\nGET /b HTTP/1.1\r\n"),
      .data (Bytes.ofString "Host: a\r\n\r\n"), .fault (.broken .lost)]

def declining : Application Nat := canned [.respond { status := 405 }, .hello]

/-- A tunnel is declined, another request is greeted, and then the transport breaks. -/
theorem fails_only_by_tunnel_declined :
    let run := serve declining 8 Script.stream 256 .head {} askingTwice 0
    askingTwice.OnlyFaults (·.isLoss = true) ∧ stepsLeft .head {} askingTwice < 256 ∧
      (∀ event ∈ run.events, event.IsPlain) ∧
      run.requests.map (·.method) = ["CONNECT", "GET"] ∧ run.outcome = some (.ok ()) ∧
      AnswersCalls run.conversation := by
  intro run
  have hlost : askingTwice.OnlyFaults (·.isLoss = true) := by
    refine ⟨fun fault hfault => ?_, rfl⟩
    obtain rfl : fault = .broken .lost := by simpa [askingTwice] using hfault
    rfl
  have hsteps : stepsLeft .head {} askingTwice < 256 := by decide +kernel
  have hplain : ∀ event ∈ run.events, event.IsPlain := by decide +kernel
  obtain ⟨-, hanswers⟩ := fails_only_by_tunnel declining 8 hlost hsteps 0 hplain
  exact ⟨hlost, hsteps, hplain, by decide +kernel, by decide +kernel, hanswers⟩

def askingTunnel : Script where
  items := [.data (Bytes.ofString "CONNECT x:443 HTTP/1.1\r\nhost: x\r\n\r\n")]

/-- A client that asks the demonstration application for a tunnel makes serving fail, with the head
of the response sent and its body not. -/
theorem hello_fails_by_tunnel :
    let run := serve (canned [.hello]) defaultBodyLimit Script.stream 128 .head {} askingTunnel 0
    askingTunnel.OnlyFaults (·.isLoss = true) ∧ stepsLeft .head {} askingTunnel < 128 ∧
      (∀ event ∈ run.events, event.IsPlain) ∧
      run.outcome = some (.error (.unsendable .switched)) ∧
      run.output = Bytes.ofString
        "HTTP/1.1 200 \r\ncontent-type: text/plain\r\ncontent-length: 24\r\n\r\n" := by
  intro run
  have hlost : askingTunnel.OnlyFaults (·.isLoss = true) := ⟨by simp [askingTunnel], rfl⟩
  exact ⟨hlost, by decide +kernel, by decide +kernel, by decide +kernel, by decide +kernel⟩

end Http

end TlsGate
