import TlsGate.Proofs.Http.Segmentation
import TlsGate.Proofs.Http.Written

/-!
Delivery of pipelined requests. Main statement: requests that are written one after the other, and
received in any pieces, are handed to the application one by one and unchanged, each after the whole
response to the one before, up to the first that ends the connection.
-/

set_option autoImplicit false
set_option relaxedAutoImplicit false

namespace TlsGate.Http

variable {τ : Type}

/-! ## The conversation that requests call for -/

/-- The response that goes out for an answer, if one does. -/
def Answer.reply? : Answer → Option Response
  | .response r => some r
  | .nothing => none
  | .raised name => if (Failure.raised name).exits then none else some failureResponse

def exchange (request : Request) (answer : Answer) : List Event :=
  .called request answer ::
    (answer.reply?.elim [] fun r => (transmit request.peer r).pieces.map .sent)

/-- The exchanges for requests in order, up to the first that ends the connection. -/
def exchanges (app : Application τ) : List Request → τ → List Event
  | [], _ => []
  | request :: others, application =>
    let (answer, application) := app.answer request application
    exchange request answer ++
      if request.keepsAlive then exchanges app others application else []

/-- The requests up to the first that ends the connection. -/
def served : List Request → List Request
  | [] => []
  | request :: others => request :: if request.keepsAlive then served others else []

private theorem exchanges_requests (app : Application τ) (requests : List Request)
    (application : τ) :
    (exchanges app requests application).filterMap Event.request? = served requests := by
  induction requests generalizing application with
  | nil => rfl
  | cons request others ih =>
    have hsent (pieces : List Bytes) :
        (pieces.map Event.sent).filterMap Event.request? = [] := by
      rw [List.filterMap_map]
      exact List.filterMap_eq_nil_iff.2 fun _ _ => rfl
    have hexchange (answer : Answer) :
        (exchange request answer).filterMap Event.request? = [request] := by
      simp only [exchange, List.filterMap_cons, Event.request?]
      cases answer.reply? with
      | none => rfl
      | some r => rw [Option.elim_some, hsent]
    simp only [exchanges, served]
    rw [List.filterMap_append, hexchange]
    split
    · rw [ih]
      rfl
    · rfl

/-! ## Answering on a transport that takes everything -/

theorem sendAll_open (pieces : List Bytes) {s : Script} (hopen : s.sendsLeft = none) :
    ∃ t : Script, sendAll Script.stream pieces s = (pieces.map .sent, none, t) ∧
      t.items = s.items ∧ t.sendsLeft = none := by
  induction pieces generalizing s with
  | nil => exact ⟨s, rfl, rfl, hopen⟩
  | cons piece pieces ih =>
    have hsend : Script.stream.send piece s =
        (none, { s with sent := piece :: s.sent }) := by
      simp only [Script.stream, Script.send, hopen, Option.map_none]
    obtain ⟨t, ht, hitems, hleft⟩ := ih (s := { s with sent := piece :: s.sent }) hopen
    exact ⟨t, by simp only [sendAll, hsend, ht, List.map_cons], hitems, hleft⟩

theorem sendReply_open {reply : Transmission} (hfault : reply.fault = none) {s : Script}
    (hopen : s.sendsLeft = none) (a : τ) :
    ∃ t : Script, t.items = s.items ∧ t.sendsLeft = none ∧ ∀ next,
      sendReply Script.stream reply s a next =
        (if reply.keepsAlive then next t else ⟨[], some (.ok ()), t, a⟩).after
          (reply.pieces.map .sent) := by
  obtain ⟨t, ht, hitems, hleft⟩ := sendAll_open reply.pieces hopen
  refine ⟨t, hitems, hleft, fun next => ?_⟩
  simp only [sendReply, ht, hfault]

/-- What is logged of an answer before its response is sent. -/
def Answer.logged (request : Request) : Answer → List Event
  | .raised name => [.logged (crashRecord request name)]
  | _ => []

theorem Answer.logged_silent (request : Request) (answer : Answer) :
    (answer.logged request).filter Event.isOutward = [] := by
  cases answer <;> rfl

theorem deliver_of_reply {σ : Type} {io : ByteStream σ} {head : Head} {request : Request}
    {answer : Answer} {r : Response} (hreply : answer.reply? = some r) (s : σ) (a : τ)
    (next : σ → Run σ τ) :
    answer.deliver io head request s a next =
      (sendReply io (transmit head.peer r) s a next).after (answer.logged request) := by
  cases answer with
  | response r' =>
    cases hreply
    rfl
  | nothing => cases hreply
  | raised name =>
    simp only [Answer.reply?] at hreply
    split at hreply
    · cases hreply
    · rename_i hexits
      cases hreply
      simp only [Answer.deliver, if_neg hexits, Answer.logged]

theorem filter_sent (pieces : List Bytes) :
    (pieces.map Event.sent).filter Event.isOutward = pieces.map .sent := by
  refine List.filter_eq_self.2 fun event hevent => ?_
  obtain ⟨piece, -, rfl⟩ := List.mem_map.1 hevent
  rfl

private theorem deliver_open {head : Head} (request : Request) {answer : Answer} {r : Response}
    (hreply : answer.reply? = some r) (hfault : (transmit head.peer r).fault = none) {s : Script}
    (hopen : s.sendsLeft = none) (a : τ) :
    ∃ (t : Script) (events : List Event), t.items = s.items ∧ t.sendsLeft = none ∧
      events.filter Event.isOutward = (transmit head.peer r).pieces.map .sent ∧ ∀ next,
      answer.deliver Script.stream head request s a next =
        (if (transmit head.peer r).keepsAlive then next t else ⟨[], some (.ok ()), t, a⟩).after
          events := by
  obtain ⟨t, hitems, hleft, hnext⟩ := sendReply_open hfault hopen a
  refine ⟨t, answer.logged request ++ (transmit head.peer r).pieces.map .sent, hitems, hleft, ?_,
    fun next => ?_⟩
  · rw [List.filter_append, answer.logged_silent, filter_sent, List.nil_append]
  · rw [deliver_of_reply hreply, hnext, Run.after_after]

/-! ## Serving written requests -/

variable {app : Application τ} {limit : Int} {steps : Nat} {s : Script} {a : τ}

private theorem serve_nothing (hitems : s.items = [])
    (hended : (serve app limit Script.stream steps .head ⟨[], false⟩ s a).outcome ≠ none) :
    (serve app limit Script.stream steps .head ⟨[], false⟩ s a).outcome = some (.ok ()) ∧
      (serve app limit Script.stream steps .head ⟨[], false⟩ s a).conversation = [] := by
  cases steps with
  | zero => exact absurd rfl hended
  | succ steps =>
    have hnone : takeLines [] = none := by
      rw [takeLines]
      rfl
    have hwait : readOn limit .head ⟨[], false⟩ = .waiting .head ⟨[], false⟩ :=
      readHead_of_none (i := ⟨[], false⟩) hnone
    have hfinish : readOn limit .head ⟨[], true⟩ = .finished :=
      readHead_of_none (i := ⟨[], true⟩) hnone
    have hreceive : Script.stream.receive receiveSize s =
        (.error .ended, { s with receives := s.receives + 1 }) := by
      simp only [Script.stream, Script.receive, hitems]
    rw [serve_of_waiting hwait, hreceive] at hended ⊢
    cases steps with
    | zero => exact absurd rfl hended
    | succ steps =>
      simp only [serve_of_finished hfinish]
      exact ⟨rfl, rfl⟩

private theorem serve_written {written : List Written} (hw : ∀ w ∈ written, w.WellFormed limit)
    (happ : ∀ w ∈ written, ∀ state, ∃ r, (app.answer w.request.lowered state).1.reply? = some r ∧
      r.IsAccepted w.request.lowered.peer)
    (hitems : s.items = []) (hopen : s.sendsLeft = none)
    (hended : (serve app limit Script.stream steps .head
      ⟨written.flatMap Written.bytes, false⟩ s a).outcome ≠ none) :
    (serve app limit Script.stream steps .head ⟨written.flatMap Written.bytes, false⟩ s a).outcome =
        some (.ok ()) ∧
      (serve app limit Script.stream steps .head
        ⟨written.flatMap Written.bytes, false⟩ s a).conversation =
        exchanges app (written.map (·.request.lowered)) a := by
  induction written generalizing steps s a with
  | nil => exact serve_nothing hitems hended
  | cons w written ih =>
    cases steps with
    | zero => exact absurd rfl hended
    | succ steps =>
      have hwell := hw w List.mem_cons_self
      have hread : readOn limit .head ⟨(w :: written).flatMap Written.bytes, false⟩ =
          .request w.parsed w.request.body ⟨written.flatMap Written.bytes, false⟩ :=
        Written.readHead_bytes hwell _ false
      obtain ⟨r, hreply, haccepted⟩ := happ w List.mem_cons_self a
      obtain ⟨t, events, hitems', hopen', hevents, hnext⟩ :=
        deliver_open w.request.lowered hreply
          (by rw [Written.parsed_peer]; exact haccepted.sendable) hopen
          (app.answer w.request.lowered a).2
      rw [serve_of_request hread, Written.parsed_request hwell, hnext] at hended ⊢
      rw [Written.parsed_peer] at hevents hended ⊢
      have hexchange : (Event.called w.request.lowered (app.answer w.request.lowered a).1 ::
          events.filter Event.isOutward) =
          exchange w.request.lowered (app.answer w.request.lowered a).1 := by
        rw [exchange, hreply, hevents]
        rfl
      rw [haccepted.transmit_keepsAlive Request.modern_of_keepsAlive] at hended ⊢
      simp only [Run.outcome_after, Run.conversation_after, List.map_cons, exchanges] at hended ⊢
      rw [List.filter_cons_of_pos rfl, List.filter_nil, ← List.append_assoc, List.singleton_append,
        hexchange]
      cases hkeep : w.request.lowered.keepsAlive with
      | false =>
        rw [Request.peer, hkeep]
        exact ⟨rfl, rfl⟩
      | true =>
        rw [Request.peer, hkeep] at hended ⊢
        obtain ⟨houtcome, hconversation⟩ := ih (fun x hx => hw x (List.mem_cons_of_mem _ hx))
          (fun x hx => happ x (List.mem_cons_of_mem _ hx)) (hitems'.trans hitems) hopen' hended
        exact ⟨houtcome, by rw [← hconversation]; rfl⟩

private theorem fits_written {written : List Written} (hw : ∀ w ∈ written, w.WellFormed limit) :
    Place.head.Fits (written.flatMap Written.bytes) := by
  induction written with
  | nil => exact Place.fits_of_length (Nat.zero_le _)
  | cons w written ih =>
    rw [List.flatMap_cons]
    exact Written.fits_bytes (hw w List.mem_cons_self)
      (ih fun x hx => hw x (List.mem_cons_of_mem _ hx))

/-- Requests written one after the other and received in any pieces are handed to the application
in order and unchanged, but for the letter case of the names of fields, up to the first that ends
the connection; each is handed over after the whole response to the one before, and nothing after
the last one is. -/
theorem delivers_served (app : Application τ) (limit : Int) {transport : Script}
    (hopen : transport.sendsLeft = none) (application : τ) {written : List Written}
    {cut : List Bytes} (hw : ∀ w ∈ written, w.WellFormed limit) (hcut : ∀ x ∈ cut, x ≠ [])
    (hflat : cut.flatten = written.flatMap Written.bytes)
    (happ : ∀ w ∈ written, ∀ state, ∃ r, (app.answer w.request.lowered state).1.reply? = some r ∧
      r.IsAccepted w.request.lowered.peer) :
    let requests := written.map (·.request.lowered)
    let run := serveCut app limit transport cut application
    run.outcome = some (.ok ()) ∧ run.requests = served requests ∧
      run.conversation = exchanges app requests application := by
  intro requests run
  have hequals := serveCut_equals app limit transport application hcut (hflat ▸ fits_written hw)
  have hended := hequals.outcome ▸ serveCut_ends app limit transport cut application
  rw [hflat] at hequals hended
  obtain ⟨houtcome, hconversation⟩ :=
    serve_written (s := transport.feed []) hw happ rfl hopen hended
  have hrun : run.conversation = exchanges app requests application :=
    hequals.conversation.trans hconversation
  refine ⟨hequals.outcome.trans houtcome, ?_, hrun⟩
  rw [Run.requests_eq, hrun, exchanges_requests]

private theorem echo_reply (request : Request) (state : Nat) :
    ((canned [.echo]).answer request state).1.reply? = some (echo request) := by
  cases state <;> rfl

def pipelined : List Written :=
  let host := (Bytes.ofString "Host", Bytes.ofString "b")
  let coding := (Bytes.ofString "Transfer-Encoding", chunkedCoding)
  let length := (Bytes.ofString "Content-Length", Bytes.ofString "2")
  let close := (Bytes.ofString "Connection", Bytes.ofString "Close")
  [⟨{ method := "POST", target := "/a", fields := [host, coding], body := Bytes.ofString "abc" },
      .chunked [⟨Bytes.ofString "ab", Bytes.ofString ";x=1"⟩, ⟨Bytes.ofString "c", []⟩]⟩,
    ⟨{ method := "PUT", target := "/b", fields := [length, host, close],
       body := Bytes.ofString "de" }, .counted⟩,
    ⟨{ method := "GET", target := "/c", fields := [host] }, .bare⟩]

theorem delivers_served_pipelined :
    let cut := (pipelined.flatMap Written.bytes).map fun b => [b]
    Script.sendsLeft {} = none ∧ (∀ w ∈ pipelined, w.WellFormed 3) ∧ (∀ x ∈ cut, x ≠ []) ∧
      cut.flatten = pipelined.flatMap Written.bytes ∧
      (∀ w ∈ pipelined, ∀ state, ∃ r,
        ((canned [.echo]).answer w.request.lowered state).1.reply? = some r ∧
          r.IsAccepted w.request.lowered.peer) ∧
      (serveCut (canned [.echo]) 3 {} cut 0).requests =
        (pipelined.take 2).map (·.request.lowered) := by
  intro cut
  have hopen : Script.sendsLeft {} = none := rfl
  have hw : ∀ w ∈ pipelined, w.WellFormed 3 := by decide +kernel
  have hcut : ∀ x ∈ cut, x ≠ [] := by decide +kernel
  have hflat : cut.flatten = pipelined.flatMap Written.bytes := by decide +kernel
  have happ : ∀ w ∈ pipelined, ∀ state, ∃ r,
      ((canned [.echo]).answer w.request.lowered state).1.reply? = some r ∧
        r.IsAccepted w.request.lowered.peer := by
    intro w hmem state
    have haccepted : ∀ w ∈ pipelined,
        (echo w.request.lowered).IsAccepted w.request.lowered.peer := by
      decide +kernel
    exact ⟨echo w.request.lowered, echo_reply w.request.lowered state, haccepted w hmem⟩
  obtain ⟨-, hrequests, -⟩ := delivers_served (canned [.echo]) 3 hopen 0 hw hcut hflat happ
  exact ⟨hopen, hw, hcut, hflat, happ, hrequests.trans (by decide +kernel)⟩

end TlsGate.Http
