import TlsGate.Http.Canned
import TlsGate.Proofs.Http.Plain
import TlsGate.Proofs.Http.Stages

/-!
The limit for request bodies. Two checks enforce it, one on the length that a head states and one on
the bytes that have been decoded, and the two together are exact: a request is refused for its size
if and only if its head states too much or too much of its body comes to light before the body ends
or breaks. What has been collected never exceeds the limit on the way.
-/

set_option autoImplicit false
set_option relaxedAutoImplicit false

namespace TlsGate.Http

variable {σ τ : Type} {app : Application τ} {limit : Int} {io : ByteStream σ}

/-! ## What has been collected -/

/-- What has been collected of a body is counted, and it is within the limit. -/
def Progress.IsWithin (limit : Int) : Progress → Prop
  | .head => True
  | .body _ _ pieces size => pieces.reverse.flatten.length = size ∧ (size : Int) ≤ limit

/-- Where reading stops, nothing that was collected exceeds the limit. -/
def Reading.IsWithin (limit : Int) : Reading → Prop
  | .waiting p _ => p.IsWithin limit
  | .request _ body _ => (body.length : Int) ≤ limit
  | _ => True

private theorem isWithin_start (hlimit : 0 ≤ limit) (head : Head) (d : Decoder) :
    (Progress.body head d [] 0).IsWithin limit := ⟨rfl, hlimit⟩

private theorem isWithin_piece {head : Head} {d next : Decoder} {ps : List Bytes} {n : Nat}
    {data : Bytes}
    (h : (Progress.body head d ps n).IsWithin limit)
    (hlimit : ¬ limit < (n + data.length : Nat)) :
    (Progress.body head next (data :: ps) (n + data.length)).IsWithin limit := by
  obtain ⟨hsize, -⟩ := h
  refine ⟨?_, by omega⟩
  simp only [List.reverse_cons, List.flatten_append, List.length_append, hsize]
  simp

private theorem wait_isWithin {p : Progress} {i : Inbox} (h : p.IsWithin limit) :
    (wait p i).IsWithin limit := by
  unfold wait
  split
  · split
    · split <;> trivial
    · trivial
  · split
    · trivial
    · exact h

private theorem readBody_isWithin {head : Head} {d : Decoder} {ps : List Bytes} {n : Nat}
    {i : Inbox}
    (h : (Progress.body head d ps n).IsWithin limit) :
    (readBody limit head d ps n i).IsWithin limit := by
  fun_induction readBody limit head d ps n i with
  | case1 d ps n i hstep => exact wait_isWithin h
  | case2 d ps n i data rest next hstep hlimit => trivial
  | case3 d ps n i data rest next hstep hlimit ih => exact ih (isWithin_piece h hlimit)
  | case4 d ps n i rest next hstep ih => exact ih h
  | case5 d ps n i rest hstep =>
    obtain ⟨hsize, hle⟩ := h
    rw [← hsize] at hle
    exact hle
  | case6 d ps n i fault hstep => trivial

private theorem readOn_isWithin (hlimit : 0 ≤ limit) {p : Progress} (h : p.IsWithin limit)
    (i : Inbox) :
    (readOn limit p i).IsWithin limit := by
  cases p with
  | body head d ps n => exact readBody_isWithin h
  | head =>
    show (readHead limit i).IsWithin limit
    cases hlines : takeLines i.buffer with
    | none =>
      rw [readHead_of_none hlines]
      split
      · trivial
      · exact wait_isWithin h
    | some found =>
      obtain ⟨lines, rest⟩ := found
      cases hparse : Head.parse lines with
      | error fault =>
        rw [readHead_of_error hlines hparse]
        trivial
      | ok head =>
        by_cases hlong : head.isTooLong limit
        · rw [readHead_of_tooLong hlines hparse hlong]
          trivial
        · rw [readHead_of_ok hlines hparse hlong]
          exact readBody_isWithin (isWithin_start hlimit head _)

private theorem Stage.Moves.isWithin (hlimit : 0 ≤ limit) {g h : Stage σ τ} {more : Nat}
    {events : List Event} (hmove : Moves app limit io g more events h)
    (hg : g.progress.IsWithin limit) : h.progress.IsWithin limit := by
  cases hmove with
  | begins _ _ _ => exact isWithin_start hlimit _ _
  | collects _ hsize => exact isWithin_piece hg hsize
  | passes _ => exact hg
  | receives _ _ => exact hg
  | ends _ _ => exact hg
  | answers _ _ _ => trivial

private theorem Stage.Reaches.isWithin (hlimit : 0 ≤ limit) {g h : Stage σ τ} {steps : Nat}
    {events : List Event} (hreach : Reaches app limit io g steps events h)
    (hg : g.progress.IsWithin limit) : h.progress.IsWithin limit := by
  induction hreach with
  | here => exact hg
  | move _ hmove ih => exact hmove.isWithin hlimit ih

private theorem serve_isWithin (hlimit : 0 ≤ limit) (steps : Nat) {p : Progress}
    (h : p.IsWithin limit) (i : Inbox) (s : σ) (a : τ) :
    ∀ request ∈ (serve app limit io steps p i s a).requests,
      (request.body.length : Int) ≤ limit := by
  -- on the steps; a run that waits goes on with progress that is within the limit
  induction steps generalizing p i s a with
  | zero => simp [serve, Run.requests]
  | succ steps ih =>
    have hreading := readOn_isWithin hlimit h i
    cases hread : readOn limit p i with
    | waiting q j =>
      rw [hread] at hreading
      rw [serve_of_waiting hread]
      split
      · rw [Run.requests_after]
        exact ih hreading _ _ _
      · rw [Run.requests_after]
        exact ih hreading _ _ _
      · rw [Run.requests_after, stopAt_requests]
        simp [Event.request?]
    | finished =>
      rw [serve_of_finished hread]
      simp [Run.requests]
    | refused fault q =>
      rw [serve_of_refused hread, Run.requests_after]
      exact forall_sendReply (fun t => by simp [Run.requests])
    | request head body j =>
      rw [hread] at hreading
      rw [serve_of_request hread, Run.requests_after]
      intro request hrequest
      rcases List.mem_append.1 hrequest with hasked | hlater
      · obtain rfl : request = head.request body := by simpa [Event.request?] using hasked
        exact hreading
      · exact forall_deliver (fun t => ih (p := .head) trivial j t _) request hlater

/-! ## Faults other than size -/

def Fault.isSize : Fault → Bool
  | bodyTooLarge _ => true
  | _ => false

private theorem parseLength_error {value : Bytes} {fault : Fault}
    (h : parseLength value = .error fault) :
    fault.isSize = false := by
  unfold parseLength at h
  split at h
  · cases h
    rfl
  · split at h
    · cases h
      rfl
    · split at h
      · cases h
        rfl
      · cases h

private theorem checkFraming_error {length : Option Bytes} {coded : Bool} {fs : List Field}
    {fault : Fault}
    (h : checkFraming length coded fs = .error fault) : fault.isSize = false := by
  induction fs generalizing length coded with
  | nil => cases h
  | cons f fs ih =>
    -- a field fails by itself, or those after it do
    have hrest {f' : Field} {length' : Option Bytes} {coded' : Bool}
        (h : (do return f' :: (← checkFraming length' coded' fs)) = Except.error fault) :
        fault.isSize = false := by
      rcases error_of_bind_eq_error h with h | ⟨rest, -, h⟩
      · exact ih h
      · cases h
    obtain ⟨name, value⟩ := f
    rw [checkFraming] at h
    split at h
    · rcases error_of_bind_eq_error h with h | ⟨stated, -, h⟩
      · exact parseLength_error h
      · split at h
        · exact hrest h
        · split at h
          · cases h
            rfl
          · exact ih h
    · split at h
      · cases coded with
        | true =>
          cases h
          rfl
        | false =>
          rw [if_neg Bool.false_ne_true] at h
          split at h
          · cases h
            rfl
          · exact hrest h
      · exact hrest h

private theorem checkTrailers_error {lines : List Bytes} {fault : Fault}
    (h : Decoder.checkTrailers lines = .error fault) : fault.isSize = false := by
  simp only [Decoder.checkTrailers] at h
  split at h
  · split at h
    · rcases error_of_bind_eq_error h with h | ⟨checked, -, h⟩
      · exact checkFraming_error h
      · cases h
    · cases h
      rfl
  · cases h
    rfl

private theorem Decoder.broken_isSize {d : Decoder} {buffer : Bytes} {fault : Fault}
    (h : d.step buffer = .broken fault) : fault.isSize = false := by
  fun_cases Decoder.step d buffer <;> simp_all only [Decoder.step, Step.broken.injEq, reduceCtorEq]
  case case19 htrailers _ _ => exact checkTrailers_error ‹_›
  all_goals
    subst h
    rfl

/-! ## Refusals -/

/-- Whether an event is that something was received, or that receiving came to nothing. -/
def Event.isReceipt : Event → Bool
  | .received _ => true
  | .receiveFailed _ => true
  | _ => false

namespace Run

/-- What a run does once it has received what it needs first. -/
def response (run : Run σ τ) : List Event := run.events.dropWhile Event.isReceipt

/-- A run answers with the error response for a fault, and does nothing else but receive before; if
the stream does not take that response, the attempt to send it is what there is of the answer. -/
def Refuses (run : Run σ τ) (peer : Peer) (fault : Fault) : Prop :=
  ∃ others, run.response = .logged (refusalRecord fault) :: others ∧
    (others = [.sent (refusalHead peer fault)] ∨
      ∃ broken later, others = .sendFailed (refusalHead peer fault) broken :: later)

private theorem response_after_receipt {event : Event} (h : event.isReceipt = true)
    (run : Run σ τ) :
    (run.after [event]).response = run.response := by
  show (event :: run.events).dropWhile Event.isReceipt = _
  rw [List.dropWhile_cons_of_pos h]
  rfl

private theorem refuses_after_receipt {event : Event} (h : event.isReceipt = true) {run : Run σ τ}
    {peer : Peer} {fault : Fault} :
    (run.after [event]).Refuses peer fault ↔ run.Refuses peer fault := by
  rw [Refuses, Refuses, response_after_receipt h]

theorem not_refuses {run : Run σ τ} {peer : Peer} {fault : Fault}
    (h : run.response.head? ≠ some (.logged (refusalRecord fault))) :
    ¬ run.Refuses peer fault := by
  rintro ⟨others, hresponse, -⟩
  rw [hresponse] at h
  exact h rfl

end Run

private theorem stopAt_isReceipt (fault : StreamFault) (s : σ) (a : τ) :
    ∀ event ∈ (stopAt fault s a).events, event.isReceipt = false := by
  intro event hevent
  cases fault with
  | broken why =>
    obtain rfl := List.mem_singleton.1 hevent
    rfl
  | closed =>
    obtain rfl := List.mem_singleton.1 hevent
    rfl
  | _ => cases hevent

private theorem serve_refusal {steps : Nat} {p q : Progress} {i : Inbox} {fault : Fault}
    (hread : readOn limit p i = .refused fault q) (s : σ) (a : τ) :
    (∀ event ∈ (serve app limit io (steps + 1) p i s a).events, event.isReceipt = false) ∧
      (serve app limit io (steps + 1) p i s a).Refuses q.peer fault := by
  rw [serve_of_refused hread, transmit_refusal]
  rcases hsend : io.send (refusalHead q.peer fault) s with ⟨broken, t⟩
  cases broken with
  | none =>
    have hevents : ((sendReply io ⟨[refusalHead q.peer fault], none, q.peer.keepsAlive⟩ s a
        fun t => ⟨[], some (.ok ()), t, a⟩).after [.logged (refusalRecord fault)]).events =
        [.logged (refusalRecord fault), .sent (refusalHead q.peer fault)] := by
      simp [sendReply, sendAll, hsend, Run.after]
    refine ⟨?_, ?_⟩
    · rw [hevents]
      simp [Event.isReceipt]
    · refine ⟨[.sent (refusalHead q.peer fault)], ?_, .inl rfl⟩
      rw [Run.response, hevents]
      rfl
  | some broken =>
    have hevents : ((sendReply io ⟨[refusalHead q.peer fault], none, q.peer.keepsAlive⟩ s a
        fun t => ⟨[], some (.ok ()), t, a⟩).after [.logged (refusalRecord fault)]).events =
        .logged (refusalRecord fault) :: .sendFailed (refusalHead q.peer fault) broken ::
          (stopAt broken t a).events := by
      simp [sendReply, sendAll, hsend, Run.after]
    refine ⟨?_, ?_⟩
    · rw [hevents]
      intro event hevent
      rcases List.mem_cons.1 hevent with rfl | hevent
      · rfl
      · rcases List.mem_cons.1 hevent with rfl | hevent
        · rfl
        · exact stopAt_isReceipt broken t a event hevent
    · refine ⟨.sendFailed (refusalHead q.peer fault) broken :: (stopAt broken t a).events, ?_,
        .inr ⟨broken, _, rfl⟩⟩
      rw [Run.response, hevents]
      rfl

private theorem refusalRecord_ne {fault : Fault} (h : fault.isSize = false) (limit : Int) :
    refusalRecord fault ≠ refusalRecord (.bodyTooLarge limit) := by
  cases fault with
  | bodyTooLarge _ => cases h
  | _ => simp [refusalRecord]

private theorem not_refuses_of_refused {steps : Nat} {p q : Progress} {i : Inbox} {fault : Fault}
    (hread : readOn limit p i = .refused fault q) (hsize : fault.isSize = false) (s : σ) (a : τ)
    (peer : Peer) :
    ¬ (serve app limit io (steps + 1) p i s a).Refuses peer (.bodyTooLarge limit) := by
  have hrefuses : (serve app limit io (steps + 1) p i s a).Refuses q.peer fault :=
    (serve_refusal hread s a).2
  obtain ⟨others, hresponse, -⟩ := hrefuses
  apply Run.not_refuses
  rw [hresponse]
  intro hsame
  simp only [List.head?_cons, Option.some.injEq, Event.logged.injEq] at hsame
  exact refusalRecord_ne hsize limit hsame

/-! ## The bytes of a body that come to light -/

/-- From a place in a body decoding yields bytes, with as much receiving as it takes. It stops where
the body ends or breaks, where the stream ends, and where a part of the coding is too long. -/
inductive Decoder.Yields (io : ByteStream σ) : Decoder → Inbox → σ → Bytes → Prop
  | nothing (d : Decoder) (i : Inbox) (s : σ) : Yields io d i s []
  | piece {d next : Decoder} {i : Inbox} {s : σ} {data rest bytes : Bytes}
      (hstep : d.step i.buffer = .piece data rest next)
      (later : Yields io next { i with buffer := rest } s bytes) : Yields io d i s (data ++ bytes)
  | passed {d next : Decoder} {i : Inbox} {s : σ} {rest bytes : Bytes}
      (hstep : d.step i.buffer = .passed rest next)
      (later : Yields io next { i with buffer := rest } s bytes) : Yields io d i s bytes
  | received {d : Decoder} {i : Inbox} {s t : σ} {data bytes : Bytes}
      (hstep : d.step i.buffer = .more) (hopen : i.closed = false)
      (hroom : i.buffer.length ≤ maxIncomplete)
      (hreceive : io.receive receiveSize s = (.ok data, t))
      (later : Yields io d ⟨i.buffer ++ data, data.isEmpty⟩ t bytes) : Yields io d i s bytes

private theorem wait_of_room {p : Progress} {i : Inbox} (hopen : i.closed = false)
    (hroom : i.buffer.length ≤ maxIncomplete) : wait p i = .waiting p i := by
  rw [wait_of_open hopen, if_neg (by omega)]

private theorem refuses_of_yields {head : Head} {d : Decoder} {ps : List Bytes} {n steps : Nat}
    {i : Inbox}
    {s : σ} {a : τ} {bytes : Bytes} (hyields : d.Yields io i s bytes)
    (hwithin : (n : Int) ≤ limit) (hlimit : limit < (n + bytes.length : Nat))
    (hended : (serve app limit io steps (.body head d ps n) i s a).outcome ≠ none) :
    (serve app limit io steps (.body head d ps n) i s a).Refuses head.peer
      (.bodyTooLarge limit) := by
  -- along the decoding: the run collects what it yields until that is too much
  induction hyields generalizing ps n steps with
  | nothing d i s =>
    simp only [List.length_nil, Nat.add_zero] at hlimit
    omega
  | @piece d next i s data rest bytes hstep _ ih =>
    have hread : readOn limit (.body head d ps n) i = _ := readBody_of_piece hstep
    cases steps with
    | zero => exact absurd rfl hended
    | succ steps =>
      by_cases hnow : limit < (n + data.length : Nat)
      · rw [if_pos hnow] at hread
        exact (serve_refusal hread s a).2
      · rw [if_neg hnow] at hread
        have hgoes : readOn limit (.body head d ps n) i = readOn limit
            (.body head next (data :: ps) (n + data.length)) { i with buffer := rest } := hread
        rw [Stage.serve_congr hgoes] at hended ⊢
        refine ih (by omega) ?_ hended
        rw [List.length_append] at hlimit
        omega
  | @passed d next i s rest bytes hstep _ ih =>
    have hgoes : readOn limit (.body head d ps n) i =
        readOn limit (.body head next ps n) { i with buffer := rest } := readBody_of_passed hstep
    rw [Stage.serve_congr hgoes] at hended ⊢
    exact ih hwithin hlimit hended
  | @received d i s t data bytes hstep hopen hroom hreceive _ ih =>
    have hread : readOn limit (.body head d ps n) i = .waiting (.body head d ps n) i :=
      (readBody_of_more hstep).trans (wait_of_room hopen hroom)
    cases steps with
    | zero => exact absurd rfl hended
    | succ steps =>
      rw [serve_of_waiting hread, hreceive] at hended ⊢
      rw [Run.refuses_after_receipt rfl]
      exact ih hwithin hlimit hended

/-- What a reading says of the bytes of a body: where it waits, those that are still to come add to
those that have been counted, and it is refused for size only by too many of them. -/
def Reading.Accounts (limit : Int) (io : ByteStream σ) (s : σ) (head : Head) (d : Decoder) (n : Nat)
    (i : Inbox) : Reading → Prop
  | .waiting p j => ∃ d' ps' n', p = .body head d' ps' n' ∧ d'.step j.buffer = .more ∧
      j.closed = false ∧ j.buffer.length ≤ maxIncomplete ∧
      ∀ bytes, d'.Yields io j s bytes →
        ∃ bytes', d.Yields io i s bytes' ∧ n + bytes'.length = n' + bytes.length
  | .refused fault _ => fault.isSize = true →
      ∃ bytes, d.Yields io i s bytes ∧ limit < (n + bytes.length : Nat)
  | _ => True

theorem Reading.Accounts.before {r : Reading} {s : σ} {head : Head} {d d' : Decoder} {n n' : Nat}
    {i i' : Inbox} (h : r.Accounts limit io s head d' n' i')
    (hback : ∀ bytes, d'.Yields io i' s bytes →
      ∃ bytes', d.Yields io i s bytes' ∧ n + bytes'.length = n' + bytes.length) :
    r.Accounts limit io s head d n i := by
  cases r with
  | waiting p j =>
    obtain ⟨d'', ps, n'', hp, hmore, hopen, hroom, hlater⟩ := h
    refine ⟨d'', ps, n'', hp, hmore, hopen, hroom, ?_⟩
    intro bytes hyields
    obtain ⟨bytes', hyields', hcount'⟩ := hlater bytes hyields
    obtain ⟨bytes'', hyields'', hcount''⟩ := hback bytes' hyields'
    exact ⟨bytes'', hyields'', hcount''.trans hcount'⟩
  | refused fault q =>
    intro hsize
    obtain ⟨bytes, hyields, hover⟩ := h hsize
    obtain ⟨bytes', hyields', hcount⟩ := hback bytes hyields
    exact ⟨bytes', hyields', by rwa [hcount]⟩
  | request _ _ _ => trivial
  | finished => trivial

private theorem readBody_accounts (io : ByteStream σ) (s : σ) {head : Head} {d : Decoder}
    {ps : List Bytes}
    {n : Nat} {i : Inbox} :
    (readBody limit head d ps n i).Accounts limit io s head d n i := by
  fun_induction readBody limit head d ps n i with
  | case1 d ps n i hstep =>
    unfold wait
    split
    · intro hsize
      cases hsize
    · rename_i hclosed
      split
      · intro hsize
        cases hsize
      · refine ⟨d, ps, n, rfl, hstep, by simpa using hclosed, by omega, ?_⟩
        intro bytes hyields
        exact ⟨bytes, hyields, rfl⟩
  | case2 d ps n i data rest next hstep hlimit =>
    intro _
    refine ⟨data ++ [], .piece hstep (.nothing ..), ?_⟩
    rwa [List.append_nil]
  | case3 d ps n i data rest next hstep hlimit ih =>
    refine ih.before ?_
    intro bytes hyields
    refine ⟨data ++ bytes, .piece hstep hyields, ?_⟩
    rw [List.length_append]
    omega
  | case4 d ps n i rest next hstep ih =>
    refine ih.before ?_
    intro bytes hyields
    exact ⟨bytes, .passed hstep hyields, rfl⟩
  | case5 d ps n i rest hstep => trivial
  | case6 d ps n i fault hstep =>
    intro hsize
    rw [Decoder.broken_isSize hstep] at hsize
    cases hsize

private theorem not_refuses_stopAt (fault : StreamFault) (s : σ) (a : τ) (peer : Peer) :
    ¬ ((stopAt fault s a).after [.receiveFailed fault]).Refuses peer (.bodyTooLarge limit) := by
  rw [Run.refuses_after_receipt rfl]
  apply Run.not_refuses
  cases fault with
  | broken why => simp [Run.response, stopAt, Event.isReceipt, refusalRecord]
  | closed => simp [Run.response, stopAt, Event.isReceipt, refusalRecord]
  | _ => simp [Run.response, stopAt]

private theorem not_refuses_closed {steps : Nat} {head : Head} {d : Decoder} {ps : List Bytes}
    {n : Nat}
    {i : Inbox} (hmore : d.step i.buffer = .more) (s : σ) (a : τ) (peer : Peer) :
    ¬ (serve app limit io steps (.body head d ps n) { i with closed := true } s a).Refuses peer
      (.bodyTooLarge limit) := by
  cases steps with
  | zero =>
    rintro ⟨others, hresponse, -⟩
    cases hresponse
  | succ steps =>
    have hread : readOn limit (.body head d ps n) { i with closed := true } =
        .refused .cutOff (.body head d ps n) :=
      readBody_of_more (i := { i with closed := true }) hmore
    exact not_refuses_of_refused hread rfl s a peer

private theorem yields_of_refuses {head : Head} {d : Decoder} {ps : List Bytes} {n steps : Nat}
    {i : Inbox}
    {s : σ} {a : τ} {peer : Peer}
    (h : (serve app limit io steps (.body head d ps n) i s a).Refuses peer (.bodyTooLarge limit)) :
    ∃ bytes, d.Yields io i s bytes ∧ limit < (n + bytes.length : Nat) := by
  -- on the steps: where the run waits, the account says what came to light before
  induction steps generalizing d ps n i s with
  | zero =>
    obtain ⟨others, hresponse, -⟩ := h
    cases hresponse
  | succ steps ih =>
    have haccounts : (readOn limit (.body head d ps n) i).Accounts limit io s head d n i :=
      readBody_accounts io s
    cases hread : readOn limit (.body head d ps n) i with
    | waiting p j =>
      rw [hread] at haccounts
      obtain ⟨d', ps', n', rfl, hmore, hopen, hroom, hlater⟩ := haccounts
      rw [serve_of_waiting hread] at h
      rcases hreceive : io.receive receiveSize s with ⟨result, t⟩
      rw [hreceive] at h
      cases result with
      | ok data =>
        obtain ⟨bytes, hyields, hover⟩ := ih ((Run.refuses_after_receipt rfl).1 h)
        obtain ⟨bytes', hyields', hcount⟩ :=
          hlater bytes (.received hmore hopen hroom hreceive hyields)
        exact ⟨bytes', hyields', by rwa [hcount]⟩
      | error fault =>
        by_cases hended : fault = .ended
        · subst hended
          exact absurd ((Run.refuses_after_receipt rfl).1 h) (not_refuses_closed hmore t a peer)
        · have hstop : ¬ ((stopAt fault t a).after [.receiveFailed fault]).Refuses peer
              (.bodyTooLarge limit) := not_refuses_stopAt fault t a peer
          cases fault with
          | ended => exact absurd rfl hended
          | _ => exact absurd h hstop
    | finished =>
      rw [serve_of_finished hread] at h
      obtain ⟨others, hresponse, -⟩ := h
      cases hresponse
    | refused fault q =>
      cases hsize : fault.isSize with
      | true =>
        rw [hread] at haccounts
        exact haccounts hsize
      | false => exact absurd h (not_refuses_of_refused hread hsize s a peer)
    | request head' body j =>
      rw [serve_of_request hread] at h
      obtain ⟨others, hresponse, -⟩ := h
      cases hresponse

/-! ## Requests with a complete head -/

/-- What becomes of a request whose head is complete and valid in the buffer of a stage. -/
structure Stage.Bounded (app : Application τ) (limit : Int) (io : ByteStream σ) (g : Stage σ τ)
    (head : Head) (rest : Bytes) : Prop where
  integer : ∀ f ∈ head.fields, f.1 = contentLength →
    f.2.integer? = some (Bytes.decimalValue f.2 : Int)
  atOnce : head.isTooLong limit → ∀ steps,
    (∀ event ∈ (g.serve app limit io (steps + 1)).events, event.isReceipt = false) ∧
      (g.serve app limit io (steps + 1)).Refuses head.peer (.bodyTooLarge limit)
  /-- The request is refused for its size if and only if its head states too much or too many bytes
  of its body come to light. -/
  exact : ∀ steps, (g.serve app limit io steps).outcome ≠ none →
    ((g.serve app limit io steps).Refuses head.peer (.bodyTooLarge limit) ↔
      head.isTooLong limit ∨
        ∃ bytes, (Decoder.start (framingOf head.fields)).Yields io { g.inbox with buffer := rest }
          g.stream bytes ∧ limit < bytes.length)

theorem Stage.bounded (hlimit : 0 ≤ limit) {g : Stage σ τ} {lines : List Bytes} {rest : Bytes}
    {head : Head} (hplace : g.progress = .head)
    (hlines : takeLines g.inbox.buffer = some (lines, rest))
    (hparse : Head.parse lines = .ok head) : g.Bounded app limit io head rest := by
  obtain ⟨p, i, s, a⟩ := g
  obtain rfl : p = .head := hplace
  have hatOnce (hlong : head.isTooLong limit) (steps : Nat) :
      (∀ event ∈ (Http.serve app limit io (steps + 1) .head i s a).events,
          event.isReceipt = false) ∧
        (Http.serve app limit io (steps + 1) .head i s a).Refuses head.peer
          (.bodyTooLarge limit) := by
    have hread : readOn limit .head i = .refused (.bodyTooLarge limit) _ :=
      readHead_of_tooLong hlines hparse hlong
    exact serve_refusal hread s a
  refine ⟨?_, hatOnce, ?_⟩
  · intro f hf hname
    exact (Head.isLength_of_parse hparse f hf hname).integer?
  · intro steps hended
    by_cases hlong : head.isTooLong limit
    · cases steps with
      | zero => exact absurd rfl hended
      | succ steps => exact iff_of_true (hatOnce hlong steps).2 (.inl hlong)
    · -- the body is read from its first byte, with nothing counted yet
      have hgoes : readOn limit .head i = readOn limit
          (.body head (Decoder.start (framingOf head.fields)) [] 0) { i with buffer := rest } :=
        readHead_of_ok hlines hparse hlong
      have hserve : Http.serve app limit io steps .head i s a = Http.serve app limit io steps
          (.body head (Decoder.start (framingOf head.fields)) [] 0) { i with buffer := rest } s a :=
        Stage.serve_congr hgoes steps s a
      constructor
      · intro hrefuses
        right
        have hbody : (Http.serve app limit io steps .head i s a).Refuses head.peer
            (.bodyTooLarge limit) := hrefuses
        rw [hserve] at hbody
        obtain ⟨bytes, hyields, hover⟩ := yields_of_refuses hbody
        exact ⟨bytes, hyields, by simpa using hover⟩
      · rintro (habsurd | ⟨bytes, hyields, hover⟩)
        · exact absurd habsurd hlong
        · show (Http.serve app limit io steps .head i s a).Refuses head.peer (.bodyTooLarge limit)
          have hbody : (Http.serve app limit io steps .head i s a).outcome ≠ none := hended
          rw [hserve] at hbody ⊢
          exact refuses_of_yields hyields hlimit (by simpa using hover) hbody

/-- The limit for bodies is kept at every moment of a connection. The application is called with
bodies within it, and what has been collected is within it at every stage that serving comes to;
from each such stage the run moves on or has only one step left, so there are no others. A request
whose head is complete and valid is refused for its size exactly if the head states too much, and
then at once, or more bytes of its body come to light than the limit admits. -/
theorem bodies_within_limit (app : Application τ) {limit : Int} (hlimit : 0 ≤ limit)
    (io : ByteStream σ) (stream : σ) (application : τ) :
    (∀ steps, ∀ request ∈ (serve app limit io steps .head {} stream application).requests,
      (request.body.length : Int) ≤ limit) ∧
    ∀ g steps events,
      (Stage.start stream application).Reaches app limit io steps events g →
      (∀ more, serve app limit io (more + steps) .head {} stream application =
        (g.serve app limit io more).after events) ∧
      (g.GoesOn app limit io ∨ g.IsLast app limit io) ∧
      g.progress.IsWithin limit ∧
      ∀ lines rest head, g.progress = .head → takeLines g.inbox.buffer = some (lines, rest) →
        Head.parse lines = .ok head → g.Bounded app limit io head rest := by
  constructor
  · intro steps
    exact serve_isWithin hlimit steps (p := .head) trivial {} stream application
  · intro g steps events hreach
    refine ⟨hreach.serve_eq, Stage.goesOn_or_isLast app limit io g, ?_, ?_⟩
    · exact hreach.isWithin hlimit trivial
    · intro lines rest head hplace hlines hparse
      exact Stage.bounded hlimit hplace hlines hparse

theorem Decoder.Reads.yields {d : Decoder} {input body rest : Bytes} (h : d.Reads input body rest)
    (io : ByteStream σ) (closed : Bool) (s : σ) : d.Yields io ⟨input, closed⟩ s body := by
  induction h with
  | complete _ _ => exact .nothing ..
  | piece hstep _ ih => exact .piece hstep ih
  | passed hstep _ _ ih => exact .passed hstep ih

def growing : Written where
  request :=
    { method := "POST", target := "/a", body := Bytes.ofString "abcdef"
      fields := [(hostName, Bytes.ofString "b"), (transferEncoding, chunkedCoding)] }
  coding := .chunked [⟨Bytes.ofString "abc", []⟩, ⟨Bytes.ofString "def", []⟩]

def growingTransport : Script where
  items := [.data growing.head, .data (growing.coding.bytes growing.request.body)]

def growingStage : Stage Script Nat where
  progress := .head
  inbox := ⟨growing.head, false⟩
  stream := { items := [.data (growing.coding.bytes growing.request.body)], receives := 1 }
  application := 0

/-- Four bytes are admitted, so the body is refused in its second chunk. -/
theorem bodies_within_limit_growing :
    (0 : Int) ≤ 4 ∧
    (Stage.start growingTransport 0).Reaches (canned [.echo]) 4 Script.stream 1
      [.received growing.head] growingStage ∧
    (growingStage.serve (canned [.echo]) 4 Script.stream 256).Refuses growing.parsed.peer
      (.bodyTooLarge 4) := by
  have hlimit : (0 : Int) ≤ 4 := by decide
  have hwell : growing.WellFormed 6 := by decide +kernel
  have hwait : readOn 4 .head {} = .waiting .head {} := by decide +kernel
  have hfirst : Script.stream.receive receiveSize growingTransport =
      (.ok growing.head, growingStage.stream) := by rfl
  have hreach : (Stage.start growingTransport 0).Reaches (canned [.echo]) 4 Script.stream 1
      [.received growing.head] growingStage :=
    .move (.here _) (.receives hwait hfirst)
  have hlines : takeLines growing.head = some (growing.lines, []) := by
    have hall := Written.takeLines_head hwell []
    rwa [List.append_nil] at hall
  have hbounded := ((bodies_within_limit (canned [.echo]) hlimit Script.stream growingTransport 0).2
    growingStage 1 _ hreach).2.2.2 growing.lines [] growing.parsed rfl hlines
      (Written.parse_lines hwell)
  have hended : (growingStage.serve (canned [.echo]) 4 Script.stream 256).outcome ≠ none :=
    serve_ends (by decide +kernel)
  have hreads := Coding.reads hwell.coded []
  rw [← framingOf_coding hwell.framing, List.append_nil] at hreads
  have hover : (4 : Int) < growing.request.body.length := by decide
  refine ⟨hlimit, hreach, (hbounded.exact 256 hended).2 (.inr ⟨growing.request.body, ?_, hover⟩)⟩
  have hsecond : Script.stream.receive receiveSize growingStage.stream =
      (.ok (growing.coding.bytes growing.request.body), { receives := 2 }) := by rfl
  refine .received rfl rfl (by decide) hsecond ?_
  exact hreads.yields Script.stream false _

end TlsGate.Http
