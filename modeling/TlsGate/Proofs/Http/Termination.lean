import TlsGate.Proofs.Http.Pulling

/-!
Serving ends. What is still to come of the input, what waits in the buffer, a request that has been
begun and the client's side that is open make a measure which every event takes something off. So a
finite input, whatever its pieces, is served in so many events; nothing is received after its end,
and the application is called no more often than there are bytes.
-/

set_option autoImplicit false
set_option relaxedAutoImplicit false

namespace TlsGate

variable {σ τ : Type}

/-! ## Finite input -/

/-- A stream has so many bytes to give at most. -/
structure ByteStream.Finite (io : ByteStream σ) (supply : σ → Nat) : Prop where
  receive : ∀ size s data t, io.receive size s = (.ok data, t) → supply t + data.length ≤ supply s
  fails : ∀ size s fault t, io.receive size s = (.error fault, t) → supply t ≤ supply s
  send : ∀ data s, supply (io.send data s).2 ≤ supply s

theorem ByteStream.Finite.keeps {io : ByteStream σ} {supply : σ → Nat} (h : io.Finite supply)
    (most : Nat) : io.Keeps fun s => supply s ≤ most := by
  refine ⟨?_, ?_⟩
  · intro size s hs
    rcases hreceive : io.receive size s with ⟨result, t⟩
    cases result with
    | ok data =>
      have hlater := h.receive size s data t hreceive
      show supply t ≤ most
      omega
    | error fault => exact Nat.le_trans (h.fails size s fault t hreceive) hs
  · intro data s hs
    exact Nat.le_trans (h.send data s) hs

theorem Script.finite : stream.Finite fun s => 2 * s.size := by
  refine ⟨?_, ?_, ?_⟩
  · intro most s data t hreceive
    simp only [stream, receive] at hreceive
    split at hreceive <;> simp only [Prod.mk.injEq, Except.ok.injEq, reduceCtorEq,
      false_and] at hreceive
    rename_i whole items hne hitems
    obtain ⟨rfl, rfl⟩ := hreceive
    have hpos : 0 < whole.length := List.length_pos_iff.2 hne
    simp only [size, hitems, List.foldr_cons, weight, List.length_take]
    by_cases hle : whole.length ≤ most
    · rw [if_pos hle]
      omega
    · rw [if_neg hle]
      simp only [List.foldr_cons, List.length_drop]
      omega
  · intro most s fault t hreceive
    simp only [stream, receive] at hreceive
    split at hreceive <;> rename_i hitems <;> simp only [Prod.mk.injEq, reduceCtorEq,
      false_and] at hreceive <;> obtain ⟨-, rfl⟩ := hreceive
    · simp only [size, hitems, Nat.le_refl]
    · simp only [size, hitems, List.foldr_cons, weight]
      omega
    · simp only [size, hitems, List.foldr_cons, weight]
      omega
  · intro data s
    have hsize : (stream.send data s).2.size = s.size := by
      simp only [stream, size, send_items]
    exact Nat.le_of_eq (congrArg (2 * ·) hsize)

namespace Http

variable {app : Application τ} {limit : Int} {io : ByteStream σ}
variable {p : Progress} {i : Inbox} {s : σ} {a : τ}

/-! ## Whole courses -/

private theorem serveByPulls_eq {pulls : Nat}
    (hended : (serveByPulls app limit io pulls (.during p i) p.collected s a).run.outcome ≠ none) :
    (serveByPulls app limit io pulls (.during p i) p.collected s a).run =
      serve app limit io pulls p i s a := by
  induction pulls generalizing p i s a with
  | zero => exact absurd rfl hended
  | succ pulls ih =>
    cases proceeds app limit io p i s a with
    | stops turns run given orderly ended course served => rw [course, served]
    | feeds p' i' t result data opened shorter lack receives hears course served =>
      rw [course] at hended ⊢
      rw [served]
      exact congrArg (Run.after _) (ih hended)
    | gives p' i' t b part events more ofBody same silent calls less keeps few course served =>
      rw [course] at hended ⊢
      have hrun := congrArg (Run.after events) (ih hended)
      rw [← served] at hrun
      -- a part other than the end of a body takes no step of its own
      have hsteps : serve app limit io (pulls + 1) p i s a =
          serve app limit io (pulls + more) p i s a := by
        refine serve_more_steps ?_ (by omega)
        rw [← hrun]
        exact hended
      rw [hsteps]
      exact hrun

/-- The turns of a course: each part in a body belongs to it, data are not fed after empty data, and
not at all if the client has closed before. -/
structure Disciplined (closed : Bool) (turns : List Turn) : Prop where
  ofBody : ∀ part, .given true part ∈ turns → part.isOfBody = true
  once : turns.Pairwise fun turn later => turn = .fed [] → ∀ data, later ≠ .fed data
  silent : closed = true → ∀ data, .fed data ∉ turns

theorem Disciplined.given {closed : Bool} {turns : List Turn} (h : Disciplined closed turns)
    {inBody : Bool} {part : Part} (hpart : inBody = true → part.isOfBody = true) :
    Disciplined closed (.given inBody part :: turns) := by
  refine ⟨?_, ?_, ?_⟩
  · intro other hother
    rcases List.mem_cons.1 hother with heq | hother
    · cases heq
      exact hpart rfl
    · exact h.ofBody other hother
  · refine List.pairwise_cons.2 ⟨fun later _ heq => ?_, h.once⟩
    cases heq
  · intro hclosed data hdata
    rcases List.mem_cons.1 hdata with heq | hdata
    · cases heq
    · exact h.silent hclosed data hdata

theorem Disciplined.fed {data : Bytes} {turns : List Turn} (h : Disciplined data.isEmpty turns) :
    Disciplined false (.fed data :: turns) := by
  refine ⟨?_, ?_, fun hclosed => by cases hclosed⟩
  · intro part hpart
    rcases List.mem_cons.1 hpart with heq | hpart
    · cases heq
    · exact h.ofBody part hpart
  · refine List.pairwise_cons.2 ⟨fun later hlater heq data' hfed => ?_, h.once⟩
    cases heq
    exact h.silent rfl data' (hfed ▸ hlater)

private theorem serveByPulls_disciplined (app : Application τ) (limit : Int) (io : ByteStream σ)
    (pulls : Nat) (p : Progress) (i : Inbox) (s : σ) (a : τ) :
    Disciplined i.closed (serveByPulls app limit io pulls (.during p i) p.collected s a).turns := by
  have hnil (closed : Bool) : Disciplined closed [] := ⟨by simp, .nil, by simp⟩
  induction pulls generalizing p i s a with
  | zero => exact hnil i.closed
  | succ pulls ih =>
    cases proceeds app limit io p i s a with
    | stops turns run given orderly ended course served =>
      rw [course]
      rcases given with rfl | ⟨part, rfl, hpart⟩
      · exact hnil i.closed
      · exact (hnil i.closed).given hpart
    | feeds p' i' t result data opened shorter lack receives hears course served =>
      rw [course, opened]
      exact Disciplined.fed (ih p' ⟨i'.buffer ++ data, data.isEmpty⟩ t a)
    | gives p' i' t b part events more ofBody same silent calls less keeps few course served =>
      rw [course]
      exact Disciplined.given (same ▸ ih p' i' t b) ofBody

theorem Orderly.received {result : Except StreamFault Bytes} {data : Bytes} {stock stock' : Nat}
    {events : List Event} (h : Orderly data.isEmpty stock' events)
    (hheard : heard result = .ok data) (hstock : stock' ≤ stock + data.length) :
    Orderly false stock (receipt result :: events) := by
  have hends : (receipt result).endsInput = true → data.isEmpty = true := by
    cases result with
    | ok data' =>
      cases hheard
      exact id
    | error fault =>
      cases fault <;> cases hheard
      exact fun _ => rfl
  have hinput : (receipt result).input = data := by
    cases result with
    | ok data' =>
      cases hheard
      rfl
    | error fault =>
      cases fault <;> cases hheard
      rfl
  have hcall : (receipt result).request? = none := by cases result <;> rfl
  refine ⟨?_, fun hclosed => (by cases hclosed), ?_⟩
  · exact List.pairwise_cons.2 ⟨fun later hlater hend => h.silent (hends hend) later hlater, h.once⟩
  · have hcalls := h.calls
    rw [List.filterMap_cons_none hcall, List.flatMap_cons, List.length_append, hinput]
    omega

theorem Orderly.after {closed : Bool} {stock stock' : Nat} {events later : List Event}
    (h : Orderly closed stock' later) (hsilent : ∀ event ∈ events, event.isReceipt = false)
    (hcalls : (events.filterMap Event.request?).length + stock' ≤ stock) :
    Orderly closed stock (events ++ later) := by
  have hends : ∀ event ∈ events, event.endsInput = false := by
    intro event hevent
    have hnone := hsilent event hevent
    cases event <;> first | rfl | cases hnone
  have hfirst : Orderly closed _ events := .of_silent hsilent (Nat.le_refl _)
  refine ⟨?_, ?_, ?_⟩
  · refine List.pairwise_append.2 ⟨hfirst.once, h.once, ?_⟩
    intro event hevent other _ hend
    rw [hends event hevent] at hend
    cases hend
  · intro hclosed event hevent
    rcases List.mem_append.1 hevent with hevent | hevent
    · exact hsilent event hevent
    · exact h.silent hclosed event hevent
  · have hrest := h.calls
    rw [List.filterMap_append, List.flatMap_append, List.length_append, List.length_append]
    omega

private theorem serveByPulls_orderly (app : Application τ) (limit : Int) (io : ByteStream σ)
    (pulls : Nat)
    (p : Progress) (i : Inbox) (s : σ) (a : τ) :
    Orderly i.closed (i.buffer.length + p.lack)
      (serveByPulls app limit io pulls (.during p i) p.collected s a).run.events := by
  induction pulls generalizing p i s a with
  | zero => exact .of_silent (by simp [serveByPulls, Course.still]) (Nat.zero_le _)
  | succ pulls ih =>
    cases proceeds app limit io p i s a with
    | stops turns run given orderly ended course served =>
      rw [course]
      exact orderly
    | feeds p' i' t result data opened shorter lack receives hears course served =>
      rw [course, opened]
      refine (ih p' ⟨i'.buffer ++ data, data.isEmpty⟩ t a).received hears ?_
      rw [List.length_append]
      omega
    | gives p' i' t b part events more ofBody same silent calls less keeps few course served =>
      rw [course]
      exact (same ▸ ih p' i' t b).after silent calls

private theorem heard_supply {supply : σ → Nat} (hio : io.Finite supply) {size : Nat} {t : σ}
    {result : Except StreamFault Bytes} {data : Bytes} (hreceive : io.receive size s = (result, t))
    (hheard : heard result = .ok data) : supply t + data.length ≤ supply s := by
  cases result with
  | ok received =>
    cases hheard
    exact hio.receive size s data t hreceive
  | error fault =>
    cases fault <;> cases hheard
    exact hio.fails size s .ended t hreceive

def pullsLeft (supply : σ → Nat) (p : Progress) (i : Inbox) (s : σ) : Nat :=
  3 * supply s + 2 * i.buffer.length + p.lack + if i.closed then 0 else 1

private theorem serveByPulls_ends {supply : σ → Nat} (hio : io.Finite supply) {pulls : Nat}
    (h : pullsLeft supply p i s < pulls) :
    (serveByPulls app limit io pulls (.during p i) p.collected s a).run.outcome ≠ none := by
  induction pulls generalizing p i s a with
  | zero => exact absurd h (Nat.not_lt_zero _)
  | succ pulls ih =>
    have hle := Nat.le_of_lt_succ h
    cases proceeds app limit io p i s a with
    | stops turns run given orderly ended course served =>
      rw [course]
      exact ended
    | feeds p' i' t result data opened shorter lack receives hears course served =>
      rw [course]
      refine ih (Nat.lt_of_lt_of_le ?_ hle)
      have hsupply := heard_supply hio receives hears
      simp only [pullsLeft, opened, List.length_append, lack, Bool.false_eq_true, if_false]
      cases data with
      | nil =>
        simp only [List.isEmpty_nil, if_true, List.length_nil] at hsupply ⊢
        omega
      | cons byte others =>
        simp only [List.isEmpty_cons, Bool.false_eq_true, if_false, List.length_cons] at hsupply ⊢
        omega
    | gives p' i' t b part events more ofBody same silent calls less keeps few course served =>
      rw [course]
      have hsupply : supply t ≤ supply s := keeps _ (hio.keeps (supply s)) (Nat.le_refl _)
      refine ih (Nat.lt_of_lt_of_le ?_ hle)
      simp only [pullsLeft, same]
      omega

theorem serve_ends_of_finite {supply : σ → Nat} (hio : io.Finite supply) {steps : Nat}
    (h : 3 * supply s + 1 < steps) : (serve app limit io steps .head {} s a).outcome ≠ none := by
  have hended : (serveByPulls app limit io steps {} none s a).run.outcome ≠ none :=
    serveByPulls_ends (p := .head) (i := {}) hio h
  have hrun : (serveByPulls app limit io steps {} none s a).run =
      serve app limit io steps .head {} s a := serveByPulls_eq (p := .head) (i := {}) hended
  rw [← hrun]
  exact hended

/-- Serving a finite input ends, whatever its pieces and whatever the application answers and the
sends give: the number of events that it is given is bounded by the input. In a body it is only ever
given pieces and the end, never an event that it would pass over; the connection is given no data
after the end of the stream, which is not received from after that; and the application is called at
most once for each byte that is received. -/
theorem serve_terminates (app : Application τ) (limit : Int) {supply : σ → Nat}
    (hio : io.Finite supply) (s : σ) (a : τ) {pulls : Nat} (hpulls : 3 * supply s + 1 < pulls) :
    let course := serveByPulls app limit io pulls {} none s a
    let run := serve app limit io pulls .head {} s a
    course.run = run ∧ run.outcome ≠ none ∧
      (∀ part, .given true part ∈ course.turns →
        (∃ piece, part = .data piece) ∨ part = .endOfMessage) ∧
      (course.turns.Pairwise fun turn later => turn = .fed [] → ∀ data, later ≠ .fed data) ∧
      (run.events.Pairwise fun event later => event.endsInput = true → later.isReceipt = false) ∧
      run.requests.length ≤ (run.events.flatMap Event.input).length := by
  intro course run
  have hended : course.run.outcome ≠ none := serveByPulls_ends (p := .head) (i := {}) hio hpulls
  have hrun : course.run = run := serveByPulls_eq (p := .head) (i := {}) hended
  have hturns : Disciplined false course.turns :=
    serveByPulls_disciplined app limit io pulls .head {} s a
  have hevents : Orderly false 0 course.run.events :=
    serveByPulls_orderly app limit io pulls .head {} s a
  rw [hrun] at hevents hended
  refine ⟨hrun, hended, ?_, hturns.once, hevents.once, ?_⟩
  · intro part hpart
    have hbody := hturns.ofBody part hpart
    cases part with
    | data piece => exact .inl ⟨piece, rfl⟩
    | endOfMessage => exact .inr rfl
    | _ => cases hbody
  · have hcalls := hevents.calls
    rw [Nat.zero_add] at hcalls
    exact hcalls

def brokenOff : Script where
  items :=
    [.data (Bytes.ofString "GET / HTTP/1.1\r\nHost: b\r\n\r\nPOST /c HTTP/1.1\r\nHost: b\r\n"),
      .data (Bytes.ofString "Transfer-Encoding: chunked\r\n\r\n5\r\nab"),
      .data (Bytes.ofString "c")]

/-- The first request is answered; the second gives two pieces of its body, and is refused. -/
theorem serve_terminates_brokenOff :
    let course := serveByPulls greeting 8 Script.stream 1024 {} none brokenOff 0
    let run := serve greeting 8 Script.stream 1024 .head {} brokenOff 0
    Script.stream.Finite (fun s => 2 * s.size) ∧ 3 * (2 * brokenOff.size) + 1 < 1024 ∧
      course.run = run ∧ run.outcome ≠ none ∧ run.requests.length = 1 ∧
      .given true (.data (Bytes.ofString "ab")) ∈ course.turns := by
  intro course run
  have hsteps : 3 * (2 * brokenOff.size) + 1 < 1024 := by decide +kernel
  obtain ⟨hrun, hended, -⟩ := serve_terminates greeting 8 Script.finite brokenOff 0 hsteps
  exact ⟨Script.finite, hsteps, hrun, hended, by decide +kernel, by decide +kernel⟩

end Http

end TlsGate
