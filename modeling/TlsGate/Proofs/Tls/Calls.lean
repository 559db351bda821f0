import TlsGate.Tls.Stack

/-!
How streams call their engines, and engines that correspond. If the states of one engine are mapped
to those of another so that both attempt the same with the same result, a stream over the one takes
the same course as a stream over the other, and a handshake comes to the same.
-/

set_option autoImplicit false
set_option relaxedAutoImplicit false

namespace TlsGate.Tls

variable {ε ε' α : Type}

/-! ## Engines that correspond -/

def Step.map (f : ε → ε') (s : Step ε α) : Step ε' α := ⟨s.attempt, s.emitted, f s.next⟩

def Corresponds (f : ε → ε') (attempt : ε → Step ε α) (attempt' : ε' → Step ε' α) : Prop :=
  ∀ e, attempt' (f e) = (attempt e).map f

structure Engine.Follows (io' : Engine ε') (io : Engine ε) (f : ε → ε') : Prop where
  feed : ∀ b e, io'.feed b (f e) = f (io.feed b e)
  finish : ∀ e, io'.finish (f e) = f (io.finish e)

variable {f : ε → ε'} {io : Engine ε} {io' : Engine ε'} {attempt : ε → Step ε α}
variable {attempt' : ε' → Step ε' α}

private theorem Corresponds.attempt_eq (h : Corresponds f attempt attempt') (e : ε) :
    (attempt' (f e)).attempt = (attempt e).attempt := by
  rw [h e]
  rfl

/-! ## The stream over a verifying engine -/

namespace Relay

def mapEngine (f : ε → ε') (s : Relay ε) : Relay ε' :=
  { engine := f s.engine, transport := s.transport, outgoing := s.outgoing, ended := s.ended }

def attempted (attempt : ε → Step ε α) (s : Relay ε) : Relay ε :=
  { s with
    engine := (attempt s.engine).next
    outgoing := s.outgoing ++ (attempt s.engine).emitted }

private theorem attempted_mapEngine (h : Corresponds f attempt attempt') (s : Relay ε) :
    (s.mapEngine f).attempted attempt' = (s.attempted attempt).mapEngine f := by
  simp only [attempted, mapEngine, h s.engine, Step.map]

private theorem flush_mapEngine (f : ε → ε') (s : Relay ε) :
    flush (s.mapEngine f) = ((flush s).1, (flush s).2.mapEngine f) := by
  have houtgoing : (s.mapEngine f).outgoing = s.outgoing := rfl
  unfold flush
  rw [houtgoing]
  split <;> rfl

private theorem onFault_mapEngine (h : io'.Follows io f) (fault : StreamFault) (s : Relay ε) :
    onFault io' fault (s.mapEngine f) =
      ((onFault io fault s).1, (onFault io fault s).2.mapEngine f) := by
  have hfinish : finish io' (s.mapEngine f) = (finish io s).mapEngine f := by
    simp only [finish, mapEngine, h.finish]
  cases fault <;> simp only [onFault, hfinish]

private theorem exchange_mapEngine (h : io'.Follows io f) (s : Relay ε) :
    exchange io' (s.mapEngine f) = ((exchange io s).1, (exchange io s).2.mapEngine f) := by
  unfold exchange
  rw [flush_mapEngine]
  obtain ⟨fault?, flushed⟩ := flush s
  cases fault? with
  | some fault => exact onFault_mapEngine h fault flushed
  | none =>
    have htransport : (flushed.mapEngine f).transport = flushed.transport := rfl
    dsimp only
    rw [htransport]
    obtain ⟨received, transport⟩ := Script.receive most flushed.transport
    cases received with
    | error fault => exact onFault_mapEngine h fault { flushed with transport := transport }
    | ok b => simp only [mapEngine, h.feed]

section Equations

variable {onClosed : StreamFault} {s : Relay ε}

private theorem call_of_done {a : α} (hstep : (attempt s.engine).attempt = .done a) :
    call io attempt onClosed s =
      match flush (s.attempted attempt) with
      | (some fault, flushed) => (.error fault, flushed)
      | (none, flushed) => (.ok a, flushed) := by
  rw [call]
  simp only [hstep]
  rfl

private theorem call_of_closed (hstep : (attempt s.engine).attempt = .closed) :
    call io attempt onClosed s =
      match flush (s.attempted attempt) with
      | (some fault, flushed) => (.error fault, flushed)
      | (none, flushed) => (.error onClosed, flushed) := by
  rw [call]
  simp only [hstep]
  rfl

theorem call_of_failed {fault : EngineFault} (hstep : (attempt s.engine).attempt = .failed fault) :
    call io attempt onClosed s = (.error (shown fault), finish io (s.attempted attempt)) := by
  rw [call]
  simp only [hstep]
  rfl

private theorem call_of_wantRead_ended (hstep : (attempt s.engine).attempt = .wantRead)
    (hs : s.ended = true) : call io attempt onClosed s = (.error .ended, s.attempted attempt) := by
  rw [call]
  simp only [hstep]
  exact dif_pos hs

theorem call_of_wantRead (hstep : (attempt s.engine).attempt = .wantRead)
    (hs : ¬ s.ended = true) :
    call io attempt onClosed s =
      match exchange io (s.attempted attempt) with
      | (some fault, next) => (.error fault, next)
      | (none, next) => call io attempt onClosed next := by
  rw [call]
  simp only [hstep]
  refine (dif_neg hs).trans ?_
  unfold attempted
  -- the call inside is the subject of a match that keeps the equation
  split <;> rename_i hexchange <;> rw [hexchange]

end Equations

theorem call_mapEngine (h : io'.Follows io f) (hattempt : Corresponds f attempt attempt')
    (onClosed : StreamFault) (s : Relay ε) :
    call io' attempt' onClosed (s.mapEngine f) =
      ((call io attempt onClosed s).1, (call io attempt onClosed s).2.mapEngine f) := by
  have hmapped (s : Relay ε) : (attempt' (s.mapEngine f).engine).attempt =
      (attempt s.engine).attempt := hattempt.attempt_eq s.engine
  have hflush {s flushed : Relay ε} {fault? : Option StreamFault}
      (hflush : flush (s.attempted attempt) = (fault?, flushed)) :
      flush ((s.mapEngine f).attempted attempt') = (fault?, flushed.mapEngine f) := by
    rw [attempted_mapEngine hattempt, flush_mapEngine, hflush]
  have hexchange {s next : Relay ε} {fault? : Option StreamFault}
      (hexchange : exchange io (s.attempted attempt) = (fault?, next)) :
      exchange io' ((s.mapEngine f).attempted attempt') = (fault?, next.mapEngine f) := by
    rw [attempted_mapEngine hattempt, exchange_mapEngine h, hexchange]
  fun_induction call io attempt onClosed s with
  | case1 s step s' a hstep fault flushed hflushed =>
    rw [call_of_done ((hmapped s).trans hstep), hflush hflushed]
  | case2 s step s' a hstep flushed hflushed =>
    rw [call_of_done ((hmapped s).trans hstep), hflush hflushed]
  | case3 s step s' hstep fault flushed hflushed =>
    rw [call_of_closed ((hmapped s).trans hstep), hflush hflushed]
  | case4 s step s' hstep flushed hflushed =>
    rw [call_of_closed ((hmapped s).trans hstep), hflush hflushed]
  | case5 s step s' fault hstep =>
    rw [call_of_failed ((hmapped s).trans hstep), attempted_mapEngine hattempt]
    simp only [finish, mapEngine, h.finish]
    rfl
  | case6 s step s' hstep hs =>
    rw [call_of_wantRead_ended ((hmapped s).trans hstep) hs, attempted_mapEngine hattempt]
    rfl
  | case7 s step s' hstep hs fault next hnext =>
    rw [call_of_wantRead ((hmapped s).trans hstep) hs, hexchange hnext]
  | case8 s step s' hstep hs next hnext ih =>
    rw [call_of_wantRead ((hmapped s).trans hstep) hs, hexchange hnext]
    exact ih

end Relay

/-! ## The stream over an engine with a callback -/

namespace Pump

def mapEngine (f : ε → ε') (s : Pump ε) : Pump ε' :=
  { engine := f s.engine, transport := s.transport, outgoing := s.outgoing, ended := s.ended
    history := s.history }

def attempted (attempt : ε → Step ε α) (s : Pump ε) : Pump ε :=
  { s with
    engine := (attempt s.engine).next
    outgoing := s.outgoing ++ (attempt s.engine).emitted
    history := .emitted (attempt s.engine).emitted :: s.history }

private theorem attempted_mapEngine (h : Corresponds f attempt attempt') (s : Pump ε) :
    (s.mapEngine f).attempted attempt' = (s.attempted attempt).mapEngine f := by
  simp only [attempted, mapEngine, h s.engine, Step.map]

private theorem flush_mapEngine (f : ε → ε') (s : Pump ε) :
    flush (s.mapEngine f) = ((flush s).1, (flush s).2.mapEngine f) := by
  fun_induction flush s with
  | case1 s hs =>
    rw [flush]
    exact dif_pos hs
  | case2 s hs piece s' fault transport hsend =>
    rw [flush]
    have hsend : Script.send (List.take most (s.mapEngine f).outgoing) (s.mapEngine f).transport =
        _ := hsend
    simp only [hsend]
    exact dif_neg hs
  | case3 s hs piece s' transport hsend ih =>
    rw [flush]
    have hsend : Script.send (List.take most (s.mapEngine f).outgoing) (s.mapEngine f).transport =
        _ := hsend
    simp only [hsend]
    exact (dif_neg hs).trans ih

private theorem feed_mapEngine (h : io'.Follows io f) (s : Pump ε) :
    feed io' (s.mapEngine f) = ((feed io s).1, (feed io s).2.mapEngine f) := by
  have hsame : Script.receive most (s.mapEngine f).transport = Script.receive most s.transport :=
    rfl
  simp only [feed, hsame]
  split <;> simp only [mapEngine, h.feed, h.finish]

section Equations

variable {s : Pump ε}

private theorem call_of_done {a : α} (hstep : (attempt s.engine).attempt = .done a) :
    call io attempt s =
      match flush (s.attempted attempt) with
      | (some fault, flushed) => (.error fault, flushed)
      | (none, flushed) => (.ok a, flushed) := by
  rw [call]
  simp only [hstep]
  rfl

private theorem call_of_closed (hstep : (attempt s.engine).attempt = .closed) :
    call io attempt s =
      match flush (s.attempted attempt) with
      | (some fault, flushed) => (.error fault, flushed)
      | (none, flushed) => (.error .ended, flushed) := by
  rw [call]
  simp only [hstep]
  rfl

theorem call_of_failed {fault : EngineFault} (hstep : (attempt s.engine).attempt = .failed fault) :
    call io attempt s =
      if s.ended then (.error .ended, s.attempted attempt)
      else (.error (.broken (.engine fault.message)), s.attempted attempt) := by
  rw [call]
  simp only [hstep]
  rfl

private theorem call_of_wantRead_ended (hstep : (attempt s.engine).attempt = .wantRead)
    (hs : s.ended = true) : call io attempt s = (.error .ended, s.attempted attempt) := by
  rw [call]
  simp only [hstep]
  exact dif_pos hs

theorem call_of_wantRead (hstep : (attempt s.engine).attempt = .wantRead)
    (hs : ¬ s.ended = true) :
    call io attempt s =
      match flush (s.attempted attempt) with
      | (some fault, flushed) => (.error fault, flushed)
      | (none, flushed) =>
        match feed io flushed with
        | (some fault, fed) => (.error fault, fed)
        | (none, fed) => call io attempt fed := by
  rw [call]
  simp only [hstep]
  refine (dif_neg hs).trans ?_
  unfold attempted
  -- the calls inside are the subjects of matches that keep the equations
  split <;> rename_i hflush <;> rw [hflush]
  dsimp only
  split <;> rename_i hfeed <;> rw [hfeed]

end Equations

theorem call_mapEngine (h : io'.Follows io f) (hattempt : Corresponds f attempt attempt')
    (s : Pump ε) :
    call io' attempt' (s.mapEngine f) =
      ((call io attempt s).1, (call io attempt s).2.mapEngine f) := by
  have hmapped (s : Pump ε) : (attempt' (s.mapEngine f).engine).attempt =
      (attempt s.engine).attempt := hattempt.attempt_eq s.engine
  have hflush {s flushed : Pump ε} {fault? : Option StreamFault}
      (hflush : flush (s.attempted attempt) = (fault?, flushed)) :
      flush ((s.mapEngine f).attempted attempt') = (fault?, flushed.mapEngine f) := by
    rw [attempted_mapEngine hattempt, flush_mapEngine, hflush]
  have hfeed {s fed : Pump ε} {fault? : Option StreamFault} (hfeed : feed io s = (fault?, fed)) :
      feed io' (s.mapEngine f) = (fault?, fed.mapEngine f) := by
    rw [feed_mapEngine h, hfeed]
  fun_induction call io attempt s with
  | case1 s step s' a hstep fault flushed hflushed =>
    rw [call_of_done ((hmapped s).trans hstep), hflush hflushed]
  | case2 s step s' a hstep flushed hflushed =>
    rw [call_of_done ((hmapped s).trans hstep), hflush hflushed]
  | case3 s step s' hstep fault flushed hflushed =>
    rw [call_of_closed ((hmapped s).trans hstep), hflush hflushed]
  | case4 s step s' hstep flushed hflushed =>
    rw [call_of_closed ((hmapped s).trans hstep), hflush hflushed]
  | case5 s step s' fault hstep hs =>
    rw [call_of_failed ((hmapped s).trans hstep), attempted_mapEngine hattempt]
    exact if_pos hs
  | case6 s step s' fault hstep hs =>
    rw [call_of_failed ((hmapped s).trans hstep), attempted_mapEngine hattempt]
    exact if_neg hs
  | case7 s step s' hstep hs =>
    rw [call_of_wantRead_ended ((hmapped s).trans hstep) hs, attempted_mapEngine hattempt]
    rfl
  | case8 s step s' hstep hs fault flushed hflushed =>
    rw [call_of_wantRead ((hmapped s).trans hstep) hs, hflush hflushed]
  | case9 s step s' hstep hs flushed hflushed fault fed hfed =>
    rw [call_of_wantRead ((hmapped s).trans hstep) hs, hflush hflushed]
    dsimp only
    rw [hfeed hfed]
  | case10 s step s' hstep hs flushed hflushed fed hfed ih =>
    rw [call_of_wantRead ((hmapped s).trans hstep) hs, hflush hflushed]
    dsimp only
    rw [hfeed hfed]
    exact ih

end Pump

/-! ## Handshakes -/

namespace Channel

def mapEngine (f : ε → ε') : Channel ε → Channel ε'
  | clear t => clear t
  | relayed s => relayed (s.mapEngine f)
  | pumped s => pumped (s.mapEngine f)

end Channel

theorem Stack.wrap_mapEngine {stack : Stack ε} {stack' : Stack ε'} {f : ε → ε'}
    (h : stack'.engine.Follows stack.engine f)
    (hhandshake : Corresponds f stack.engine.handshake stack'.engine.handshake)
    {c c' : Policy.Context} {offer offer' : Offer} (hkind : c'.hasCallback = c.hasCallback)
    (hstart : stack'.start c' offer' = f (stack.start c offer)) (t : Script) :
    stack'.wrap c' offer' t =
      ((stack.wrap c offer t).1, (stack.wrap c offer t).2.mapEngine f) := by
  cases c with
  | verifying c =>
    obtain ⟨c', rfl⟩ : ∃ d, c' = .verifying d := by
      cases c' with
      | verifying d => exact ⟨d, rfl⟩
      | callback d => cases hkind
    have hcall := Relay.call_mapEngine h hhandshake .badRecord
      { engine := stack.start (.verifying c) offer, transport := t }
    simp only [wrap, Relay.handshake, hstart]
    simp only [Relay.mapEngine] at hcall
    rw [hcall]
    obtain ⟨result, next⟩ := Relay.call stack.engine stack.engine.handshake .badRecord
      { engine := stack.start (.verifying c) offer, transport := t }
    cases result <;> rfl
  | callback c =>
    obtain ⟨c', rfl⟩ : ∃ d, c' = .callback d := by
      cases c' with
      | verifying d => cases hkind
      | callback d => exact ⟨d, rfl⟩
    have hcall := Pump.call_mapEngine h hhandshake
      { engine := stack.start (.callback c) offer, transport := t }
    simp only [wrap, Pump.handshake, hstart]
    simp only [Pump.mapEngine] at hcall
    rw [hcall]
    obtain ⟨result, next⟩ := Pump.call stack.engine stack.engine.handshake
      { engine := stack.start (.callback c) offer, transport := t }
    rcases result with fault | _
    · cases fault <;> rfl
    · rfl

end TlsGate.Tls
