import TlsGate.Proofs.Tls.Calls
import TlsGate.Proofs.Tls.Mediation

/-!
What the stream over an engine with a callback does with bytes. Whatever the engine does, its output
goes to the transport in order and nothing of it is lost; it is fed what the transport gives, in
order; and the transport is never asked for more while some output is unsent. An engine that keeps a
ledger of what it has emitted, been fed and taken is used to say so, and keeping it changes nothing.
-/

set_option autoImplicit false
set_option relaxedAutoImplicit false

namespace TlsGate

namespace Script

def incoming (s : Script) : Bytes :=
  s.items.flatMap fun
    | .data b => b
    | .fault _ => []

theorem incoming_of_receive {most : Nat} {s next : Script} {b : Bytes}
    (h : receive most s = (.ok b, next)) : s.incoming = b ++ next.incoming := by
  unfold receive at h
  simp only at h
  split at h <;> rename_i hitems <;> simp only [Prod.mk.injEq, reduceCtorEq, false_and,
    Except.ok.injEq] at h
  rename_i b' items hne
  obtain ⟨rfl, rfl⟩ := h
  simp only [incoming, hitems, List.flatMap_cons]
  split
  · rename_i hle
    rw [List.take_of_length_le hle]
  · rw [List.flatMap_cons, ← List.append_assoc, List.take_append_drop]

theorem incoming_of_receive_error {most : Nat} {s next : Script} {fault : StreamFault}
    (h : receive most s = (.error fault, next)) : s.incoming = next.incoming := by
  unfold receive at h
  simp only at h
  split at h <;> rename_i hitems <;> simp only [Prod.mk.injEq, reduceCtorEq, false_and] at h
  all_goals
    obtain ⟨-, rfl⟩ := h
    simp only [incoming, hitems, List.flatMap_cons, List.flatMap_nil, List.nil_append]

end Script

namespace Tls

variable {ε α : Type}

/-! ## What is transferred -/

def emittedBytes (l : List Transfer) : Bytes :=
  l.flatMap fun
    | .emitted b => b
    | _ => []

def sentBytes (l : List Transfer) : Bytes :=
  l.flatMap fun
    | .sent b => b
    | _ => []

def fedBytes (l : List Transfer) : Bytes :=
  l.flatMap fun
    | .fed b => b
    | _ => []

@[simp] theorem emittedBytes_concat (l : List Transfer) (x : Transfer) :
    emittedBytes (l ++ [x]) = emittedBytes l ++ emittedBytes [x] := List.flatMap_append

@[simp] theorem sentBytes_concat (l : List Transfer) (x : Transfer) :
    sentBytes (l ++ [x]) = sentBytes l ++ sentBytes [x] := List.flatMap_append

@[simp] theorem fedBytes_concat (l : List Transfer) (x : Transfer) :
    fedBytes (l ++ [x]) = fedBytes l ++ fedBytes [x] := List.flatMap_append

/-- At each moment of a course of transfers a prefix of what was emitted has been sent, and all of
it when the transport is asked for more. -/
structure InOrder (l : List Transfer) : Prop where
  sent (moment : List Transfer) : moment <+: l → sentBytes moment <+: emittedBytes moment
  asked (moment : List Transfer) : moment ++ [.asked] <+: l → sentBytes moment = emittedBytes moment

theorem InOrder.nil : InOrder [] where
  sent moment h := by
    obtain rfl := List.prefix_nil.1 h
    exact List.prefix_rfl
  asked moment h := by simp at h

private theorem InOrder.concat {l : List Transfer} (h : InOrder l) (x : Transfer)
    (hsent : sentBytes (l ++ [x]) <+: emittedBytes (l ++ [x]))
    (hasked : x = .asked → sentBytes l = emittedBytes l) : InOrder (l ++ [x]) where
  sent moment hmoment := by
    rcases List.prefix_concat_iff.1 hmoment with rfl | hearlier
    · exact hsent
    · exact h.sent moment hearlier
  asked moment hmoment := by
    rcases List.prefix_concat_iff.1 hmoment with hlast | hearlier
    · obtain ⟨rfl, hx⟩ := List.append_inj' hlast rfl
      exact hasked (List.cons.inj hx).1.symm
    · exact h.asked moment hearlier

namespace Pump

def transfers (s : Pump ε) : List Transfer := s.history.reverse

end Pump

/-! ## Engines with a ledger -/

/-- What an engine has emitted, what it has been fed, the pieces that it has taken for the peer, and
whether its last attempt met the closure alert of the peer. -/
structure Ledger where
  emitted : Bytes := []
  fed : Bytes := []
  taken : List Bytes := []
  closed : Bool := false
  deriving DecidableEq, Repr

/-- An attempt that is entered in the ledger; `took` says what is taken by one that is done. -/
def kept (attempt : ε → Step ε α) (took : α → List Bytes) (e : ε × Ledger) :
    Step (ε × Ledger) α :=
  let step := attempt e.1
  { attempt := step.attempt
    emitted := step.emitted
    next := (step.next,
      { e.2 with
        emitted := e.2.emitted ++ step.emitted
        taken := match step.attempt with
          | .done a => e.2.taken ++ took a
          | _ => e.2.taken
        closed := match step.attempt with
          | .closed => true
          | _ => false }) }

section Kept

variable {attempt : ε → Step ε α} {took : α → List Bytes} {e : ε × Ledger}

private theorem kept_taken_of_done {a : α} (h : (attempt e.1).attempt = .done a) :
    (kept attempt took e).next.2.taken = e.2.taken ++ took a := by
  simp only [kept, h]

private theorem kept_taken_of_not_done (h : ∀ a, (attempt e.1).attempt ≠ .done a) :
    (kept attempt took e).next.2.taken = e.2.taken := by
  simp only [kept]

private theorem kept_closed (h : (kept attempt took e).next.2.closed = true) :
    (attempt e.1).attempt = .closed := by
  simp only [kept] at h
  split at h
  · assumption
  · cases h

end Kept

/-- An engine that keeps a ledger beside its state. -/
def Engine.keeping (io : Engine ε) : Engine (ε × Ledger) where
  handshake := kept io.handshake fun _ => []
  receive size := kept (io.receive size) fun _ => []
  send data := kept (io.send data) fun taken => [data.take taken]
  feed b e := (io.feed b e.1, { e.2 with fed := e.2.fed ++ b })
  finish e := (io.finish e.1, e.2)

/-- An engine that takes something of what it is given takes at least one byte. -/
def Engine.TakesSome (io : Engine ε) : Prop :=
  ∀ (data : Bytes) (e : ε) (taken : Nat), data ≠ [] → (io.send data e).attempt = .done taken →
    0 < taken

namespace Pump

def forget (s : Pump (ε × Ledger)) : Pump ε :=
  { engine := s.engine.1, transport := s.transport, outgoing := s.outgoing, ended := s.ended,
    history := s.history }

/-! ### The books -/

/-- The ledger of the engine, the transport, what is outgoing and what has happened agree. -/
structure Accounted (t : Script) (s : Pump (ε × Ledger)) : Prop where
  isOpen : s.transport.sendsLeft = none
  emitted : s.engine.2.emitted = emittedBytes s.transfers
  fed : s.engine.2.fed = fedBytes s.transfers
  output : s.transport.output = t.output ++ sentBytes s.transfers
  incoming : t.incoming = fedBytes s.transfers ++ s.transport.incoming
  balance : emittedBytes s.transfers = sentBytes s.transfers ++ s.outgoing
  inOrder : InOrder s.transfers

variable {io : Engine ε} {t : Script}

theorem Accounted.start {e : ε × Ledger} (hopen : t.sendsLeft = none) (he : e.2 = {}) :
    Accounted t { engine := e, transport := t } where
  isOpen := hopen
  emitted := congrArg Ledger.emitted he
  fed := congrArg Ledger.fed he
  output := (List.append_nil _).symm
  incoming := rfl
  balance := rfl
  inOrder := .nil

private theorem Accounted.entered {s s' : Pump (ε × Ledger)} (h : Accounted t s) (x : Transfer)
    (hhistory : s'.history = x :: s.history) (hopen : s'.transport.sendsLeft = none)
    (hemitted : s'.engine.2.emitted = s.engine.2.emitted ++ emittedBytes [x])
    (hfed : s'.engine.2.fed = s.engine.2.fed ++ fedBytes [x])
    (houtput : s'.transport.output = s.transport.output ++ sentBytes [x])
    (hincoming : s.transport.incoming = fedBytes [x] ++ s'.transport.incoming)
    (houtgoing : s.outgoing ++ emittedBytes [x] = sentBytes [x] ++ s'.outgoing)
    (hasked : x = .asked → s.outgoing = []) : Accounted t s' := by
  have htransfers : s'.transfers = s.transfers ++ [x] := by
    rw [transfers, hhistory, List.reverse_cons]
    rfl
  have hbalance : emittedBytes (s.transfers ++ [x]) =
      sentBytes (s.transfers ++ [x]) ++ s'.outgoing := by
    calc emittedBytes (s.transfers ++ [x])
        = sentBytes s.transfers ++ (s.outgoing ++ emittedBytes [x]) := by
          rw [emittedBytes_concat, h.balance, List.append_assoc]
      _ = sentBytes (s.transfers ++ [x]) ++ s'.outgoing := by
          rw [houtgoing, sentBytes_concat, List.append_assoc]
  have horder : InOrder (s.transfers ++ [x]) := by
    refine h.inOrder.concat x ?_ ?_
    · rw [hbalance]
      exact List.prefix_append _ _
    · intro hx
      rw [h.balance, hasked hx, List.append_nil]
  refine
    { isOpen := hopen
      emitted := ?emitted
      fed := ?fed
      output := ?output
      incoming := ?incoming
      balance := ?balance
      inOrder := ?inOrder }
  all_goals rw [htransfers]
  case emitted => rw [hemitted, h.emitted, emittedBytes_concat]
  case fed => rw [hfed, h.fed, fedBytes_concat]
  case output => rw [houtput, h.output, sentBytes_concat, List.append_assoc]
  case incoming => rw [h.incoming, hincoming, fedBytes_concat, List.append_assoc]
  case balance => exact hbalance
  case inOrder => exact horder

theorem Accounted.attempted {s : Pump (ε × Ledger)} (h : Accounted t s) (attempt : ε → Step ε α)
    (took : α → List Bytes) : Accounted t (s.attempted (kept attempt took)) := by
  have hall : emittedBytes [.emitted (attempt s.engine.1).emitted] =
      (attempt s.engine.1).emitted := List.append_nil _
  refine h.entered (.emitted (attempt s.engine.1).emitted) rfl h.isOpen ?_ ?_ ?_ rfl ?_ (by simp)
  · rw [hall]
    rfl
  · exact (List.append_nil _).symm
  · exact (List.append_nil _).symm
  · rw [hall]
    rfl

theorem Accounted.flushed {s : Pump (ε × Ledger)} (h : Accounted t s) :
    (flush s).1 = none ∧ (flush s).2.outgoing = [] ∧ (flush s).2.engine = s.engine ∧
      Accounted t (flush s).2 := by
  fun_induction flush s with
  | case1 s hs => exact ⟨rfl, hs, rfl, h⟩
  | case2 s hs piece s' fault transport hsend =>
    have hclosed := (Script.eq_of_send_fault hsend).2
    rw [h.isOpen] at hclosed
    cases hclosed
  | case3 s hs piece s' transport hsend ih =>
    have hpiece : sentBytes [.sent piece] = piece := List.append_nil _
    have hitems : transport.incoming = s.transport.incoming := by
      have hkept : (Script.send piece s.transport).2.items = s.transport.items :=
        Script.send_items piece s.transport
      rw [hsend] at hkept
      unfold Script.incoming
      exact congrArg _ hkept
    have hopen : transport.sendsLeft = none := by
      have hleft := congrArg (·.2.sendsLeft) hsend
      simpa [Script.send, h.isOpen] using hleft.symm
    refine ih (h.entered (.sent piece) rfl hopen ?_ ?_ ?_ ?_ ?_ (by simp))
    · exact (List.append_nil _).symm
    · exact (List.append_nil _).symm
    · rw [hpiece]
      exact Script.output_of_send hsend
    · exact hitems.symm
    · rw [hpiece]
      exact (List.append_nil _).trans (List.take_append_drop most s.outgoing).symm

variable (io) in
private theorem Accounted.fed_of_flushed {s : Pump (ε × Ledger)} (h : Accounted t s)
    (hs : s.outgoing = []) :
    Accounted t (feed io.keeping s).2 ∧ (feed io.keeping s).2.outgoing = [] ∧
      (feed io.keeping s).2.engine.2.taken = s.engine.2.taken ∧
      (feed io.keeping s).2.engine.2.closed = s.engine.2.closed := by
  have hframe := Script.receive_frame most s.transport
  have hasked (transport : Script) (hopen : transport.sendsLeft = s.transport.sendsLeft)
      (houtput : transport.output = s.transport.output) (ended : Bool) (e : ε)
      (hincoming : s.transport.incoming = transport.incoming) :
      Accounted t { s with
        history := .asked :: s.history, transport := transport, ended := ended
        engine := (e, s.engine.2) } := by
    refine h.entered .asked rfl (hopen.trans h.isOpen) ?_ ?_ ?_ hincoming ?_ fun _ => hs
    · exact (List.append_nil _).symm
    · exact (List.append_nil _).symm
    · exact houtput.trans (List.append_nil _).symm
    · exact List.append_nil _
  simp only [feed]
  split <;> rename_i hreceive <;> rw [hreceive] at hframe
  · have hincoming := Script.incoming_of_receive_error hreceive
    exact ⟨hasked _ hframe.2 hframe.1 true _ hincoming, hs, rfl, rfl⟩
  · have hincoming := Script.incoming_of_receive_error hreceive
    exact ⟨hasked _ hframe.2 hframe.1 _ _ hincoming, hs, rfl, rfl⟩
  · rename_i b transport
    have hincoming := Script.incoming_of_receive hreceive
    have hb : fedBytes [.fed b] = b := List.append_nil _
    refine ⟨?_, hs, rfl, rfl⟩
    refine (hasked s.transport rfl rfl s.ended s.engine.1 rfl).entered (.fed b) rfl
      (hframe.2.trans h.isOpen) ?_ ?_ ?_ ?_ ?_ (by simp)
    · exact (List.append_nil _).symm
    · rw [hb]
      rfl
    · exact hframe.1.trans (List.append_nil _).symm
    · rw [hb]
      exact hincoming
    · exact List.append_nil _

/-- What is so after attempting something until it is done. -/
structure Called (t : Script) (attempt : ε → Step ε α) (took : α → List Bytes) (before : Ledger)
    (result : Except StreamFault α) (s : Pump (ε × Ledger)) : Prop where
  accounted : Accounted t s
  alert : s.engine.2.closed = true → s.outgoing = []
  finished (a : α) : result = .ok a → s.outgoing = [] ∧
    s.engine.2.taken = before.taken ++ took a ∧ ∃ e, (attempt e).attempt = .done a
  unfinished (fault : StreamFault) : result = .error fault → s.engine.2.taken = before.taken

private theorem Accounted.flushed_attempt {s flushed : Pump (ε × Ledger)}
    {fault : Option StreamFault}
    {attempt : ε → Step ε α} {took : α → List Bytes} (h : Accounted t s)
    (hflush : flush (s.attempted (kept attempt took)) = (fault, flushed)) :
    fault = none ∧ flushed.outgoing = [] ∧
      flushed.engine = (kept attempt took s.engine).next ∧ Accounted t flushed := by
  have hflushed := (h.attempted attempt took).flushed
  rw [hflush] at hflushed
  exact hflushed

private theorem Called.taken_eq {attempt : ε → Step ε α} {before : Ledger}
    {result : Except StreamFault α}
    {s : Pump (ε × Ledger)} (h : Called t attempt (fun _ => []) before result s) :
    s.engine.2.taken = before.taken := by
  cases result with
  | error fault => exact h.unfinished fault rfl
  | ok a => exact (h.finished a rfl).2.1.trans (List.append_nil _)

private theorem Accounted.stopped {s : Pump (ε × Ledger)} {attempt : ε → Step ε α}
    {took : α → List Bytes}
    (h : Accounted t s) (hdone : ∀ a, (attempt s.engine.1).attempt ≠ .done a)
    (hclosed : (attempt s.engine.1).attempt ≠ .closed) (fault : StreamFault) :
    Called t attempt took s.engine.2 (.error fault) (s.attempted (kept attempt took)) where
  accounted := h.attempted attempt took
  alert hmet := absurd (kept_closed hmet) hclosed
  finished := by simp
  unfinished _ _ := kept_taken_of_not_done hdone

variable (io) in
theorem Accounted.called {s : Pump (ε × Ledger)} (h : Accounted t s) (attempt : ε → Step ε α)
    (took : α → List Bytes) :
    Called t attempt took s.engine.2 (call io.keeping (kept attempt took) s).1
      (call io.keeping (kept attempt took) s).2 := by
  fun_induction call io.keeping (kept attempt took) s with
  | case1 s step s' a hstep fault flushed hflush =>
    obtain ⟨hnone, -⟩ := h.flushed_attempt hflush
    cases hnone
  | case2 s step s' a hstep flushed hflush =>
    obtain ⟨-, hout, hengine, hacc⟩ := h.flushed_attempt hflush
    refine
      { accounted := hacc
        alert := fun _ => hout
        finished := fun a' ha => ⟨hout, ?_, s.engine.1, ?_⟩
        unfinished := by simp }
    · rw [hengine, ← Except.ok.inj ha]
      exact kept_taken_of_done hstep
    · rw [← Except.ok.inj ha]
      exact hstep
  | case3 s step s' hstep fault flushed hflush =>
    obtain ⟨hnone, -⟩ := h.flushed_attempt hflush
    cases hnone
  | case4 s step s' hstep flushed hflush =>
    obtain ⟨-, hout, hengine, hacc⟩ := h.flushed_attempt hflush
    have hstep : (attempt s.engine.1).attempt = .closed := hstep
    refine
      { accounted := hacc
        alert := fun _ => hout
        finished := by simp
        unfinished := fun _ _ => ?_ }
    rw [hengine]
    exact kept_taken_of_not_done (by simp [hstep])
  | case5 s step s' fault hstep hs =>
    have hstep : (attempt s.engine.1).attempt = .failed fault := hstep
    exact h.stopped (by simp [hstep]) (by simp [hstep]) _
  | case6 s step s' fault hstep hs =>
    have hstep : (attempt s.engine.1).attempt = .failed fault := hstep
    exact h.stopped (by simp [hstep]) (by simp [hstep]) _
  | case7 s step s' hstep hs =>
    have hstep : (attempt s.engine.1).attempt = .wantRead := hstep
    exact h.stopped (by simp [hstep]) (by simp [hstep]) _
  | case8 s step s' hstep hs fault flushed hflush =>
    obtain ⟨hnone, -⟩ := h.flushed_attempt hflush
    cases hnone
  | case9 s step s' hstep hs flushed hflush fault fed hfeed =>
    obtain ⟨-, hout, hengine, hacc⟩ := h.flushed_attempt hflush
    have hstep : (attempt s.engine.1).attempt = .wantRead := hstep
    have hfed := hacc.fed_of_flushed io hout
    rw [hfeed, hengine] at hfed
    obtain ⟨hacc, hout, htook, -⟩ := hfed
    exact
      { accounted := hacc
        alert := fun _ => hout
        finished := by simp
        unfinished := fun _ _ => htook.trans (kept_taken_of_not_done (by simp [hstep])) }
  | case10 s step s' hstep hs flushed hflush fed hfeed ih =>
    obtain ⟨-, hout, hengine, hacc⟩ := h.flushed_attempt hflush
    have hstep : (attempt s.engine.1).attempt = .wantRead := hstep
    have hfed := hacc.fed_of_flushed io hout
    rw [hfeed, hengine] at hfed
    obtain ⟨hacc, -, htook, -⟩ := hfed
    have htook : fed.engine.2.taken = s.engine.2.taken :=
      htook.trans (kept_taken_of_not_done (by simp [hstep]))
    have hcalled := ih hacc
    refine
      { accounted := hcalled.accounted
        alert := hcalled.alert
        finished := fun a ha => ?_
        unfinished := fun fault hf => (hcalled.unfinished fault hf).trans htook }
    rw [← htook]
    exact hcalled.finished a ha

/-- What is so after sending: what the engine has taken is the data from their start on, and all of
them if the send has come to its end. -/
structure SentAll (t : Script) (data : Bytes) (s : Pump (ε × Ledger)) (result : Option StreamFault)
    (s' : Pump (ε × Ledger)) : Prop where
  accounted : Accounted t s'
  alert : (s.engine.2.closed = true → s.outgoing = []) →
    s'.engine.2.closed = true → s'.outgoing = []
  finished : result = none → data ≠ [] ∨ s.outgoing = [] → s'.outgoing = []
  taken : ∃ pieces, s'.engine.2.taken = s.engine.2.taken ++ pieces ∧ pieces.flatten <+: data ∧
    (result = none → pieces.flatten = data)

theorem Accounted.sent (htakes : io.TakesSome) {s : Pump (ε × Ledger)} (h : Accounted t s)
    (data : Bytes) :
    SentAll t data s (Pump.send io.keeping data s).1 (Pump.send io.keeping data s).2 := by
  fun_induction Pump.send io.keeping data s with
  | case1 s =>
    exact
      { accounted := h
        alert := id
        finished := fun _ hempty => hempty.resolve_left (· rfl)
        taken := ⟨[], (List.append_nil _).symm, List.prefix_rfl, fun _ => rfl⟩ }
  | case2 data s hne fault next hcall =>
    have hcalled := h.called io (io.send data) fun taken => [data.take taken]
    have hcall : call io.keeping (kept (io.send data) fun taken => [data.take taken]) s =
        (.error fault, next) := hcall
    rw [hcall] at hcalled
    exact
      { accounted := hcalled.accounted
        alert := fun _ => hcalled.alert
        finished := by simp
        taken := ⟨[], (hcalled.unfinished fault rfl).trans (List.append_nil _).symm,
          List.nil_prefix, by simp⟩ }
  | case3 data s hne taken next hcall ih =>
    have hcalled := h.called io (io.send data) fun taken => [data.take taken]
    have hcall : call io.keeping (kept (io.send data) fun taken => [data.take taken]) s =
        (.ok taken, next) := hcall
    rw [hcall] at hcalled
    obtain ⟨hout, htook, e, hdone⟩ := hcalled.finished taken rfl
    have hpos : 0 < taken := htakes data e taken hne hdone
    have hsent := ih hcalled.accounted
    rw [Nat.max_eq_left hpos] at hsent ⊢
    obtain ⟨pieces, hpieces, hprefix, hwhole⟩ := hsent.taken
    refine
      { accounted := hsent.accounted
        alert := fun _ => hsent.alert hcalled.alert
        finished := fun hnone _ => hsent.finished hnone (.inr hout)
        taken := ⟨data.take taken :: pieces, ?_, ?_, fun hnone => ?_⟩ }
    · rw [hpieces, htook, List.append_assoc]
      rfl
    · calc (data.take taken :: pieces).flatten
          = data.take taken ++ pieces.flatten := List.flatten_cons
        _ <+: data.take taken ++ data.drop taken := (List.prefix_append_right_inj _).2 hprefix
        _ = data := List.take_append_drop taken data
    · rw [List.flatten_cons, hwhole hnone, List.take_append_drop]

/-! ### Without the ledger -/

private theorem keeping_follows (io : Engine ε) : io.Follows io.keeping Prod.fst :=
  ⟨fun _ _ => rfl, fun _ => rfl⟩

private theorem kept_corresponds (attempt : ε → Step ε α) (took : α → List Bytes) :
    Corresponds Prod.fst (kept attempt took) attempt := fun _ => rfl

private theorem call_forget (io : Engine ε) (attempt : ε → Step ε α) (took : α → List Bytes)
    (s : Pump (ε × Ledger)) :
    call io attempt s.forget = ((call io.keeping (kept attempt took) s).1,
      (call io.keeping (kept attempt took) s).2.forget) :=
  call_mapEngine (keeping_follows io) (kept_corresponds attempt took) s

private theorem send_forget (io : Engine ε) (data : Bytes) (s : Pump (ε × Ledger)) :
    Pump.send io data s.forget =
      ((Pump.send io.keeping data s).1, (Pump.send io.keeping data s).2.forget) := by
  fun_induction Pump.send io.keeping data s with
  | case1 s =>
    rw [Pump.send]
    rfl
  | case2 data s hne fault next hcall =>
    have hforget := call_forget io (io.send data) (fun taken => [data.take taken]) s
    have hcall : call io.keeping (kept (io.send data) fun taken => [data.take taken]) s =
        (.error fault, next) := hcall
    rw [hcall] at hforget
    rw [Pump.send, dif_neg hne, hforget]
  | case3 data s hne taken next hcall ih =>
    have hforget := call_forget io (io.send data) (fun taken => [data.take taken]) s
    have hcall : call io.keeping (kept (io.send data) fun taken => [data.take taken]) s =
        (.ok taken, next) := hcall
    rw [hcall] at hforget
    rw [Pump.send, dif_neg hne, hforget]
    exact ih

end Pump

/-! ## Operations -/

/-- An operation of a stream. -/
inductive Operation where
  | handshake
  | receive (size : Nat)
  | send (data : Bytes)
  deriving DecidableEq, Repr

/-- Performs an operation, which ends normally or with a fault. -/
def Operation.perform (io : Engine ε) (s : Pump ε) : Operation → Option StreamFault × Pump ε
  | handshake => Pump.handshake io s
  | receive size =>
    match Pump.receive io size s with
    | (.ok _, next) => (none, next)
    | (.error fault, next) => (some fault, next)
  | send data => Pump.send io data s

/-- Performs operations one after the other, however each of them ends. -/
def performAll (io : Engine ε) (operations : List Operation) (s : Pump ε) : Pump ε :=
  operations.foldl (fun s operation => (operation.perform io s).2) s

/-- Operations that are performed one after the other and all end normally. -/
def AllEnd (io : Engine ε) : List Operation → Pump ε → Prop
  | [], _ => True
  | operation :: rest, s =>
    (operation.perform io s).1 = none ∧ AllEnd io rest (operation.perform io s).2

section Operations

variable {io : Engine ε} {t : Script} {s : Pump (ε × Ledger)}

private theorem Operation.perform_forget (io : Engine ε) (operation : Operation)
    (s : Pump (ε × Ledger)) :
    operation.perform io s.forget =
      ((operation.perform io.keeping s).1, (operation.perform io.keeping s).2.forget) := by
  cases operation with
  | handshake =>
    have hforget := Pump.call_forget io io.handshake (fun _ => []) s
    have hkept : io.keeping.handshake = kept io.handshake fun _ => [] := rfl
    simp only [perform, Pump.handshake, hforget, hkept]
    rcases Pump.call io.keeping (kept io.handshake fun _ => []) s with ⟨fault | _, next⟩
    · cases fault <;> rfl
    · rfl
  | receive size =>
    have hforget := Pump.call_forget io (io.receive size) (fun _ => []) s
    have hkept : io.keeping.receive size = kept (io.receive size) fun _ => [] := rfl
    simp only [perform, Pump.receive, hforget, hkept]
    rcases Pump.call io.keeping (kept (io.receive size) fun _ => []) s with ⟨_ | _, next⟩
    · rfl
    · rfl
  | send data => exact Pump.send_forget io data s

private theorem performAll_forget (io : Engine ε) (operations : List Operation)
    (s : Pump (ε × Ledger)) :
    performAll io operations s.forget = (performAll io.keeping operations s).forget := by
  induction operations generalizing s with
  | nil => rfl
  | cons operation rest ih =>
    have hfirst := congrArg Prod.snd (operation.perform_forget io s)
    simp only [performAll, List.foldl_cons] at ih ⊢
    rw [hfirst, ih]

private theorem allEnd_forget (io : Engine ε) (operations : List Operation)
    (s : Pump (ε × Ledger)) :
    AllEnd io operations s.forget ↔ AllEnd io.keeping operations s := by
  induction operations generalizing s with
  | nil => rfl
  | cons operation rest ih =>
    simp only [AllEnd, operation.perform_forget io s]
    exact and_congr_right fun _ => ih _

/-- What is so after an operation. -/
structure Performed (t : Script) (operation : Operation) (s : Pump (ε × Ledger))
    (result : Option StreamFault) (s' : Pump (ε × Ledger)) : Prop where
  accounted : s'.Accounted t
  alert : s'.engine.2.closed = true → s'.outgoing = []
  /-- Sending nothing does nothing. -/
  finished : result = none → s'.outgoing = [] ∨ operation = .send [] ∧ s' = s
  taken : match operation with
    | .send data => ∃ pieces, s'.engine.2.taken = s.engine.2.taken ++ pieces ∧
        pieces.flatten <+: data ∧ (result = none → pieces.flatten = data)
    | _ => s'.engine.2.taken = s.engine.2.taken

theorem Performed.flushed {operation : Operation} {result : Option StreamFault}
    {s' : Pump (ε × Ledger)} (h : Performed t operation s result s') (hend : result = none)
    (hs : s.outgoing = []) : s'.outgoing = [] := by
  rcases h.finished hend with hout | ⟨-, rfl⟩
  · exact hout
  · exact hs

theorem Operation.performed (htakes : io.TakesSome) (h : s.Accounted t)
    (halert : s.engine.2.closed = true → s.outgoing = []) (operation : Operation) :
    Performed t operation s (operation.perform io.keeping s).1
      (operation.perform io.keeping s).2 := by
  cases operation with
  | handshake =>
    have hcalled := h.called io io.handshake fun _ => []
    have hkept : io.keeping.handshake = kept io.handshake fun _ => [] := rfl
    have htaken := hcalled.taken_eq
    simp only [Operation.perform, Pump.handshake, hkept]
    rcases hcall : Pump.call io.keeping (kept io.handshake fun _ => []) s with ⟨fault | _, next⟩ <;>
      rw [hcall] at hcalled htaken
    · cases fault <;> exact ⟨hcalled.accounted, hcalled.alert, by simp, htaken⟩
    · have hout := (hcalled.finished () rfl).1
      exact ⟨hcalled.accounted, hcalled.alert, fun _ => .inl hout, htaken⟩
  | receive size =>
    have hcalled := h.called io (io.receive size) fun _ => []
    have hkept : io.keeping.receive size = kept (io.receive size) fun _ => [] := rfl
    have htaken := hcalled.taken_eq
    simp only [Operation.perform, Pump.receive, hkept]
    rcases hcall : Pump.call io.keeping (kept (io.receive size) fun _ => []) s with
      ⟨fault | data, next⟩ <;> rw [hcall] at hcalled htaken
    · exact ⟨hcalled.accounted, hcalled.alert, by simp, htaken⟩
    · have hout := (hcalled.finished data rfl).1
      exact ⟨hcalled.accounted, hcalled.alert, fun _ => .inl hout, htaken⟩
  | send data =>
    have hsent := h.sent htakes data
    refine
      { accounted := hsent.accounted
        alert := hsent.alert halert
        finished := fun hnone => ?_
        taken := hsent.taken }
    by_cases hdata : data = []
    · subst hdata
      refine .inr ⟨rfl, ?_⟩
      simp only [Operation.perform]
      rw [Pump.send]
      rfl
    · exact .inl (hsent.finished hnone (.inl hdata))

private theorem performAll_performed (htakes : io.TakesSome) (operations : List Operation)
    (h : s.Accounted t) (halert : s.engine.2.closed = true → s.outgoing = []) :
    (performAll io.keeping operations s).Accounted t ∧
      ((performAll io.keeping operations s).engine.2.closed = true →
        (performAll io.keeping operations s).outgoing = []) := by
  induction operations generalizing s with
  | nil => exact ⟨h, halert⟩
  | cons operation rest ih =>
    have hperformed := operation.performed htakes h halert
    exact ih hperformed.accounted hperformed.alert

private theorem performAll_flushed (htakes : io.TakesSome) (operations : List Operation)
    (h : s.Accounted t) (hs : s.outgoing = []) (hends : AllEnd io.keeping operations s) :
    (performAll io.keeping operations s).outgoing = [] := by
  induction operations generalizing s with
  | nil => exact hs
  | cons operation rest ih =>
    have hperformed := operation.performed htakes h fun _ => hs
    exact ih hperformed.accounted (hperformed.flushed hends.1 hs) hends.2

end Operations

/-- The stream over an engine with a callback loses nothing and does not wait with anything unsent,
whatever operations have been performed on it and however these have ended. The operation is the
same with an engine that keeps a ledger; the books are in order after it; and nothing is outgoing
once it ends normally or has met a closure alert. What the engine takes during a send that ends
normally is the data.

A send of nothing does nothing: what an operation that has failed left unsent stays so. If none
has failed, nothing is outgoing after it either. -/
theorem perform_conserves (io : Engine ε) (htakes : io.TakesSome) (first : ε) (t : Script)
    (hopen : t.sendsLeft = none) (operations : List Operation) (operation : Operation) :
    let start : Pump ε := { engine := first, transport := t }
    let s := performAll io.keeping operations { engine := (first, {}), transport := t }
    let s' := (operation.perform io.keeping s).2
    operation.perform io (performAll io operations start) =
      ((operation.perform io.keeping s).1, s'.forget) ∧
    Performed t operation s (operation.perform io.keeping s).1 s' ∧
    (AllEnd io operations start → (operation.perform io.keeping s).1 = none →
      s'.outgoing = []) := by
  intro start s s'
  have hstart : start = Pump.forget { engine := (first, {}), transport := t } := rfl
  have hbooks : Pump.Accounted t { engine := (first, ({} : Ledger)), transport := t } :=
    .start hopen rfl
  have hforget : performAll io operations start = s.forget :=
    performAll_forget io operations { engine := (first, {}), transport := t }
  obtain ⟨haccounted, halert⟩ := performAll_performed htakes operations hbooks fun _ => rfl
  have hperformed := operation.performed htakes haccounted halert
  refine ⟨?_, hperformed, fun hends hend => hperformed.flushed hend ?_⟩
  · rw [hforget]
    exact operation.perform_forget io s
  · rw [hstart, allEnd_forget] at hends
    exact performAll_flushed htakes operations hbooks rfl hends

def alertingEngine : Engine Unit where
  handshake e := ⟨.done (), [], e⟩
  receive _ e := ⟨.failed .badRecord, [21], e⟩
  send data e := ⟨.done data.length, data, e⟩
  feed _ e := e
  finish e := e

/-- After a receive that has failed a send of nothing ends normally with the alert unsent. -/
theorem empty_send_leaves_unsent :
    (alertingEngine.TakesSome ∧ ({} : Script).sendsLeft = none) ∧
    let failed := performAll alertingEngine [.receive 1] { engine := (), transport := {} }
    let sent := (Operation.send []).perform alertingEngine failed
    sent.1 = none ∧ sent.2.outgoing = [21] ∧ sent.2.transport.output = [] := by
  have htakes : alertingEngine.TakesSome := by
    intro data e taken hdata hdone
    obtain rfl : data.length = taken := Attempt.done.inj hdone
    exact List.length_pos_iff.2 hdata
  exact ⟨⟨htakes, rfl⟩, by decide +kernel⟩

def thriftyEngine : Engine Bytes where
  handshake e := if e = [] then ⟨.wantRead, [1, 2], e⟩ else ⟨.done (), [3], e.drop 1⟩
  receive size e := if e = [] then ⟨.wantRead, [], e⟩ else ⟨.done (e.take size), [], e.drop size⟩
  send data e := ⟨.done (min 2 data.length), data.take 2, e⟩
  feed b e := e ++ b
  finish e := e

def partedTransport : Script where
  items := [.data [7], .data [8, 9]]

def thriftyStream : Pump (Bytes × Ledger) :=
  performAll thriftyEngine.keeping [.handshake, .receive 5]
    { engine := ([], {}), transport := partedTransport }

/-- Data are sent in two pieces. -/
theorem perform_conserves_thrifty :
    (thriftyEngine.TakesSome ∧ partedTransport.sendsLeft = none) ∧
    let sent := (Operation.send [4, 5, 6]).perform thriftyEngine.keeping thriftyStream
    sent.1 = none ∧ sent.2.transport.output = [1, 2, 3, 4, 5, 6] ∧ sent.2.outgoing = [] ∧
      sent.2.engine.2.fed = [7, 8, 9] ∧
      ∃ pieces, sent.2.engine.2.taken = pieces ∧ pieces.flatten = [4, 5, 6] := by
  have htakes : thriftyEngine.TakesSome := by
    intro data e taken hdata hdone
    have hlength := List.length_pos_iff.2 hdata
    obtain rfl : min 2 data.length = taken := Attempt.done.inj hdone
    omega
  have hnone : ((Operation.send [4, 5, 6]).perform thriftyEngine.keeping thriftyStream).1 =
      none := by decide +kernel
  have hbefore : thriftyStream.engine.2.taken = [] := by decide +kernel
  have hperformed : Performed partedTransport (.send [4, 5, 6]) thriftyStream _ _ :=
    (perform_conserves thriftyEngine htakes [] partedTransport rfl [.handshake, .receive 5]
      (.send [4, 5, 6])).2.1
  have hout := (hperformed.finished hnone).resolve_right (by simp)
  obtain ⟨pieces, hpieces, -, hwhole⟩ := hperformed.taken
  rw [hbefore] at hpieces
  exact ⟨⟨htakes, rfl⟩, hnone, by decide +kernel, hout, by decide +kernel, pieces, hpieces,
    hwhole hnone⟩

end Tls

end TlsGate
