import TlsGate.Proofs.Stream.Bounds
import TlsGate.Tls.Stack

/-!
Transports below secured streams. What receiving and sending keep of a transport, every operation of
a stream over an engine keeps of the transport below it, since it does nothing else with it; and a
stream ends with no other faults than those of its transport and those that it finds itself.
-/

set_option autoImplicit false
set_option relaxedAutoImplicit false

namespace TlsGate

def StreamFault.isFound : StreamFault → Bool
  | .ended => true
  | .broken _ => true
  | .badRecord => true
  | _ => false

namespace Tls

variable {ε : Type} {io : Engine ε} {P : Script → Prop} {Q : StreamFault → Prop}

namespace Relay

variable (hb : Script.stream.Bounds P Q) (hfound : ∀ fault : StreamFault, fault.isFound → Q fault)
include hb

theorem flush_bounds {s : Relay ε} (h : P s.transport) :
    P (flush s).2.transport ∧ ∀ fault, (flush s).1 = some fault → Q fault := by
  unfold flush
  split
  · exact ⟨h, by simp⟩
  · exact ⟨hb.send s.outgoing s.transport h, fun fault => hb.sendFault s.outgoing _ fault h⟩

include hfound

omit hb in
private theorem onFault_bounds {s : Relay ε} {fault : StreamFault} (h : P s.transport)
    (hq : Q fault) :
    P (onFault io fault s).2.transport ∧
      ∀ shown, (onFault io fault s).1 = some shown → Q shown := by
  unfold onFault
  split
  · exact ⟨h, by simp⟩
  · exact ⟨h, StreamFault.forall_of_some (hfound _ rfl)⟩
  · exact ⟨h, StreamFault.forall_of_some hq⟩

variable (io) in
private theorem exchange_bounds {s : Relay ε} (h : P s.transport) :
    P (exchange io s).2.transport ∧ ∀ fault, (exchange io s).1 = some fault → Q fault := by
  obtain ⟨hflushed, hfault⟩ := flush_bounds hb h
  unfold exchange
  split
  · rename_i hflush
    rw [hflush] at hflushed hfault
    exact onFault_bounds hfound hflushed (hfault _ rfl)
  · rename_i flushed hflush
    rw [hflush] at hflushed
    have hkept := hb.receive most flushed.transport hflushed
    have hreceived := fun fault => hb.receiveFault most flushed.transport fault hflushed
    simp only [Script.stream] at hkept hreceived
    split <;> rename_i hreceive <;> rw [hreceive] at hkept hreceived
    · exact onFault_bounds hfound hkept (hreceived _ rfl)
    · exact ⟨hkept, by simp⟩

variable (io) in
private theorem call_bounds {α : Type} (attempt : ε → Step ε α) {onClosed : StreamFault}
    (hclosed : Q onClosed) (s : Relay ε) (h : P s.transport) :
    P (call io attempt onClosed s).2.transport ∧
      ∀ fault, (call io attempt onClosed s).1 = .error fault → Q fault := by
  have hshown (fault : EngineFault) : Q (shown fault) := by
    cases fault <;> exact hfound _ rfl
  fun_induction call io attempt onClosed s with
  | case1 s step s' a hstep fault flushed hflush =>
    obtain ⟨hkept, hfault⟩ := flush_bounds hb (s := s') h
    rw [hflush] at hkept hfault
    exact ⟨hkept, StreamFault.forall_of_error (hfault _ rfl)⟩
  | case2 s step s' a hstep flushed hflush =>
    obtain ⟨hkept, -⟩ := flush_bounds hb (s := s') h
    rw [hflush] at hkept
    exact ⟨hkept, by simp⟩
  | case3 s step s' hstep fault flushed hflush =>
    obtain ⟨hkept, hfault⟩ := flush_bounds hb (s := s') h
    rw [hflush] at hkept hfault
    exact ⟨hkept, StreamFault.forall_of_error (hfault _ rfl)⟩
  | case4 s step s' hstep flushed hflush =>
    obtain ⟨hkept, -⟩ := flush_bounds hb (s := s') h
    rw [hflush] at hkept
    exact ⟨hkept, StreamFault.forall_of_error hclosed⟩
  | case5 s step s' fault hstep =>
    exact ⟨h, StreamFault.forall_of_error (hshown fault)⟩
  | case6 s step s' hstep hs =>
    exact ⟨h, StreamFault.forall_of_error (hfound _ rfl)⟩
  | case7 s step s' hstep hs fault next hx =>
    obtain ⟨hkept, hfault⟩ := exchange_bounds io hb hfound (s := s') h
    rw [hx] at hkept hfault
    exact ⟨hkept, StreamFault.forall_of_error (hfault _ rfl)⟩
  | case8 s step s' hstep hs next hx ih =>
    obtain ⟨hkept, -⟩ := exchange_bounds io hb hfound (s := s') h
    rw [hx] at hkept
    exact ih hkept

end Relay

namespace Pump

variable (hb : Script.stream.Bounds P Q) (hended : Q .ended) (hbroken : ∀ why, Q (.broken why))
include hb

theorem flush_bounds {s : Pump ε} (h : P s.transport) :
    P (flush s).2.transport ∧ ∀ fault, (flush s).1 = some fault → Q fault := by
  fun_induction flush s with
  | case1 s hs => exact ⟨h, by simp⟩
  | case2 s hs piece s' fault transport hsend =>
    have hkept := hb.send piece s.transport h
    have hfault := hb.sendFault piece s.transport fault h
    simp only [Script.stream, hsend] at hkept hfault
    exact ⟨hkept, StreamFault.forall_of_some (hfault trivial)⟩
  | case3 s hs piece s' transport hsend ih =>
    have hkept := hb.send piece s.transport h
    simp only [Script.stream, hsend] at hkept
    exact ih hkept

variable (io) in
theorem feed_bounds {s : Pump ε} (h : P s.transport) :
    P (feed io s).2.transport ∧ ∀ fault, (feed io s).1 = some fault → Q fault := by
  have hkept := hb.receive most s.transport h
  have hreceived := fun fault => hb.receiveFault most s.transport fault h
  simp only [Script.stream] at hkept hreceived
  simp only [feed]
  split <;> rename_i hreceive <;> rw [hreceive] at hkept hreceived
  · exact ⟨hkept, by simp⟩
  · exact ⟨hkept, StreamFault.forall_of_some (hreceived _ rfl)⟩
  · exact ⟨hkept, by simp⟩

include hended hbroken

private theorem call_bounds {α : Type} (attempt : ε → Step ε α) (s : Pump ε) (h : P s.transport) :
    P (call io attempt s).2.transport ∧
      ∀ fault, (call io attempt s).1 = .error fault → Q fault := by
  fun_induction call io attempt s with
  | case1 s step s' a hstep fault flushed hflush =>
    obtain ⟨hkept, hfault⟩ := flush_bounds hb (s := s') h
    rw [hflush] at hkept hfault
    exact ⟨hkept, StreamFault.forall_of_error (hfault _ rfl)⟩
  | case2 s step s' a hstep flushed hflush =>
    obtain ⟨hkept, -⟩ := flush_bounds hb (s := s') h
    rw [hflush] at hkept
    exact ⟨hkept, by simp⟩
  | case3 s step s' hstep fault flushed hflush =>
    obtain ⟨hkept, hfault⟩ := flush_bounds hb (s := s') h
    rw [hflush] at hkept hfault
    exact ⟨hkept, StreamFault.forall_of_error (hfault _ rfl)⟩
  | case4 s step s' hstep flushed hflush =>
    obtain ⟨hkept, -⟩ := flush_bounds hb (s := s') h
    rw [hflush] at hkept
    exact ⟨hkept, StreamFault.forall_of_error hended⟩
  | case5 s step s' fault hstep hs =>
    exact ⟨h, StreamFault.forall_of_error hended⟩
  | case6 s step s' fault hstep hs =>
    exact ⟨h, StreamFault.forall_of_error (hbroken _)⟩
  | case7 s step s' hstep hs =>
    exact ⟨h, StreamFault.forall_of_error hended⟩
  | case8 s step s' hstep hs fault flushed hflush =>
    obtain ⟨hkept, hfault⟩ := flush_bounds hb (s := s') h
    rw [hflush] at hkept hfault
    exact ⟨hkept, StreamFault.forall_of_error (hfault _ rfl)⟩
  | case9 s step s' hstep hs flushed hflush fault fed hfeed =>
    obtain ⟨hkept, -⟩ := flush_bounds hb (s := s') h
    rw [hflush] at hkept
    obtain ⟨hfed, hfault⟩ := feed_bounds io hb hkept
    rw [hfeed] at hfed hfault
    exact ⟨hfed, StreamFault.forall_of_error (hfault _ rfl)⟩
  | case10 s step s' hstep hs flushed hflush fed hfeed ih =>
    obtain ⟨hkept, -⟩ := flush_bounds hb (s := s') h
    rw [hflush] at hkept
    obtain ⟨hfed, -⟩ := feed_bounds io hb hkept
    rw [hfeed] at hfed
    exact ih hfed

theorem send_bounds (data : Bytes) (s : Pump ε) (h : P s.transport) :
    P (send io data s).2.transport ∧ ∀ fault, (send io data s).1 = some fault → Q fault := by
  fun_induction send io data s with
  | case1 s => exact ⟨h, by simp⟩
  | case2 data s hne fault next hcall =>
    obtain ⟨hkept, hfault⟩ := call_bounds hb hended hbroken (io.send data) s h
    rw [hcall] at hkept hfault
    exact ⟨hkept, StreamFault.forall_of_some (hfault _ rfl)⟩
  | case3 data s hne taken next hcall ih =>
    obtain ⟨hkept, -⟩ := call_bounds hb hended hbroken (io.send data) s h
    rw [hcall] at hkept
    exact ih hkept

theorem bounds (io : Engine ε) : (stream io).Bounds (fun s => P s.transport) Q where
  receive size s h := (call_bounds hb hended hbroken (io.receive size) s h).1
  send data s h := (send_bounds hb hended hbroken data s h).1
  receiveFault size s fault h := (call_bounds hb hended hbroken (io.receive size) s h).2 fault
  sendFault data s fault h := (send_bounds hb hended hbroken data s h).2 fault

end Pump

section Stream

theorem Channel.close_closes (channel : Channel ε) :
    channel.close.transport.closes = channel.transport.closes + 1 := by
  cases channel <;> rfl

variable (hb : Script.stream.Bounds P Q) (hfound : ∀ fault : StreamFault, fault.isFound → Q fault)
include hb hfound

theorem Channel.bounds (io : Engine ε) :
    (Channel.stream io).Bounds (fun c => P c.transport) Q := by
  have hpumped := Pump.bounds hb (hfound .ended rfl) (fun why => hfound (.broken why) rfl) io
  refine ⟨⟨?_, ?_⟩, ?_, ?_⟩
  · intro size c h
    cases c with
    | clear t => exact hb.receive size t h
    | relayed s => exact (Relay.call_bounds io hb hfound _ (hfound _ rfl) s h).1
    | pumped s => exact hpumped.receive size s h
  · intro data c h
    cases c with
    | clear t => exact hb.send data t h
    | relayed s =>
      have hcall :=
        (Relay.call_bounds io hb hfound (io.send data) (hfound .badRecord rfl) s h).1
      simp only [stream, send, Relay.send]
      split <;> rename_i hc <;> rw [hc] at hcall <;> exact hcall
    | pumped s => exact hpumped.send data s h
  · intro size c fault h hfault
    cases c with
    | clear t => exact hb.receiveFault size t fault h hfault
    | relayed s => exact (Relay.call_bounds io hb hfound _ (hfound _ rfl) s h).2 fault hfault
    | pumped s => exact hpumped.receiveFault size s fault h hfault
  · intro data c fault h hfault
    cases c with
    | clear t => exact hb.sendFault data t fault h hfault
    | relayed s =>
      have hcall :=
        (Relay.call_bounds io hb hfound (io.send data) (hfound .badRecord rfl) s h).2
      simp only [stream, send, Relay.send] at hfault
      split at hfault <;> rename_i hc <;> rw [hc] at hcall <;> cases hfault
      exact hcall _ rfl
    | pumped s => exact hpumped.sendFault data s fault h hfault

theorem Stack.wrap_bounds (stack : Stack ε) (c : Policy.Context) (offer : Offer) {t : Script}
    (h : P t) :
    P (stack.wrap c offer t).2.transport ∧
      ∀ fault, (stack.wrap c offer t).1 = some fault → Q fault := by
  cases c with
  | verifying c =>
    obtain ⟨hkept, hfault⟩ := Relay.call_bounds stack.engine hb hfound stack.engine.handshake
      (hfound .badRecord rfl) { engine := stack.start (.verifying c) offer, transport := t } h
    simp only [wrap, Relay.handshake]
    split <;> rename_i hcall <;> rw [hcall] at hkept hfault
    · exact ⟨hkept, by simp⟩
    · exact ⟨hkept, StreamFault.forall_of_some (hfault _ rfl)⟩
  | callback c =>
    obtain ⟨hkept, hfault⟩ := Pump.call_bounds hb (hfound .ended rfl)
      (fun why => hfound (.broken why) rfl) stack.engine.handshake
      { engine := stack.start (.callback c) offer, transport := t } h
    simp only [wrap, Pump.handshake]
    split <;> rename_i hcall <;> rw [hcall] at hkept hfault
    · exact ⟨hkept, by simp⟩
    · exact ⟨hkept, StreamFault.forall_of_some (hfound _ rfl)⟩
    · exact ⟨hkept, StreamFault.forall_of_some (hfault _ rfl)⟩

end Stream

end Tls

end TlsGate
