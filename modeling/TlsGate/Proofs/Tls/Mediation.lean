import TlsGate.Server.Handler

/-!
Mediation. A secured stream puts nothing on its transport but what its engine has emitted, and gives
its user nothing but what its engine has given out. This is an invariant of the two kinds of streams
over an engine, so it holds of whatever is reached from a completed handshake by receiving and
sending.
-/

set_option autoImplicit false
set_option relaxedAutoImplicit false

namespace TlsGate

namespace Script

def output (s : Script) : Bytes := s.pieces.flatten

theorem output_of_send {data : Bytes} {s next : Script} (h : send data s = (none, next)) :
    next.output = s.output ++ data := by
  unfold send at h
  split at h
  · simp at h
  · simp only [Prod.mk.injEq, true_and] at h
    subst h
    simp [output, pieces]

theorem sendsLeft_of_send {data : Bytes} {s next : Script} (h : send data s = (none, next)) :
    s.sendsLeft ≠ some 0 := by
  intro hs
  simp [send, hs] at h

theorem eq_of_send_fault {data : Bytes} {s next : Script} {fault : StreamFault}
    (h : send data s = (some fault, next)) : next = s ∧ s.sendsLeft = some 0 := by
  unfold send at h
  split at h
  · rename_i hs
    simp only [Prod.mk.injEq] at h
    exact ⟨h.2.symm, hs⟩
  · simp at h

theorem receive_frame (most : Nat) (s : Script) :
    (receive most s).2.output = s.output ∧ (receive most s).2.sendsLeft = s.sendsLeft := by
  simp only [receive]
  split <;> exact ⟨rfl, rfl⟩

end Script

namespace Tls

variable {ε : Type}

/-- An engine gets from a first state to another, and the bytes are all that it emits on the way. -/
inductive Engine.Driven (io : Engine ε) (first : ε) : Bytes → ε → Prop
  | start : Driven io first [] first
  | handshake {b : Bytes} {e : ε} : Driven io first b e →
      Driven io first (b ++ (io.handshake e).emitted) (io.handshake e).next
  | receive {b : Bytes} {e : ε} (size : Nat) : Driven io first b e →
      Driven io first (b ++ (io.receive size e).emitted) (io.receive size e).next
  | send {b : Bytes} {e : ε} (data : Bytes) : Driven io first b e →
      Driven io first (b ++ (io.send data e).emitted) (io.send data e).next
  | feed {b : Bytes} {e : ε} (arrived : Bytes) : Driven io first b e →
      Driven io first b (io.feed arrived e)
  | finish {b : Bytes} {e : ε} : Driven io first b e → Driven io first b (io.finish e)

def Engine.Gives (io : Engine ε) (first : ε) (data : Bytes) : Prop :=
  ∃ b e size, io.Driven first b e ∧ (io.receive size e).attempt = .done data

/-- The transport has taken, after what it had taken before, what the engine has emitted except for
what is outgoing; a transport that refused some of it takes no more. -/
def Mediated (io : Engine ε) (first : ε) (before : Bytes) (e : ε) (t : Script)
    (outgoing : Bytes) : Prop :=
  ∃ emitted, io.Driven first emitted e ∧
    (t.output ++ outgoing = before ++ emitted ∨
      t.sendsLeft = some 0 ∧ t.output <+: before ++ emitted)

namespace Mediated

variable {io : Engine ε} {first e next : ε} {before outgoing : Bytes} {t t' : Script}

theorem start (io : Engine ε) (first : ε) (t : Script) :
    Mediated io first t.output first t [] :=
  ⟨[], .start, .inl rfl⟩

theorem output_le_emitted (h : Mediated io first before e t outgoing) :
    ∃ emitted, io.Driven first emitted e ∧ t.output <+: before ++ emitted := by
  obtain ⟨emitted, hd, ho | ⟨-, hp⟩⟩ := h
  · exact ⟨emitted, hd, ho ▸ List.prefix_append _ _⟩
  · exact ⟨emitted, hd, hp⟩

theorem attempt {more : Bytes} (h : Mediated io first before e t outgoing)
    (hstep : ∀ b, io.Driven first b e → io.Driven first (b ++ more) next) :
    Mediated io first before next t (outgoing ++ more) := by
  obtain ⟨emitted, hd, ho⟩ := h
  refine ⟨emitted ++ more, hstep emitted hd, ?_⟩
  rcases ho with ho | ⟨hs, hp⟩
  · left
    rw [← List.append_assoc, ho, List.append_assoc]
  · right
    refine ⟨hs, hp.trans ?_⟩
    rw [← List.append_assoc]
    exact List.prefix_append _ _

theorem move (h : Mediated io first before e t outgoing)
    (hstep : ∀ b, io.Driven first b e → io.Driven first b next) :
    Mediated io first before next t outgoing := by
  obtain ⟨emitted, hd, ho⟩ := h
  exact ⟨emitted, hstep emitted hd, ho⟩

theorem send {piece rest : Bytes} (h : Mediated io first before e t (piece ++ rest))
    (hsend : Script.send piece t = (none, t')) : Mediated io first before e t' rest := by
  obtain ⟨emitted, hd, ho | ⟨hs, -⟩⟩ := h
  · refine ⟨emitted, hd, .inl ?_⟩
    rw [Script.output_of_send hsend, List.append_assoc, ho]
  · exact absurd hs (Script.sendsLeft_of_send hsend)

theorem refused {piece rest : Bytes} {fault : StreamFault}
    (h : Mediated io first before e t outgoing)
    (hsend : Script.send piece t = (some fault, t')) : Mediated io first before e t' rest := by
  obtain ⟨rfl, hs⟩ := Script.eq_of_send_fault hsend
  obtain ⟨emitted, hd, hp⟩ := h.output_le_emitted
  exact ⟨emitted, hd, .inr ⟨hs, hp⟩⟩

theorem received (h : Mediated io first before e t outgoing) (most : Nat) :
    Mediated io first before e (Script.receive most t).2 outgoing := by
  obtain ⟨ho, hs⟩ := Script.receive_frame most t
  simpa only [Mediated, ho, hs] using h

end Mediated

def Engine.Drives {α : Type} (io : Engine ε) (attempt : ε → Step ε α) : Prop :=
  ∀ first b e, io.Driven first b e → io.Driven first (b ++ (attempt e).emitted) (attempt e).next

theorem Engine.drives_handshake (io : Engine ε) : io.Drives io.handshake := fun _ _ _ => .handshake

private theorem Engine.drives_receive (io : Engine ε) (size : Nat) : io.Drives (io.receive size) :=
  fun _ _ _ => .receive size

private theorem Engine.drives_send (io : Engine ε) (data : Bytes) : io.Drives (io.send data) :=
  fun _ _ _ => .send data

namespace Relay

variable {io : Engine ε} {first : ε} {before : Bytes}

def IsMediated (io : Engine ε) (first : ε) (before : Bytes) (s : Relay ε) : Prop :=
  Mediated io first before s.engine s.transport s.outgoing

private theorem flush_mediated {s : Relay ε} (h : s.IsMediated io first before) :
    (flush s).2.IsMediated io first before := by
  unfold flush
  split
  · exact h
  · cases hsend : Script.send s.outgoing s.transport with
    | mk fault transport =>
      cases fault with
      | none =>
        have ho : Mediated io first before s.engine s.transport (s.outgoing ++ []) := by
          rw [List.append_nil]
          exact h
        exact ho.send hsend
      | some fault => exact Mediated.refused h hsend

private theorem finish_mediated {s : Relay ε} (h : s.IsMediated io first before) :
    (finish io s).IsMediated io first before :=
  Mediated.move h fun _ => .finish

private theorem onFault_mediated {s : Relay ε} (fault : StreamFault)
    (h : s.IsMediated io first before) :
    (onFault io fault s).2.IsMediated io first before := by
  unfold onFault
  split
  · exact finish_mediated h
  · exact finish_mediated h
  · exact h

private theorem exchange_mediated {s : Relay ε} (h : s.IsMediated io first before) :
    (exchange io s).2.IsMediated io first before := by
  have hf := flush_mediated h
  unfold exchange
  split
  · rename_i hflush
    rw [hflush] at hf
    exact onFault_mediated _ hf
  · rename_i flushed hflush
    rw [hflush] at hf
    have hr : Mediated io first before flushed.engine (Script.receive most flushed.transport).2
        flushed.outgoing := Mediated.received hf most
    split
    · rename_i hreceive
      rw [hreceive] at hr
      exact onFault_mediated _ hr
    · rename_i hreceive
      rw [hreceive] at hr
      exact Mediated.move hr fun _ => .feed _

private theorem attempt_mediated {α : Type} {attempt : ε → Step ε α} (hd : io.Drives attempt)
    {s : Relay ε} (h : s.IsMediated io first before) :
    IsMediated io first before { s with
      engine := (attempt s.engine).next
      outgoing := s.outgoing ++ (attempt s.engine).emitted } :=
  Mediated.attempt h (hd first · _)

theorem call_mediated {α : Type} {attempt : ε → Step ε α} (hd : io.Drives attempt)
    (onClosed : StreamFault) (s : Relay ε) (h : s.IsMediated io first before) :
    (call io attempt onClosed s).2.IsMediated io first before ∧
      ∀ a, (call io attempt onClosed s).1 = .ok a →
        ∃ b e, io.Driven first b e ∧ (attempt e).attempt = .done a := by
  fun_induction call io attempt onClosed s with
  | case1 s step s' a hstep fault flushed hflush =>
    have hf := flush_mediated (attempt_mediated hd h)
    rw [hflush] at hf
    exact ⟨hf, by simp⟩
  | case2 s step s' a hstep flushed hflush =>
    have hf := flush_mediated (attempt_mediated hd h)
    rw [hflush] at hf
    obtain ⟨b, hb, -⟩ := h
    refine ⟨hf, fun a' ha => ⟨b, s.engine, hb, ?_⟩⟩
    rw [← Except.ok.inj ha]
    exact hstep
  | case3 s step s' hstep fault flushed hflush =>
    have hf := flush_mediated (attempt_mediated hd h)
    rw [hflush] at hf
    exact ⟨hf, by simp⟩
  | case4 s step s' hstep flushed hflush =>
    have hf := flush_mediated (attempt_mediated hd h)
    rw [hflush] at hf
    exact ⟨hf, by simp⟩
  | case5 s step s' fault hstep =>
    exact ⟨finish_mediated (attempt_mediated hd h), by simp⟩
  | case6 s step s' hstep hs =>
    exact ⟨attempt_mediated hd h, by simp⟩
  | case7 s step s' hstep hs fault next hx =>
    have hf := exchange_mediated (attempt_mediated hd h)
    rw [hx] at hf
    exact ⟨hf, by simp⟩
  | case8 s step s' hstep hs next hx ih =>
    have hf := exchange_mediated (attempt_mediated hd h)
    rw [hx] at hf
    exact ih hf

end Relay

namespace Pump

variable {io : Engine ε} {first : ε} {before : Bytes}

def IsMediated (io : Engine ε) (first : ε) (before : Bytes) (s : Pump ε) : Prop :=
  Mediated io first before s.engine s.transport s.outgoing

private theorem flush_mediated {s : Pump ε} (h : s.IsMediated io first before) :
    (flush s).2.IsMediated io first before := by
  fun_induction flush s with
  | case1 s hs => exact h
  | case2 s hs piece s' fault transport hsend => exact Mediated.refused h hsend
  | case3 s hs piece s' transport hsend ih =>
    have hcut : piece ++ s.outgoing.drop most = s.outgoing := List.take_append_drop ..
    exact ih (Mediated.send (by rw [hcut]; exact h) hsend)

private theorem feed_mediated {s : Pump ε} (h : s.IsMediated io first before) :
    (feed io s).2.IsMediated io first before := by
  have hr : Mediated io first before s.engine (Script.receive most s.transport).2 s.outgoing :=
    Mediated.received h most
  simp only [feed]
  split
  · rename_i hreceive
    rw [hreceive] at hr
    exact Mediated.move hr fun _ => .finish
  · rename_i hreceive
    rw [hreceive] at hr
    exact hr
  · rename_i hreceive
    rw [hreceive] at hr
    exact Mediated.move hr fun _ => .feed _

private theorem attempt_mediated {α : Type} {attempt : ε → Step ε α} (hd : io.Drives attempt)
    {s : Pump ε} (h : s.IsMediated io first before) :
    IsMediated io first before { s with
      engine := (attempt s.engine).next
      outgoing := s.outgoing ++ (attempt s.engine).emitted
      history := .emitted (attempt s.engine).emitted :: s.history } :=
  Mediated.attempt h (hd first · _)

theorem call_mediated {α : Type} {attempt : ε → Step ε α} (hd : io.Drives attempt)
    (s : Pump ε) (h : s.IsMediated io first before) :
    (call io attempt s).2.IsMediated io first before ∧
      ∀ a, (call io attempt s).1 = .ok a →
        ∃ b e, io.Driven first b e ∧ (attempt e).attempt = .done a := by
  fun_induction call io attempt s with
  | case1 s step s' a hstep fault flushed hflush =>
    have hf := flush_mediated (attempt_mediated hd h)
    rw [hflush] at hf
    exact ⟨hf, by simp⟩
  | case2 s step s' a hstep flushed hflush =>
    have hf := flush_mediated (attempt_mediated hd h)
    rw [hflush] at hf
    obtain ⟨b, hb, -⟩ := h
    refine ⟨hf, fun a' ha => ⟨b, s.engine, hb, ?_⟩⟩
    rw [← Except.ok.inj ha]
    exact hstep
  | case3 s step s' hstep fault flushed hflush =>
    have hf := flush_mediated (attempt_mediated hd h)
    rw [hflush] at hf
    exact ⟨hf, by simp⟩
  | case4 s step s' hstep flushed hflush =>
    have hf := flush_mediated (attempt_mediated hd h)
    rw [hflush] at hf
    exact ⟨hf, by simp⟩
  | case5 s step s' fault hstep hs =>
    exact ⟨attempt_mediated hd h, by simp⟩
  | case6 s step s' fault hstep hs =>
    exact ⟨attempt_mediated hd h, by simp⟩
  | case7 s step s' hstep hs =>
    exact ⟨attempt_mediated hd h, by simp⟩
  | case8 s step s' hstep hs fault flushed hflush =>
    have hf := flush_mediated (attempt_mediated hd h)
    rw [hflush] at hf
    exact ⟨hf, by simp⟩
  | case9 s step s' hstep hs flushed hflush fault fed hfeed =>
    have hf := feed_mediated (flush_mediated (attempt_mediated hd h))
    rw [hflush, hfeed] at hf
    exact ⟨hf, by simp⟩
  | case10 s step s' hstep hs flushed hflush fed hfeed ih =>
    have hf := feed_mediated (flush_mediated (attempt_mediated hd h))
    rw [hflush, hfeed] at hf
    exact ih hf

private theorem send_mediated (data : Bytes) (s : Pump ε) (h : s.IsMediated io first before) :
    (send io data s).2.IsMediated io first before := by
  fun_induction send io data s with
  | case1 s => exact h
  | case2 data s hne fault next hcall =>
    have hc := (call_mediated (io.drives_send data) s h).1
    rw [hcall] at hc
    exact hc
  | case3 data s hne taken next hcall ih =>
    have hc := (call_mediated (io.drives_send data) s h).1
    rw [hcall] at hc
    exact ih hc

end Pump

namespace Channel

variable {io : Engine ε} {first : ε} {before : Bytes}

def IsMediated (io : Engine ε) (first : ε) (before : Bytes) : Channel ε → Prop
  | clear _ => False
  | relayed s => s.IsMediated io first before
  | pumped s => s.IsMediated io first before

/-- What a user of a stream gets to by receiving and sending. -/
inductive Uses (io : Engine ε) (c : Channel ε) : Channel ε → Prop
  | start : Uses io c c
  | receive {d : Channel ε} (size : Nat) : Uses io c d → Uses io c (d.receive io size).2
  | send {d : Channel ε} (data : Bytes) : Uses io c d → Uses io c (d.send io data).2

theorem Uses.trans {c d e : Channel ε} (h : Uses io c d) (h' : Uses io d e) : Uses io c e := by
  induction h' with
  | start => exact h
  | receive size _ ih => exact .receive size ih
  | send data _ ih => exact .send data ih

private theorem receive_mediated {c : Channel ε} (size : Nat) (h : c.IsMediated io first before) :
    (c.receive io size).2.IsMediated io first before ∧
      ∀ data, (c.receive io size).1 = .ok data → io.Gives first data := by
  cases c with
  | clear t => exact h.elim
  | relayed s =>
    obtain ⟨hs, hg⟩ := Relay.call_mediated (io.drives_receive size) .ended s h
    refine ⟨hs, fun data hdata => ?_⟩
    obtain ⟨b, e, hb, he⟩ := hg data hdata
    exact ⟨b, e, size, hb, he⟩
  | pumped s =>
    obtain ⟨hs, hg⟩ := Pump.call_mediated (io.drives_receive size) s h
    refine ⟨hs, fun data hdata => ?_⟩
    obtain ⟨b, e, hb, he⟩ := hg data hdata
    exact ⟨b, e, size, hb, he⟩

private theorem send_mediated {c : Channel ε} (data : Bytes) (h : c.IsMediated io first before) :
    (c.send io data).2.IsMediated io first before := by
  cases c with
  | clear t => exact h.elim
  | relayed s =>
    have hc := (Relay.call_mediated (io.drives_send data) .badRecord s h).1
    simp only [send, Relay.send]
    split <;> rename_i hcall <;> rw [hcall] at hc <;> exact hc
  | pumped s => exact Pump.send_mediated data s h

theorem Uses.mediated {c d : Channel ε} (h : Uses io c d) (hc : c.IsMediated io first before) :
    d.IsMediated io first before := by
  induction h with
  | start => exact hc
  | receive size _ ih => exact (receive_mediated size ih).1
  | send data _ ih => exact send_mediated data ih

/-- Nothing gets around the engine of a stream: there is one, the transport has taken no more than
that has emitted, and what can be received is what it gives out. -/
structure IsSealed (io : Engine ε) (first : ε) (before : Bytes) (c : Channel ε) : Prop where
  output : ∃ e emitted, c.engine? = some e ∧ io.Driven first emitted e ∧
    c.transport.output <+: before ++ emitted
  given : ∀ size data, (c.receive io size).1 = .ok data → io.Gives first data

theorem IsMediated.output_le_emitted {c : Channel ε} (h : c.IsMediated io first before) :
    ∃ e emitted, c.engine? = some e ∧ io.Driven first emitted e ∧
      c.transport.output <+: before ++ emitted := by
  cases c with
  | clear t => exact h.elim
  | relayed s =>
    obtain ⟨emitted, hd, hp⟩ := Mediated.output_le_emitted h
    exact ⟨s.engine, emitted, rfl, hd, hp⟩
  | pumped s =>
    obtain ⟨emitted, hd, hp⟩ := Mediated.output_le_emitted h
    exact ⟨s.engine, emitted, rfl, hd, hp⟩

theorem IsMediated.isSealed {c : Channel ε} (h : c.IsMediated io first before) :
    c.IsSealed io first before :=
  ⟨h.output_le_emitted, fun size => (receive_mediated size h).2⟩

@[simp] theorem close_output (c : Channel ε) : c.close.transport.output = c.transport.output := by
  cases c <;> rfl

end Channel

theorem Stack.wrap_mediated (stack : Stack ε) (c : Policy.Context) (offer : Offer) (t : Script) :
    (stack.wrap c offer t).2.IsMediated stack.engine (stack.start c offer) t.output := by
  cases c with
  | verifying c =>
    have hc := (Relay.call_mediated stack.engine.drives_handshake .badRecord
      { engine := stack.start (.verifying c) offer, transport := t } (.start ..)).1
    simp only [wrap, Relay.handshake]
    split <;> rename_i hcall <;> rw [hcall] at hc <;> exact hc
  | callback c =>
    have hc := (Pump.call_mediated stack.engine.drives_handshake
      { engine := stack.start (.callback c) offer, transport := t } (.start ..)).1
    simp only [wrap, Pump.handshake]
    split <;> rename_i hcall <;> rw [hcall] at hc <;> exact hc

end Tls

end TlsGate
