import TlsGate.Stream.Script

/-!
What operations keep of a stream. Receiving and sending may keep a property of a stream, and as long
as it holds, the faults that they end with may be limited. A scripted transport is neither closed by
them nor given faults that it does not have.
-/

set_option autoImplicit false
set_option relaxedAutoImplicit false

namespace TlsGate

variable {σ : Type}

/-- Receiving and sending keep a property of a stream. -/
structure ByteStream.Keeps (io : ByteStream σ) (P : σ → Prop) : Prop where
  receive : ∀ size stream, P stream → P (io.receive size stream).2
  send : ∀ data stream, P stream → P (io.send data stream).2

/-- Receiving and sending keep one property of a stream, and as long as it holds, the faults that
they end with have another. -/
structure ByteStream.Bounds (io : ByteStream σ) (P : σ → Prop) (Q : StreamFault → Prop) : Prop
    extends io.Keeps P where
  receiveFault : ∀ size s fault, P s → (io.receive size s).1 = .error fault → Q fault
  sendFault : ∀ data s fault, P s → (io.send data s).1 = some fault → Q fault

namespace StreamFault

variable {α : Type} {Q : StreamFault → Prop} {fault : StreamFault}

theorem forall_of_some (h : Q fault) : ∀ f, some fault = some f → Q f := by
  rintro _ ⟨⟩
  exact h

theorem forall_of_error (h : Q fault) :
    ∀ f, (Except.error fault : Except StreamFault α) = .error f → Q f := by
  rintro _ ⟨⟩
  exact h

end StreamFault

namespace Script

/-- All faults that are still to come have a property. -/
structure OnlyFaults (Q : StreamFault → Prop) (s : Script) : Prop where
  items : ∀ fault, .fault fault ∈ s.items → Q fault
  send : Q s.sendFault

theorem bounds_closes (n : Nat) : stream.Bounds (·.closes = n) fun _ => True := by
  refine ⟨⟨?_, ?_⟩, fun _ _ _ _ _ => trivial, fun _ _ _ _ _ => trivial⟩
  · intro size s h
    simp only [stream, receive]
    split <;> exact h
  · intro data s h
    simp only [stream, send]
    split <;> exact h

theorem bounds_onlyFaults {Q : StreamFault → Prop} (hended : Q .ended) :
    stream.Bounds (OnlyFaults Q) Q := by
  refine ⟨⟨?_, ?_⟩, ?_, ?_⟩
  · intro size s h
    simp only [stream, receive]
    split <;> rename_i hitems
    · exact ⟨h.items, h.send⟩
    · exact ⟨fun f hf => h.items f (hitems ▸ List.mem_cons_of_mem _ hf), h.send⟩
    · exact ⟨fun f hf => h.items f (hitems ▸ List.mem_cons_of_mem _ hf), h.send⟩
    · refine ⟨fun f hf => h.items f (hitems ▸ List.mem_cons_of_mem _ ?_), h.send⟩
      dsimp only at hf
      split at hf
      · exact hf
      · simpa using hf
  · intro data s h
    simp only [stream, send]
    split
    · exact h
    · exact ⟨h.items, h.send⟩
  · intro size s fault h hfault
    simp only [stream, receive] at hfault
    split at hfault <;> rename_i hitems <;> cases hfault
    · exact hended
    · exact h.items _ (hitems ▸ List.mem_cons_self)
    · exact hended
  · intro data s fault h hfault
    simp only [stream, send] at hfault
    split at hfault <;> cases hfault
    exact h.send

end Script

end TlsGate
