import TlsGate.Proofs.Stream.Bounds
import TlsGate.Proofs.Tls.Mediation
import TlsGate.Server.Probe

/-!
Handlers that do nothing with their stream but receive and send. What receiving and sending keep is
then kept by the handler. The HTTP handler and the probe are of this kind.
-/

set_option autoImplicit false
set_option relaxedAutoImplicit false

namespace TlsGate

variable {σ τ : Type}

namespace Http

variable {io : ByteStream σ} {P : σ → Prop}

theorem sendAll_keeps (hk : io.Keeps P) (pieces : List Bytes) (stream : σ) (h : P stream) :
    P (sendAll io pieces stream).2.2 := by
  induction pieces generalizing stream with
  | nil => exact h
  | cons piece others ih =>
    have hs := hk.send piece stream h
    simp only [sendAll]
    split
    · rename_i hsend
      rw [hsend] at hs
      exact hs
    · rename_i hsend
      rw [hsend] at hs
      exact ih _ hs

theorem sendAll_bounds {Q : StreamFault → Prop} (hb : io.Bounds P Q) (pieces : List Bytes)
    (stream : σ) (h : P stream) :
    P (sendAll io pieces stream).2.2 ∧
      ∀ fault, (sendAll io pieces stream).2.1 = some fault → Q fault := by
  refine ⟨sendAll_keeps hb.toKeeps pieces stream h, ?_⟩
  induction pieces generalizing stream with
  | nil => simp [sendAll]
  | cons piece others ih =>
    have hsent := hb.send piece stream h
    have hfault := fun fault => hb.sendFault piece stream fault h
    simp only [sendAll]
    split <;> rename_i hsend <;> rw [hsend] at hsent hfault
    · exact StreamFault.forall_of_some (hfault _ rfl)
    · exact ih _ hsent

private theorem stopAt_stream (fault : StreamFault) (stream : σ) (application : τ) :
    (stopAt fault stream application).stream = stream := by
  unfold stopAt
  split <;> rfl

private theorem sendReply_keeps (hk : io.Keeps P) (reply : Transmission) (stream : σ)
    (application : τ)
    (next : σ → Run σ τ) (hnext : ∀ stream, P stream → P (next stream).stream) (h : P stream) :
    P (sendReply io reply stream application next).stream := by
  have hs := sendAll_keeps hk reply.pieces stream h
  simp only [sendReply, Run.after]
  split
  · rw [stopAt_stream]
    exact hs
  · exact hs
  · split
    · exact hnext _ hs
    · exact hs

theorem serve_keeps (hk : io.Keeps P) (app : Application τ) (limit : Int) (steps : Nat)
    (progress : Progress) (inbox : Inbox) (stream : σ) (application : τ) (h : P stream) :
    P (serve app limit io steps progress inbox stream application).stream := by
  induction steps generalizing progress inbox stream application with
  | zero => exact h
  | succ steps ih =>
    simp only [serve]
    split
    · have hr := hk.receive receiveSize stream h
      split <;> rename_i hreceive <;> rw [hreceive] at hr
      · exact ih _ _ _ _ hr
      · exact ih _ _ _ _ hr
      · simp only [Run.after, stopAt_stream]
        exact hr
    · exact h
    · simp only [Run.after]
      exact sendReply_keeps hk _ _ _ _ (fun _ hs => hs) h
    · simp only [Run.after]
      split
      · exact sendReply_keeps hk _ _ _ _ (fun _ hs => ih _ _ _ _ hs) h
      · exact h
      · split
        · exact h
        · exact sendReply_keeps hk _ _ _ _ (fun _ hs => ih _ _ _ _ hs) h

end Http

namespace Server

open Tls

variable {ε : Type}

def Handler.UsesStream (io : Engine ε) (handler : Handler ε τ) : Prop :=
  ∀ facts? (channel : Channel ε) state, channel.Uses io (handler.handle facts? channel state).stream

private theorem keeps_uses (io : Engine ε) (c : Channel ε) : (Channel.stream io).Keeps
    (c.Uses io) :=
  ⟨fun size _ h => .receive size h, fun data _ h => .send data h⟩

/-- Serving HTTP is done by receiving and sending. -/
theorem httpHandler_usesStream (io : Engine ε) (app : Http.Application τ) (limit : Int)
    (steps : Channel ε → Nat) : (httpHandler io app limit steps).UsesStream io :=
  fun _ channel _ => Http.serve_keeps (keeps_uses io channel) app limit _ _ _ _ _ .start

namespace Probe

variable {io : ByteStream σ} {P : σ → Prop}

private theorem listen_keeps (hk : io.Keeps P) (probe : Probe) (steps : Nat) (stream : σ)
    (h : P stream) :
    P (probe.listen io steps stream).2.2 := by
  induction steps generalizing stream with
  | zero => exact h
  | succ steps ih =>
    have hr := hk.receive probe.most stream h
    simp only [listen]
    split <;> rename_i hreceive <;> rw [hreceive] at hr
    · exact hr
    · rename_i data received
      have hs : P (if probe.echoes then io.send data received else (none, received)).2 := by
        split
        · exact hk.send data received hr
        · exact hr
      split <;> rename_i hsend <;> rw [hsend] at hs
      · exact hs
      · exact ih _ hs

private theorem look_keeps (hk : io.Keeps P) (probe : Probe) (steps : Nat) (facts? : Option Facts)
    (stream : σ) (h : P stream) : P (probe.look io steps facts? stream).2.2 := by
  simp only [look]
  split
  · exact h
  · have hg : P (probe.greeting?.elim (none, stream) (io.send · stream)).2 := by
      cases probe.greeting? with
      | none => exact h
      | some greeting => exact hk.send greeting stream h
    split <;> rename_i hgreet <;> rw [hgreet] at hg
    · exact hg
    · exact listen_keeps hk probe steps _ hg

/-- A probe looks at its stream by receiving and sending. -/
theorem handler_usesStream (io : Engine ε) (probe : Probe) (steps : Channel ε → Nat) :
    (probe.handler io steps).UsesStream io :=
  fun facts? channel _ => look_keeps (keeps_uses io channel) probe _ facts? channel .start

end Probe

end Server

end TlsGate
