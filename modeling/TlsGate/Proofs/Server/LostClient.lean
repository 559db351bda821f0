import TlsGate.Proofs.Http.Robustness
import TlsGate.Proofs.Http.Termination
import TlsGate.Proofs.Server.Transparency
import TlsGate.Proofs.Tls.EndOfStream
import TlsGate.Proofs.Tls.Transport
import TlsGate.Tls.Client

/-!
A client that is gone without a closure alert. A send over an engine with a callback breaks, or
fails as the transport does, except that it finds the end of the stream if the transport has ended
and the engine takes nothing any more. Serving HTTP over such a stream returns unless a send has
found the end, which is then what serving fails with: a request that is cut off is answered, and the
answer crashes the handler.
-/

set_option autoImplicit false
set_option relaxedAutoImplicit false

namespace TlsGate

variable {σ τ : Type}

namespace Script

structure Later (t s : Script) : Prop where
  sendFault : s.sendFault = t.sendFault
  isOpen : t.sendsLeft = none → s.sendsLeft = none
  faults : ∀ fault, .fault fault ∈ s.items → .fault fault ∈ t.items

def Raises (t : Script) (fault : StreamFault) : Prop :=
  .fault fault ∈ t.items ∨ fault = t.sendFault ∧ t.sendsLeft ≠ none

theorem Later.refl (t : Script) : t.Later t := ⟨rfl, id, fun _ => id⟩

private theorem Later.raises {t s : Script} (h : t.Later s) {fault : StreamFault}
    (hs : s.Raises fault) :
    t.Raises fault := by
  rcases hs with hitem | ⟨hfault, hleft⟩
  · exact .inl (h.faults fault hitem)
  · exact .inr ⟨hfault.trans h.sendFault, fun hnone => hleft (h.isOpen hnone)⟩

theorem Later.receive {t s : Script} (h : t.Later s) (most : Nat) :
    t.Later (s.receive most).2 ∧
      ∀ fault, (s.receive most).1 = .error fault → fault = .ended ∨ t.Raises fault := by
  have hitems : ∀ item rest, s.items = item :: rest → ∀ fault, .fault fault ∈ rest →
      .fault fault ∈ t.items := by
    intro item rest hrest fault hfault
    refine h.faults fault ?_
    rw [hrest]
    exact List.mem_cons_of_mem item hfault
  simp only [Script.receive]
  split
  · exact ⟨⟨h.sendFault, h.isOpen, h.faults⟩, StreamFault.forall_of_error (.inl rfl)⟩
  · rename_i fault rest hrest
    have hraises : t.Raises fault := by
      refine .inl (h.faults fault ?_)
      rw [hrest]
      exact List.mem_cons_self
    exact ⟨⟨h.sendFault, h.isOpen, hitems _ _ hrest⟩, StreamFault.forall_of_error (.inr hraises)⟩
  · rename_i rest hrest
    exact ⟨⟨h.sendFault, h.isOpen, hitems _ _ hrest⟩, StreamFault.forall_of_error (.inl rfl)⟩
  · rename_i b rest hne hrest
    refine ⟨⟨h.sendFault, h.isOpen, ?_⟩, by simp⟩
    intro fault hfault
    dsimp only at hfault
    refine hitems _ _ hrest fault ?_
    split at hfault
    · exact hfault
    · rcases List.mem_cons.1 hfault with heq | hfault
      · cases heq
      · exact hfault

theorem Later.send {t s : Script} (h : t.Later s) (data : Bytes) :
    t.Later (s.send data).2 ∧ ∀ fault, (s.send data).1 = some fault → t.Raises fault := by
  obtain ⟨-, hfault, hopen⟩ := send_frame data s
  have hitems := send_items data s
  refine ⟨⟨hfault.trans h.sendFault, fun hnone => hopen (h.isOpen hnone), ?_⟩, ?_⟩
  · rw [hitems]
    exact h.faults
  · intro fault hsome
    rcases hsend : s.send data with ⟨result, next⟩
    rw [hsend] at hsome
    obtain rfl : result = some fault := hsome
    have hlimit := (eq_of_send_fault hsend).2
    exact h.raises (.inr ⟨fault_of_send hsend, by simp [hlimit]⟩)

private theorem bounds_later (t : Script) :
    stream.Bounds (Later t) fun fault =>
      fault = .ended ∨ (∃ why, fault = .broken why) ∨ t.Raises fault where
  receive most _ h := (h.receive most).1
  send data _ h := (h.send data).1
  receiveFault most _ fault h hfault := ((h.receive most).2 fault hfault).imp_right .inr
  sendFault data _ fault h hfault := .inr (.inr ((h.send data).2 fault hfault))

end Script

namespace Tls

variable {ε α : Type} {io : Engine ε}

namespace Pump

variable {attempt : ε → Step ε α} {s s' moment : Pump ε}

/-! ## Sends -/

private theorem later_invariant (io : Engine ε) (attempt : ε → Step ε α) (t : Script) :
    Invariant io attempt fun s => t.Later s.transport where
  attempted _ hs := hs
  flushed _ hs := (flush_bounds t.bounds_later hs).1
  fed _ _ hs := (feed_bounds io t.bounds_later hs).1

def FindsEnd (io : Engine ε) (s : Pump ε) : Prop :=
  ∃ rest e, s.engine = (io.send rest e).next ∧
    ((io.send rest e).attempt = .closed ∨
      s.ended = true ∧ (io.send rest e).attempt.flushes = false)

private theorem feed_fault {fault : StreamFault} (h : (feed io s).1 = some fault) :
    fault ≠ .ended := by
  simp only [feed] at h
  split at h
  · cases h
  · rename_i hne hreceive
    rw [← Option.some.inj h]
    exact hne
  · cases h

private theorem Ends.finds_end {data : Bytes} (h : Ends io (io.send data) s (.error .ended) s') :
    s'.FindsEnd io ∨ s.transport.sendFault = .ended ∧ s.transport.sendsLeft ≠ none := by
  have hflushed := flush_flushed (s.attempted (io.send data))
  cases h with
  | closed hstep hflush =>
    rw [hflush] at hflushed
    exact .inl ⟨data, s.engine, hflushed.engine, .inl hstep⟩
  | refused hstep hfailed hflush =>
    obtain ⟨⟨left, hleft, -⟩, hfault⟩ :=
      (flush_fault_iff (s.attempted (io.send data)) .ended).1 (congrArg Prod.fst hflush)
    refine .inr ⟨hfault.symm, fun hnone => ?_⟩
    cases hnone.symm.trans hleft
  | spent hstep hended => exact .inl ⟨data, s.engine, rfl, .inr ⟨hended, hstep⟩⟩
  | lost hstep hended hflush hfeed => exact absurd rfl (feed_fault (congrArg Prod.fst hfeed))

private theorem send_finds_end {t : Script} {data : Bytes} (hs : t.Later s.transport)
    (h : (send io data s).1 = some .ended) :
    (send io data s).2.FindsEnd io ∨ t.sendFault = .ended ∧ t.sendsLeft ≠ none := by
  fun_induction send io data s with
  | case1 s => cases h
  | case2 data s hne fault next hcall =>
    obtain rfl : fault = .ended := Option.some.inj h
    obtain ⟨moment, hwaits, hends⟩ := call_course io (io.send data) s
    rw [hcall] at hends
    have hlater := hwaits.keeps (later_invariant io (io.send data) t) hs
    rcases hends.finds_end with hfinds | ⟨hfault, hlimit⟩
    · exact .inl hfinds
    · exact .inr ⟨hlater.sendFault.symm.trans hfault, fun hnone => hlimit (hlater.isOpen hnone)⟩
  | case3 data s hne taken next hcall ih =>
    have hlater := call_keeps (later_invariant io (io.send data) t) hs
    rw [hcall] at hlater
    exact ih hlater h

/-- What a send that does not complete ends with. -/
inductive Fails (io : Engine ε) (s s' : Pump ε) : StreamFault → Prop
  | broken (why : Breakage) : Fails io s s' (.broken why)
  | raised {fault : StreamFault} : fault ≠ .ended → s.transport.Raises fault → Fails io s s' fault
  | refused : s.transport.sendFault = .ended → s.transport.sendsLeft ≠ none → Fails io s s' .ended
  | ended : s'.FindsEnd io → Fails io s s' .ended

private theorem send_fails {data : Bytes} {fault : StreamFault}
    (h : (send io data s).1 = some fault) :
    Fails io s (send io data s).2 fault := by
  have hlater := Script.Later.refl s.transport
  have hfault := (send_bounds s.transport.bounds_later (.inl rfl)
    (fun why => .inr (.inl ⟨why, rfl⟩)) data s hlater).2 fault h
  by_cases hended : fault = .ended
  · subst hended
    rcases send_finds_end hlater h with hfinds | ⟨hrefused, hlimit⟩
    · exact .ended hfinds
    · exact .refused hrefused hlimit
  · rcases hfault with hfault | ⟨why, rfl⟩ | hraises
    · exact absurd hfault hended
    · exact .broken why
    · exact .raised hended hraises

private theorem send_of_ended {data : Bytes} (hs : s.ended = true) (hdata : data ≠ [])
    (hrefuses : (io.send data s.engine).attempt.flushes = false) :
    (send io data s).1 = some .ended := by
  have honce := call_once io (io.send data) hs
  have hresult : (call io (io.send data) s).1 = .error .ended := by
    rw [honce.outcome (not_refuses hrefuses), Attempt.outcome_of_not_flushes hrefuses]
  rw [send, dif_neg hdata]
  split <;> rename_i hcall <;> rw [hcall] at hresult <;> cases hresult
  rfl

end Pump

/-! ## Finite plaintext -/

/-- An engine has so many bytes to give at most, apart from what it is fed. -/
structure Engine.Finite (io : Engine ε) (supply : ε → Nat) : Prop where
  receive : ∀ size e data, (io.receive size e).attempt = .done data →
    supply (io.receive size e).next + data.length ≤ supply e
  waits : ∀ size e, supply (io.receive size e).next ≤ supply e
  send : ∀ data e, supply (io.send data e).next ≤ supply e
  feed : ∀ b e, supply (io.feed b e) ≤ supply e + b.length
  finish : ∀ e, supply (io.finish e) ≤ supply e

namespace Pump

variable {supply : ε → Nat} {attempt : ε → Step ε α} {s s' moment : Pump ε}

/-- How many bytes a stream has to give at most. -/
def stock (supply : ε → Nat) (s : Pump ε) : Nat :=
  supply s.engine + s.transport.incoming.length

private theorem stock_flush (supply : ε → Nat) (s : Pump ε) :
    (flush s).2.stock supply = s.stock supply := by
  have hflushed := flush_flushed s
  simp only [stock, hflushed.engine, Script.incoming, hflushed.items]

private theorem stock_feed (hio : io.Finite supply) (s : Pump ε) :
    (feed io s).2.stock supply ≤ s.stock supply := by
  simp only [feed]
  split <;> rename_i hreceive
  · have hincoming := Script.incoming_of_receive_error hreceive
    have hfinish := hio.finish s.engine
    simp only [stock, hincoming]
    omega
  · have hincoming := Script.incoming_of_receive_error hreceive
    simp only [stock, hincoming]
    omega
  · rename_i b transport
    have hincoming := Script.incoming_of_receive hreceive
    have hfeed := hio.feed b s.engine
    simp only [stock, hincoming, List.length_append]
    omega

private theorem stock_invariant (hio : io.Finite supply)
    (hnext : ∀ e, supply (attempt e).next ≤ supply e)
    (most : Nat) : Invariant io attempt fun s => s.stock supply ≤ most where
  attempted s hs := Nat.le_trans (Nat.add_le_add_right (hnext s.engine) _) hs
  flushed s hs := (stock_flush supply s).symm ▸ hs
  fed s _ hs := Nat.le_trans (stock_feed hio s) hs

private theorem call_stock_of_ok (hio : io.Finite supply)
    (hnext : ∀ e, supply (attempt e).next ≤ supply e)
    {a : α} {given : Nat}
    (hdone : ∀ e, (attempt e).attempt = .done a → supply (attempt e).next + given ≤ supply e)
    {next : Pump ε} (h : call io attempt s = (.ok a, next)) :
    next.stock supply + given ≤ s.stock supply := by
  obtain ⟨moment, hwaits, hends⟩ := call_course io attempt s
  have hmoment := hwaits.keeps (stock_invariant hio hnext (s.stock supply)) (Nat.le_refl _)
  rw [h] at hends
  cases hends with
  | done hstep hflush =>
    have hstock := stock_flush supply (moment.attempted attempt)
    have hgiven := hdone moment.engine hstep
    rw [hflush] at hstock
    simp only [stock, attempted] at hstock hmoment ⊢
    omega

theorem finite (hio : io.Finite supply) : (stream io).Finite (stock supply) where
  receive size s data t hreceive :=
    call_stock_of_ok hio (hio.waits size) (fun e hdone => hio.receive size e data hdone) hreceive
  fails size s fault t hreceive := by
    have hstock := call_keeps (stock_invariant hio (hio.waits size) (s.stock supply))
      (Nat.le_refl _)
    have hcall : call io (io.receive size) s = (.error fault, t) := hreceive
    rw [hcall] at hstock
    exact hstock
  send data s :=
    send_keeps (fun data => stock_invariant hio (hio.send data) (s.stock supply)) data
      (Nat.le_refl _)

/-- A stream after operations. -/
def After (io : Engine ε) (s s' : Pump ε) : Prop := ∃ operations, s' = performAll io operations s

theorem After.perform {s s' : Pump ε} (h : After io s s') (operation : Operation) :
    After io s (operation.perform io s').2 := by
  obtain ⟨operations, rfl⟩ := h
  refine ⟨operations ++ [operation], ?_⟩
  simp only [performAll, List.foldl_append, List.foldl_cons, List.foldl_nil]

private theorem keeps_after (io : Engine ε) (s : Pump ε) : (stream io).Keeps (After io s) where
  receive size s' h := by
    have hnext := h.perform (.receive size)
    simp only [Operation.perform] at hnext
    show After io s (receive io size s').2
    split at hnext <;> rename_i hreceive <;> rw [hreceive] <;> exact hnext
  send data s' h := h.perform (.send data)

end Pump

end Tls

namespace Http

open Tls

/-! ## Serving -/

def Event.Occurs (io : ByteStream σ) (P : σ → Prop) : Event → Prop
  | .received data => ∃ s, P s ∧ (io.receive receiveSize s).1 = .ok data
  | .receiveFailed fault => ∃ s, P s ∧ (io.receive receiveSize s).1 = .error fault
  | .sent data => ∃ s, P s ∧ (io.send data s).1 = none
  | .sendFailed data fault => ∃ s, P s ∧ (io.send data s).1 = some fault
  | _ => True

section Occurs

variable {io : ByteStream σ} {P : σ → Prop} {s : σ} {a : τ}

private theorem stopAt_occurs (fault : StreamFault) (s : σ) (a : τ) :
    ∀ event ∈ (stopAt fault s a).events, event.Occurs io P := by
  cases fault <;> simp [stopAt, Event.Occurs]

variable (hk : io.Keeps P)
include hk

private theorem sendAll_occurs (pieces : List Bytes) (hs : P s) :
    ∀ event ∈ (sendAll io pieces s).1, event.Occurs io P := by
  induction pieces generalizing s with
  | nil => simp [sendAll]
  | cons piece others ih =>
    have hkept := hk.send piece s hs
    rcases hsend : io.send piece s with ⟨fault | fault, t⟩ <;> rw [hsend] at hkept <;>
      simp only [sendAll, hsend] <;> intro event hevent <;>
      rcases List.mem_cons.1 hevent with rfl | hevent
    · exact ⟨s, hs, congrArg Prod.fst hsend⟩
    · exact ih hkept event hevent
    · exact ⟨s, hs, congrArg Prod.fst hsend⟩
    · cases hevent

private theorem sendReply_occurs {reply : Transmission} {next : σ → Run σ τ} (hs : P s)
    (hnext : ∀ t, P t → ∀ event ∈ (next t).events, event.Occurs io P) :
    ∀ event ∈ (sendReply io reply s a next).events, event.Occurs io P := by
  have hsent := sendAll_occurs hk reply.pieces hs
  have hkept := sendAll_keeps hk reply.pieces s hs
  rw [sendReply_eq]
  intro event hevent
  rcases List.mem_append.1 hevent with hevent | hevent
  · exact hsent event hevent
  · unfold Transmission.settle at hevent
    split at hevent
    · exact stopAt_occurs _ _ _ event hevent
    · cases hevent
    · split at hevent
      · exact hnext _ hkept event hevent
      · cases hevent

private theorem deliver_occurs {head : Head} {asked : Request} {answer : Answer}
    {next : σ → Run σ τ}
    (hs : P s) (hnext : ∀ t, P t → ∀ event ∈ (next t).events, event.Occurs io P) :
    ∀ event ∈ (answer.deliver io head asked s a next).events, event.Occurs io P := by
  intro event hevent
  cases answer with
  | response r => exact sendReply_occurs hk hs hnext event hevent
  | nothing => cases hevent
  | raised name =>
    simp only [Answer.deliver] at hevent
    split at hevent
    · cases hevent
    · rcases List.mem_cons.1 hevent with rfl | hevent
      · trivial
      · exact sendReply_occurs hk hs hnext event hevent

private theorem serve_occurs (app : Application τ) (limit : Int) (steps : Nat) (p : Progress)
    (i : Inbox)
    (hs : P s) (a : τ) :
    ∀ event ∈ (serve app limit io steps p i s a).events, event.Occurs io P := by
  induction steps generalizing p i s a with
  | zero => simp [serve]
  | succ steps ih =>
    cases hread : readOn limit p i with
    | waiting p' i' =>
      have hkept := hk.receive receiveSize s hs
      rw [serve_of_waiting hread]
      rcases hreceive : io.receive receiveSize s with ⟨result, t⟩
      rw [hreceive] at hkept
      have hresult : (io.receive receiveSize s).1 = result := congrArg Prod.fst hreceive
      intro event hevent
      cases result with
      | ok data =>
        rcases List.mem_cons.1 hevent with rfl | hevent
        · exact ⟨s, hs, hresult⟩
        · exact ih _ _ hkept _ event hevent
      | error fault =>
        cases fault with
        | ended =>
          rcases List.mem_cons.1 hevent with rfl | hevent
          · exact ⟨s, hs, hresult⟩
          · exact ih _ _ hkept _ event hevent
        | _ =>
          rcases List.mem_cons.1 hevent with rfl | hevent
          · exact ⟨s, hs, hresult⟩
          · exact stopAt_occurs _ _ _ event hevent
    | finished =>
      rw [serve_of_finished hread]
      simp
    | refused fault p' =>
      rw [serve_of_refused hread]
      intro event hevent
      rcases List.mem_cons.1 hevent with rfl | hevent
      · trivial
      · exact sendReply_occurs hk hs (by simp) event hevent
    | request head body j =>
      rw [serve_of_request hread]
      intro event hevent
      rcases List.mem_cons.1 hevent with rfl | hevent
      · trivial
      · exact deliver_occurs hk hs (fun t ht => ih _ _ ht _) event hevent

end Occurs

/-- A client that is gone. A send over an engine with a callback that does not complete breaks, or
fails as the transport does, or has found the end of the stream; and it does find it if the
transport has ended and the engine takes nothing. If the engine has only so many bytes to give and
the transport is at worst lost, serving HTTP returns unless it has accepted a tunnel or one of its
sends has found the end. -/
theorem fails_only_by_found_end {ε : Type} {io : Engine ε} {supply : ε → Nat}
    (hio : io.Finite supply) (app : Application τ) (limit : Int) (s : Pump ε)
    (hlost : s.transport.OnlyFaults (·.isLoss = true)) {steps : Nat}
    (hsteps : 3 * s.stock supply + 1 < steps) (application : τ)
    (hplain : ∀ event ∈ (serve app limit (Pump.stream io) steps .head {} s application).events,
      event.IsPlain) :
    let run := serve app limit (Pump.stream io) steps .head {} s application
    (∀ (data : Bytes) (s : Pump ε) (fault : StreamFault), (Pump.send io data s).1 = some fault →
      Pump.Fails io s (Pump.send io data s).2 fault) ∧
    (∀ (data : Bytes) (s : Pump ε), s.ended = true → data ≠ [] →
      (io.send data s.engine).attempt.flushes = false → (Pump.send io data s).1 = some .ended) ∧
    (run.outcome = some (.ok ()) ∨
      (run.outcome = some (.error (.unsendable .switched)) ∧
        ∃ request answer, .called request answer ∈ run.events ∧ OpensTunnel request answer) ∨
      (run.outcome = some (.error (.stream .ended)) ∧
        ∃ data s', .sendFailed data .ended ∈ run.events ∧ Pump.After io s s' ∧
          (Pump.send io data s').1 = some .ended)) := by
  intro run
  have hended : run.outcome ≠ none := serve_ends_of_finite (Pump.finite hio) hsteps
  have htransport : Script.stream.Bounds _ fun fault => fault.isLoss = true :=
    Script.bounds_onlyFaults (Q := fun fault => fault.isLoss = true) rfl
  have hbounds := Pump.bounds htransport rfl (fun _ => rfl) io
  have hrobust : run.IsRobust := serve_isRobust hbounds hlost hplain
  have hoccurs : ∀ event ∈ run.events, event.Occurs (Pump.stream io) (Pump.After io s) :=
    serve_occurs (Pump.keeps_after io s) app limit steps .head {} ⟨[], rfl⟩ application
  refine ⟨fun data s fault hfault => Pump.send_fails hfault, ?_, ?_⟩
  · exact fun data s hs hdata hrefuses => Pump.send_of_ended hs hdata hrefuses
  · cases houtcome : run.outcome with
    | none => exact absurd houtcome hended
    | some result =>
      cases result with
      | ok _ => exact .inl rfl
      | error failure =>
        rcases hrobust.failure failure houtcome with ⟨rfl, htunnel⟩ | ⟨rfl, data, hfailed⟩
        · exact .inr (.inl ⟨rfl, htunnel⟩)
        · obtain ⟨s', hafter, hsend⟩ := hoccurs _ hfailed
          exact .inr (.inr ⟨rfl, data, s', hfailed, hafter, hsend⟩)

def frailEngine : Engine (Bytes × Bool) where
  handshake e := ⟨.done (), [], e⟩
  receive size e :=
    if e.1 ≠ [] then ⟨.done (e.1.take size), [], (e.1.drop size, e.2)⟩
    else if e.2 then ⟨.failed .unexpectedEnd, [], e⟩
    else ⟨.wantRead, [], e⟩
  send data e := if e.2 then ⟨.failed .shutDown, [], e⟩ else ⟨.done data.length, data, e⟩
  feed b e := (e.1 ++ b, e.2)
  finish e := (e.1, true)

private theorem frailEngine_finite : frailEngine.Finite fun e => e.1.length where
  receive size e data h := by
    simp only [frailEngine] at h ⊢
    split at h
    · obtain rfl : e.1.take size = data := Attempt.done.inj h
      rename_i hne
      rw [if_pos hne]
      simp only [List.length_drop, List.length_take]
      omega
    · split at h <;> cases h
  waits size e := by
    simp only [frailEngine]
    split
    · simp
    · split <;> exact Nat.le_refl _
  send data e := by
    simp only [frailEngine]
    split <;> exact Nat.le_refl _
  feed b e := by simp [frailEngine]
  finish e := Nat.le_refl _

def frailStream : Pump (Bytes × Bool) where
  engine := ([], false)
  transport :=
    { items := [.data (Bytes.ofString "GET / HTTP/1.1\r\nHost: b\r\n\r\n"),
        .data (Bytes.ofString "POST /c HTTP/1.1\r\nHost: b")] }

/-- The first request is greeted, and the answer to what there is of the second finds the end. -/
theorem fails_only_by_found_end_frail :
    let run := serve greeting 8 (Pump.stream frailEngine) 512 .head {} frailStream 0
    (frailEngine.Finite (fun e => e.1.length) ∧
      frailStream.transport.OnlyFaults (·.isLoss = true) ∧
      3 * frailStream.stock (fun e => e.1.length) + 1 < 512 ∧ ∀ event ∈ run.events, event.IsPlain) ∧
    run.requests.length = 1 ∧ run.outcome = some (.error (.stream .ended)) ∧
    ∃ data s', Pump.After frailEngine frailStream s' ∧
      (Pump.send frailEngine data s').1 = some .ended := by
  intro run
  have hlost : frailStream.transport.OnlyFaults (·.isLoss = true) := ⟨by simp [frailStream], rfl⟩
  have hsteps : 3 * frailStream.stock (fun e => e.1.length) + 1 < 512 := by decide +kernel
  have hplain : ∀ event ∈ run.events, event.IsPlain := by decide +kernel
  have houtcome : run.outcome = some (.error (.stream .ended)) := by decide +kernel
  obtain ⟨-, -, hrun⟩ :=
    fails_only_by_found_end frailEngine_finite greeting 8 frailStream hlost hsteps 0 hplain
  refine ⟨⟨frailEngine_finite, hlost, hsteps, hplain⟩, by decide +kernel, houtcome, ?_⟩
  rcases hrun with hok | ⟨htunnel, -⟩ | ⟨-, data, s', -, hafter, hsend⟩
  · cases houtcome.symm.trans hok
  · cases houtcome.symm.trans htunnel
  · exact ⟨data, s', hafter, hsend⟩

end Http

namespace Server

open Tls

def truncatedArrival : Arrival where
  transport := { items := Client.items [.write (Bytes.ofString "GET / HTTP/1.1\r\nhost")] false }

local instance truncatedRoom : Yaml.Room := .ofCalls 960

local instance truncatedKeys : Pki.KeyLibrary := .standard

def truncatedVisit : Visit Session Nat :=
  receive (Session.stack { verdicts := fun _ _ _ => [] })
    (httpHandler Session.engine (Http.canned [.echo]) 16 fun _ => 1000) none
    (.secured (.fixed requestingPolicy)) {} 0 0 truncatedArrival

def truncatedStream? : Option (Pump Session) :=
  match truncatedVisit.given? with
  | some (.pumped s) => some s
  | _ => none

def truncatedRun (s : Pump Session) : Http.Run (Pump Session) Nat :=
  Http.serve (Http.canned [.echo]) 16 (Pump.stream Session.engine) 1000 .head {} s 0

/-- The handler answers what there is of the request, its send finds the end of the stream, and the
handler fails with that: the client has crashed it, on a transport that has only ended. -/
theorem handler_crashed_by_lost_client :
    truncatedArrival.transport.OnlyFaults (·.isLoss = true) ∧
    (∃ s, truncatedStream? = some s ∧ (truncatedRun s).outcome = some (.error (.stream .ended)) ∧
      (truncatedRun s).requests = [] ∧
      (truncatedRun s).conversation =
        [.sendFailed (Http.refusalHead Http.Peer.unknown .cutOff) .ended]) ∧
    truncatedVisit.outcome = .error (.inr (.stream .ended)) ∧
    connectionRecord 1 .error "handler thrown an unhandled exception:" (some (.stream .ended)) ∈
      truncatedVisit.records := by
  have hlost : truncatedArrival.transport.OnlyFaults (·.isLoss = true) :=
    ⟨by simp [truncatedArrival, Client.items, Client.Move.item], rfl⟩
  have hgiven : truncatedStream?.isSome = true := by decide +kernel
  have hrun : (truncatedStream?.map fun s =>
      ((truncatedRun s).outcome, (truncatedRun s).requests, (truncatedRun s).conversation)) =
        some (some (.error (.stream .ended)), [],
          [.sendFailed (Http.refusalHead Http.Peer.unknown .cutOff) .ended]) := by
    decide +kernel
  obtain ⟨s, hs⟩ := Option.isSome_iff_exists.1 hgiven
  rw [hs] at hrun
  obtain ⟨houtcome, hrequests, hconversation⟩ := Prod.mk.inj (Option.some.inj hrun) |>.imp_right
    Prod.mk.inj
  exact ⟨hlost, ⟨s, hs, houtcome, hrequests, hconversation⟩, by decide +kernel, by decide +kernel⟩

end Server

end TlsGate
