import Mathlib.Data.List.Forall2
import TlsGate.Proofs.Tls.Conservation

/-!
The end of a transport below the stream over an engine with a callback. A call is a course of
attempts: each but the last one waits for what the transport receives, and the last one ends the
call. Once the transport has said that it has ended it is not asked again, so an attempt is the last
one: what the engine still gives is given, and what it refuses or waits for is the end of the
stream. Before that, what the engine refuses breaks the stream.
-/

set_option autoImplicit false
set_option relaxedAutoImplicit false

namespace TlsGate

namespace Script

def afterReceives (t : Script) : Nat → Script
  | 0 => t
  | n + 1 => ((t.afterReceives n).receive Tls.Pump.most).2

/-- What the next receive gives after so many others. -/
def report (t : Script) (n : Nat) : Except StreamFault Bytes :=
  ((t.afterReceives n).receive Tls.Pump.most).1

theorem receive_congr {s t : Script} (h : s.items = t.items) (most : Nat) :
    (s.receive most).1 = (t.receive most).1 ∧
      (s.receive most).2.items = (t.receive most).2.items := by
  obtain ⟨items, sendsLeft, sendFault, sent, receives, closes⟩ := s
  obtain ⟨items', sendsLeft', sendFault', sent', receives', closes'⟩ := t
  obtain rfl : items = items' := h
  simp only [receive]
  split <;> exact ⟨rfl, rfl⟩

private theorem receive_receives (most : Nat) (s : Script) :
    (s.receive most).2.receives = s.receives + 1 := by
  simp only [receive]
  split <;> rfl

theorem send_frame (data : Bytes) (s : Script) :
    (s.send data).2.receives = s.receives ∧ (s.send data).2.sendFault = s.sendFault ∧
      (s.sendsLeft = none → (s.send data).2.sendsLeft = none) := by
  unfold send
  split
  · exact ⟨rfl, rfl, id⟩
  · exact ⟨rfl, rfl, fun hnone => by rw [hnone]; rfl⟩

theorem fault_of_send {data : Bytes} {s next : Script} {fault : StreamFault}
    (h : s.send data = (some fault, next)) : fault = s.sendFault := by
  obtain ⟨rfl, hleft⟩ := eq_of_send_fault h
  simp only [send, hleft] at h
  exact (Option.some.inj (Prod.mk.inj h).1).symm

private theorem sendsLeft_succ {data : Bytes} {s next : Script} (h : s.send data = (none, next))
    (left : Nat) : next.sendsLeft = some left ↔ s.sendsLeft = some (left + 1) := by
  unfold send at h
  split at h
  · cases h
  · rename_i hpositive
    obtain ⟨-, rfl⟩ := Prod.mk.inj h
    rcases hleft : s.sendsLeft with _ | _ | more
    · simp
    · exact absurd hleft hpositive
    · simp

end Script

namespace Tls

variable {ε α : Type} {io : Engine ε}

/-- What an attempt on a stream whose transport has ended comes to. -/
def Attempt.outcome : Attempt α → Except StreamFault α
  | .done a => .ok a
  | _ => .error .ended

def Attempt.flushes : Attempt α → Bool
  | .done _ => true
  | .closed => true
  | _ => false

theorem Attempt.outcome_of_not_flushes {attempt : Attempt α} (h : attempt.flushes = false) :
    attempt.outcome = .error .ended := by
  cases attempt with
  | done a => cases h
  | _ => rfl

/-- What the engine comes to if it is asked for bytes again and again, without being fed. -/
def Engine.yields (io : Engine ε) : List Nat → ε → List (Attempt Bytes)
  | [], _ => []
  | size :: sizes, e => (io.receive size e).attempt :: io.yields sizes (io.receive size e).next

namespace Pump

/-- What receives give one after the other, however each of them ends. -/
def receiveAll (io : Engine ε) : List Nat → Pump ε → List (Except StreamFault Bytes)
  | [], _ => []
  | size :: sizes, s => (receive io size s).1 :: receiveAll io sizes (receive io size s).2

/-! ## Sending what is outgoing -/

def Overfull (s : Pump ε) : Prop :=
  ∃ left, s.transport.sendsLeft = some left ∧ left * most < s.outgoing.length

structure Flushed (s s' : Pump ε) : Prop where
  engine : s'.engine = s.engine
  ended : s'.ended = s.ended
  items : s'.transport.items = s.transport.items
  receives : s'.transport.receives = s.transport.receives
  sendFault : s'.transport.sendFault = s.transport.sendFault
  isOpen : s.transport.sendsLeft = none → s'.transport.sendsLeft = none
  transfers : ∃ pieces : List Bytes, s'.transfers = s.transfers ++ pieces.map .sent

theorem flush_flushed (s : Pump ε) : Flushed s (flush s).2 := by
  fun_induction flush s with
  | case1 s hs => exact ⟨rfl, rfl, rfl, rfl, rfl, id, [], (List.append_nil _).symm⟩
  | case2 s hs piece s' fault transport hsend =>
    obtain ⟨rfl, -⟩ := Script.eq_of_send_fault hsend
    exact ⟨rfl, rfl, rfl, rfl, rfl, id, [], (List.append_nil _).symm⟩
  | case3 s hs piece s' transport hsend ih =>
    have hframe := Script.send_frame piece s.transport
    have hitems := Script.send_items piece s.transport
    rw [hsend] at hframe hitems
    obtain ⟨hreceives, hfault, hopen⟩ := hframe
    obtain ⟨pieces, hpieces⟩ := ih.transfers
    refine ⟨ih.engine, ih.ended, ih.items.trans hitems, ih.receives.trans hreceives,
      ih.sendFault.trans hfault, fun hnone => ih.isOpen (hopen hnone), piece :: pieces, ?_⟩
    rw [hpieces]
    simp [transfers]

theorem flush_fault_iff (s : Pump ε) (fault : StreamFault) :
    (flush s).1 = some fault ↔ s.Overfull ∧ fault = s.transport.sendFault := by
  fun_induction flush s with
  | case1 s hs =>
    simp [Overfull, hs]
  | case2 s hs piece s' fault' transport hsend =>
    have hpositive := List.length_pos_iff.2 hs
    have hfault := Script.fault_of_send hsend
    obtain ⟨rfl, hleft⟩ := Script.eq_of_send_fault hsend
    have hoverfull : s.Overfull := ⟨0, hleft, by omega⟩
    simp [hoverfull, hfault, eq_comm]
  | case3 s hs piece s' transport hsend ih =>
    have hframe := Script.send_frame piece s.transport
    rw [hsend] at hframe
    have hsame : Overfull
        { s' with transport := transport, history := .sent piece :: s.history } ↔ s.Overfull := by
      simp only [Overfull, s', List.length_drop, Script.sendsLeft_succ hsend]
      constructor
      · rintro ⟨left, hleft, hless⟩
        exact ⟨left + 1, hleft, by rw [Nat.succ_mul]; omega⟩
      · rintro ⟨left, hleft, hless⟩
        cases left with
        | zero => exact absurd hleft (Script.sendsLeft_of_send hsend)
        | succ left =>
          rw [Nat.succ_mul] at hless
          exact ⟨left, hleft, by omega⟩
    rw [ih, hsame, hframe.2.1]

/-! ## Calls as courses of attempts -/

/-- A call gets from one attempt to another by waiting for what the transport receives. -/
inductive Waits (io : Engine ε) (attempt : ε → Step ε α) : Pump ε → Pump ε → Prop
  | here (s : Pump ε) : Waits io attempt s s
  | fed {s flushed fed moment : Pump ε} : (attempt s.engine).attempt = .wantRead →
      s.ended = false → flush (s.attempted attempt) = (none, flushed) →
      feed io flushed = (none, fed) → Waits io attempt fed moment → Waits io attempt s moment

inductive Ends (io : Engine ε) (attempt : ε → Step ε α) (s : Pump ε) :
    Except StreamFault α → Pump ε → Prop
  | done {a : α} {next : Pump ε} : (attempt s.engine).attempt = .done a →
      flush (s.attempted attempt) = (none, next) → Ends io attempt s (.ok a) next
  | closed {next : Pump ε} : (attempt s.engine).attempt = .closed →
      flush (s.attempted attempt) = (none, next) → Ends io attempt s (.error .ended) next
  | refused {fault : StreamFault} {next : Pump ε} :
      (s.ended = true → (attempt s.engine).attempt.flushes = true) →
      (∀ f, (attempt s.engine).attempt ≠ .failed f) →
      flush (s.attempted attempt) = (some fault, next) → Ends io attempt s (.error fault) next
  | failed {fault : EngineFault} : (attempt s.engine).attempt = .failed fault →
      s.ended = false → Ends io attempt s (.error (.broken (.engine fault.message)))
        (s.attempted attempt)
  | spent : (attempt s.engine).attempt.flushes = false → s.ended = true →
      Ends io attempt s (.error .ended) (s.attempted attempt)
  | lost {fault : StreamFault} {flushed next : Pump ε} :
      (attempt s.engine).attempt = .wantRead → s.ended = false →
      flush (s.attempted attempt) = (none, flushed) → feed io flushed = (some fault, next) →
      Ends io attempt s (.error fault) next

variable {attempt : ε → Step ε α} {s s' moment : Pump ε} {result : Except StreamFault α}

private theorem Waits.call_eq (h : Waits io attempt s moment) :
    call io attempt s = call io attempt moment := by
  induction h with
  | here s => rfl
  | fed hstep hs hflush hfeed later ih =>
    rw [call_of_wantRead hstep (by simp [hs]), hflush]
    dsimp only
    rw [hfeed]
    exact ih

theorem call_course (io : Engine ε) (attempt : ε → Step ε α) (s : Pump ε) :
    ∃ moment, Waits io attempt s moment ∧
      Ends io attempt moment (call io attempt s).1 (call io attempt s).2 := by
  fun_induction call io attempt s with
  | case1 s step s' a hstep fault flushed hflush =>
    have hstep : (attempt s.engine).attempt = .done a := hstep
    exact ⟨s, .here s, .refused (fun _ => by rw [hstep]; rfl) (by simp [hstep]) hflush⟩
  | case2 s step s' a hstep flushed hflush => exact ⟨s, .here s, .done hstep hflush⟩
  | case3 s step s' hstep fault flushed hflush =>
    have hstep : (attempt s.engine).attempt = .closed := hstep
    exact ⟨s, .here s, .refused (fun _ => by rw [hstep]; rfl) (by simp [hstep]) hflush⟩
  | case4 s step s' hstep flushed hflush => exact ⟨s, .here s, .closed hstep hflush⟩
  | case5 s step s' fault hstep hs =>
    have hstep : (attempt s.engine).attempt = .failed fault := hstep
    exact ⟨s, .here s, .spent (by rw [hstep]; rfl) hs⟩
  | case6 s step s' fault hstep hs =>
    exact ⟨s, .here s, .failed hstep (Bool.eq_false_iff.2 hs)⟩
  | case7 s step s' hstep hs =>
    have hstep : (attempt s.engine).attempt = .wantRead := hstep
    exact ⟨s, .here s, .spent (by rw [hstep]; rfl) hs⟩
  | case8 s step s' hstep hs fault flushed hflush =>
    have hstep : (attempt s.engine).attempt = .wantRead := hstep
    exact ⟨s, .here s, .refused (fun hended => absurd hended hs) (by simp [hstep]) hflush⟩
  | case9 s step s' hstep hs flushed hflush fault fed hfeed =>
    exact ⟨s, .here s, .lost hstep (Bool.eq_false_iff.2 hs) hflush hfeed⟩
  | case10 s step s' hstep hs flushed hflush fed hfeed ih =>
    obtain ⟨moment, hwaits, hends⟩ := ih
    exact ⟨moment, .fed hstep (Bool.eq_false_iff.2 hs) hflush hfeed hwaits, hends⟩

private theorem Waits.eq_of_ended (h : Waits io attempt s moment) (hs : s.ended = true) :
    moment = s := by
  cases h with
  | here => rfl
  | fed _ hs' =>
    rw [hs] at hs'
    cases hs'

/-! ## What calls keep -/

structure Invariant (io : Engine ε) (attempt : ε → Step ε α) (P : Pump ε → Prop) : Prop where
  attempted : ∀ s, P s → P (s.attempted attempt)
  flushed : ∀ s, P s → P (flush s).2
  fed : ∀ s, s.ended = false → P s → P (feed io s).2

section Invariant

variable {P : Pump ε → Prop} {flushed : Pump ε} {fault : Option StreamFault}

private theorem Invariant.of_flush (hk : Invariant io attempt P) (hs : P s)
    (hflush : flush (s.attempted attempt) = (fault, flushed)) : P flushed := by
  have hkept := hk.flushed _ (hk.attempted s hs)
  rw [hflush] at hkept
  exact hkept

private theorem Invariant.of_feed (hk : Invariant io attempt P) (hs : P s)
    (hended : s.ended = false)
    (hflush : flush (s.attempted attempt) = (none, flushed))
    (hfeed : feed io flushed = (fault, s')) : P s' := by
  have hflushed := flush_flushed (s.attempted attempt)
  rw [hflush] at hflushed
  have hkept := hk.fed flushed (hflushed.ended.trans hended) (hk.of_flush hs hflush)
  rw [hfeed] at hkept
  exact hkept

theorem Waits.keeps (h : Waits io attempt s moment) (hk : Invariant io attempt P) (hs : P s) :
    P moment := by
  induction h with
  | here s => exact hs
  | fed hstep hended hflush hfeed later ih => exact ih (hk.of_feed hs hended hflush hfeed)

theorem Ends.keeps (h : Ends io attempt s result s') (hk : Invariant io attempt P) (hs : P s) :
    P s' := by
  cases h with
  | done hstep hflush => exact hk.of_flush hs hflush
  | closed hstep hflush => exact hk.of_flush hs hflush
  | refused hstep hfailed hflush => exact hk.of_flush hs hflush
  | failed hstep hended => exact hk.attempted s hs
  | spent hstep hended => exact hk.attempted s hs
  | lost hstep hended hflush hfeed => exact hk.of_feed hs hended hflush hfeed

theorem call_keeps (hk : Invariant io attempt P) (hs : P s) : P (call io attempt s).2 := by
  obtain ⟨moment, hwaits, hends⟩ := call_course io attempt s
  exact hends.keeps hk (hwaits.keeps hk hs)

theorem send_keeps (hk : ∀ data, Invariant io (io.send data) P) (data : Bytes) (hs : P s) :
    P (send io data s).2 := by
  fun_induction send io data s with
  | case1 s => exact hs
  | case2 data s hne fault next hcall =>
    have hkept := call_keeps (hk data) hs
    rw [hcall] at hkept
    exact hkept
  | case3 data s hne taken next hcall ih =>
    have hkept := call_keeps (hk data) hs
    rw [hcall] at hkept
    exact ih hkept

end Invariant

/-! ## What the transport is asked for -/

/-- The transport has been asked so many times. It has ended just if one of its reports says so, and
that is the last one. -/
structure Heard (s : Pump ε) (t : Script) (n : Nat) : Prop where
  receives : s.transport.receives = t.receives + n
  items : s.transport.items = (t.afterReceives n).items
  ended : s.ended = true ↔ ∃ k < n, t.report k = .error .ended
  last : ∀ k < n, t.report k = .error .ended → k + 1 = n

section Heard

variable {t : Script} {n : Nat}

theorem Heard.start (e : ε) (t : Script) : Heard { engine := e, transport := t } t 0 where
  receives := rfl
  items := rfl
  ended := by simp
  last := by simp

theorem Heard.attempted (h : s.Heard t n) (attempt : ε → Step ε α) :
    (s.attempted attempt).Heard t n :=
  ⟨h.receives, h.items, h.ended, h.last⟩

theorem Heard.flushed (h : s.Heard t n) : (flush s).2.Heard t n := by
  have hflushed := flush_flushed s
  exact ⟨hflushed.receives.trans h.receives, hflushed.items.trans h.items,
    hflushed.ended ▸ h.ended, h.last⟩

theorem Heard.fed (h : s.Heard t n) (hs : s.ended = false) (io : Engine ε) :
    (feed io s).2.Heard t (n + 1) := by
  have hnone : ∀ k < n, t.report k ≠ .error .ended := by
    intro k hk hreport
    have hended := h.ended.2 ⟨k, hk, hreport⟩
    rw [hs] at hended
    cases hended
  obtain ⟨hreport, hitems⟩ := Script.receive_congr h.items most
  have hcount : (s.transport.receive most).2.receives = t.receives + (n + 1) := by
    rw [Script.receive_receives, h.receives, Nat.add_assoc]
  have hlast : ∀ k < n + 1, t.report k = .error .ended → k + 1 = n + 1 := by
    intro k hk hended
    by_cases hkn : k < n
    · exact absurd hended (hnone k hkn)
    · omega
  have hended : (∃ k < n + 1, t.report k = .error .ended) ↔
      (s.transport.receive most).1 = .error .ended := by
    rw [hreport]
    constructor
    · rintro ⟨k, hk, hended⟩
      obtain rfl : k = n := Nat.succ.inj (hlast k hk hended)
      exact hended
    · intro hended
      exact ⟨n, Nat.lt_succ_self n, hended⟩
  simp only [feed]
  split <;> rename_i hreceive <;> rw [hreceive] at hitems hcount hended
  · exact ⟨hcount, hitems, iff_of_true rfl (hended.2 rfl), hlast⟩
  · rename_i hfault
    refine ⟨hcount, hitems, iff_of_false (by simp [hs]) fun hreported => ?_, hlast⟩
    exact hfault (Except.error.inj (hended.1 hreported))
  · refine ⟨hcount, hitems, iff_of_false (by simp [hs]) fun hreported => ?_, hlast⟩
    cases hended.1 hreported

private theorem heard_invariant (io : Engine ε) (attempt : ε → Step ε α) (t : Script) :
    Invariant io attempt fun s => ∃ n, s.Heard t n where
  attempted := by
    rintro s ⟨n, hheard⟩
    exact ⟨n, hheard.attempted attempt⟩
  flushed := by
    rintro s ⟨n, hheard⟩
    exact ⟨n, hheard.flushed⟩
  fed := by
    rintro s hs ⟨n, hheard⟩
    exact ⟨n + 1, hheard.fed hs io⟩

end Heard

/-! ## Attempts after the end -/

/-- The transport refuses what is outgoing after an attempt. -/
def Refuses (attempt : ε → Step ε α) (s : Pump ε) : Prop :=
  (attempt s.engine).attempt.flushes = true ∧ (s.attempted attempt).Overfull

theorem not_refuses (h : (attempt s.engine).attempt.flushes = false) : ¬ s.Refuses attempt := by
  rintro ⟨hflushes, -⟩
  rw [h] at hflushes
  cases hflushes

/-- A call makes one attempt and does not wait: apart from what the engine emits, there are only
sends. It ends with what the attempt comes to, unless the transport refuses what is outgoing. -/
structure Once (attempt : ε → Step ε α) (s : Pump ε) (result : Except StreamFault α)
    (s' : Pump ε) : Prop where
  engine : s'.engine = (attempt s.engine).next
  transfers : ∃ pieces : List Bytes,
    s'.transfers = s.transfers ++ .emitted (attempt s.engine).emitted :: pieces.map .sent
  ended : s'.ended = true
  sendFault : s'.transport.sendFault = s.transport.sendFault
  isOpen : s.transport.sendsLeft = none → s'.transport.sendsLeft = none
  outcome : ¬ s.Refuses attempt → result = (attempt s.engine).attempt.outcome
  refused : s.Refuses attempt → result = .error s.transport.sendFault

private theorem transfers_attempted (attempt : ε → Step ε α) (s : Pump ε) :
    (s.attempted attempt).transfers = s.transfers ++ [.emitted (attempt s.engine).emitted] := by
  simp [attempted, transfers]

private theorem not_overfull_of_flush {s flushed : Pump ε} (h : flush s = (none, flushed)) :
    ¬ s.Overfull := by
  intro hoverfull
  have hfault := (flush_fault_iff s s.transport.sendFault).2 ⟨hoverfull, rfl⟩
  rw [h] at hfault
  cases hfault

private theorem Once.of_flushed {next : Pump ε} (hs : s.ended = true)
    (hnext : Flushed (s.attempted attempt) next)
    (houtcome : ¬ s.Refuses attempt → result = (attempt s.engine).attempt.outcome)
    (hrefused : s.Refuses attempt → result = .error s.transport.sendFault) :
    Once attempt s result next where
  engine := hnext.engine
  transfers := by
    obtain ⟨pieces, hpieces⟩ := hnext.transfers
    rw [hpieces, transfers_attempted, List.append_assoc]
    exact ⟨pieces, rfl⟩
  ended := hnext.ended.trans hs
  sendFault := hnext.sendFault
  isOpen := hnext.isOpen
  outcome := houtcome
  refused := hrefused

theorem Ends.once (h : Ends io attempt s result s') (hs : s.ended = true) :
    Once attempt s result s' := by
  have hflushed := flush_flushed (s.attempted attempt)
  have hstill : Flushed (s.attempted attempt) (s.attempted attempt) :=
    ⟨rfl, rfl, rfl, rfl, rfl, id, [], (List.append_nil _).symm⟩
  cases h with
  | done hstep hflush =>
    rw [hflush] at hflushed
    refine .of_flushed hs hflushed (fun _ => by rw [hstep]; rfl) fun hrefuses => ?_
    exact absurd hrefuses.2 (not_overfull_of_flush hflush)
  | closed hstep hflush =>
    rw [hflush] at hflushed
    refine .of_flushed hs hflushed (fun _ => by rw [hstep]; rfl) fun hrefuses => ?_
    exact absurd hrefuses.2 (not_overfull_of_flush hflush)
  | @refused fault _ hstep hfailed hflush =>
    obtain ⟨hoverfull, hfault⟩ :=
      (flush_fault_iff (s.attempted attempt) fault).1 (congrArg Prod.fst hflush)
    rw [hflush] at hflushed
    refine .of_flushed hs hflushed (fun hnot => absurd ⟨hstep hs, hoverfull⟩ hnot) fun _ => ?_
    exact congrArg Except.error hfault
  | failed hstep hended =>
    rw [hs] at hended
    cases hended
  | spent hstep hended =>
    refine .of_flushed hs hstill (fun _ => (Attempt.outcome_of_not_flushes hstep).symm) ?_
    exact fun hrefuses => absurd hrefuses (not_refuses hstep)
  | lost hstep hended =>
    rw [hs] at hended
    cases hended

theorem call_once (io : Engine ε) (attempt : ε → Step ε α) (hs : s.ended = true) :
    Once attempt s (call io attempt s).1 (call io attempt s).2 := by
  obtain ⟨moment, hwaits, hends⟩ := call_course io attempt s
  obtain rfl := hwaits.eq_of_ended hs
  exact hends.once hs

private theorem receiveAll_yields (io : Engine ε) (sizes : List Nat) (hs : s.ended = true) :
    List.Forall₂
      (fun attempt result => result = attempt.outcome ∨
        attempt.flushes = true ∧ s.transport.sendsLeft ≠ none ∧
          result = .error s.transport.sendFault)
      (io.yields sizes s.engine) (receiveAll io sizes s) := by
  induction sizes generalizing s with
  | nil => exact .nil
  | cons size sizes ih =>
    have honce : Once (io.receive size) s (receive io size s).1 (receive io size s).2 :=
      call_once io (io.receive size) hs
    refine .cons ?_ ?_
    · by_cases hrefuses : s.Refuses (io.receive size)
      · obtain ⟨left, hleft, -⟩ := hrefuses.2
        have hlimit : s.transport.sendsLeft ≠ none := by
          intro hnone
          cases hnone.symm.trans hleft
        exact .inr ⟨hrefuses.1, hlimit, honce.refused hrefuses⟩
      · exact .inl (honce.outcome hrefuses)
    · have hrest := ih honce.ended
      rw [honce.engine, honce.sendFault] at hrest
      refine hrest.imp fun attempt result hresult => hresult.imp_right fun h => ?_
      exact ⟨h.1, fun hnone => h.2.1 (honce.isOpen hnone), h.2.2⟩

private theorem receiveAll_eq (io : Engine ε) (sizes : List Nat) (hs : s.ended = true)
    (hopen : s.transport.sendsLeft = none) :
    receiveAll io sizes s = (io.yields sizes s.engine).map Attempt.outcome := by
  have hresults := (receiveAll_yields io sizes hs).imp fun attempt result hresult =>
    show attempt.outcome = result from
      (hresult.resolve_right fun h => h.2.1 hopen).symm
  rw [← List.forall₂_map_left_iff, List.forall₂_eq_eq_eq] at hresults
  exact hresults.symm

/-! ## Handshakes -/

private theorem handshake_ne_ended (io : Engine ε) (s : Pump ε) :
    (handshake io s).1 ≠ some .ended := by
  unfold handshake
  split
  · simp
  · simp
  · rename_i hne hcall
    intro heq
    exact hne (Option.some.inj heq)

private theorem handshake_cut {next : Pump ε} (h : call io io.handshake s = (.error .ended, next)) :
    handshake io s = (some (.broken .handshakeCut), next) := by
  rw [handshake, h]

private theorem handshake_cut_of_ended (hwaits : Waits io io.handshake s moment)
    (hended : moment.ended = true) (hopen : ¬ moment.Refuses io.handshake)
    (hdone : (io.handshake moment.engine).attempt ≠ .done ()) :
    (handshake io s).1 = some (.broken .handshakeCut) := by
  have honce := call_once io io.handshake hended
  have hresult : (call io io.handshake s).1 = .error .ended := by
    rw [hwaits.call_eq, honce.outcome hopen]
    cases hattempt : (io.handshake moment.engine).attempt with
    | done a => exact absurd hattempt hdone
    | _ => rfl
  exact congrArg Prod.fst (handshake_cut (Prod.ext hresult rfl))

end Pump

/-! ## Whole courses -/

section Operations

variable {P : Pump ε → Prop} {s : Pump ε}
variable (hk : ∀ (β : Type) (attempt : ε → Step ε β), Pump.Invariant io attempt P)
include hk

private theorem Operation.perform_keeps (operation : Operation) (hs : P s) :
    P (operation.perform io s).2 := by
  cases operation with
  | handshake =>
    have hkept := Pump.call_keeps (hk Unit io.handshake) hs
    simp only [perform, Pump.handshake]
    split <;> rename_i hcall <;> rw [hcall] at hkept <;> exact hkept
  | receive size =>
    have hkept := Pump.call_keeps (hk Bytes (io.receive size)) hs
    simp only [perform, Pump.receive]
    split <;> rename_i hcall <;> rw [hcall] at hkept <;> exact hkept
  | send data => exact Pump.send_keeps (fun data => hk Nat (io.send data)) data hs

private theorem performAll_keeps (operations : List Operation) (hs : P s) :
    P (performAll io operations s) := by
  induction operations generalizing s with
  | nil => exact hs
  | cons operation rest ih => exact ih (operation.perform_keeps hk hs)

end Operations

/-- The end of the transport of a stream over an engine with a callback, whatever the engine does
and the transport gives and takes. Over any operations, the transport is not asked again once it has
said that it has ended. A call that makes an attempt when the transport has ended does not wait
after it; and one whose attempt fails before that breaks the stream, which says what the engine
says. Receives after the end give what the engine yields, in order, and the end for the rest, as
long as the transport takes what the engine emits. A handshake never ends with the end of the
transport: it is cut by it, and says so. -/
theorem end_of_transport_final (io : Engine ε) (first : ε) (t : Script) :
    (∀ operations, ∃ n, (performAll io operations { engine := first, transport := t }).Heard t n) ∧
    (∀ (attempt : ε → Step ε α) (s moment : Pump ε), Pump.Waits io attempt s moment →
      let (result, s') := Pump.call io attempt s
      (moment.ended = true → Pump.Once attempt moment result s') ∧
      (∀ fault, moment.ended = false → (attempt moment.engine).attempt = .failed fault →
        ∃ why, result = .error (.broken why) ∧
          why.message? = some ("TLS error: " ++ fault.message))) ∧
    (∀ (s : Pump ε) (sizes : List Nat), s.ended = true →
      List.Forall₂
        (fun attempt result => result = attempt.outcome ∨
          attempt.flushes = true ∧ s.transport.sendsLeft ≠ none ∧
            result = .error s.transport.sendFault)
        (io.yields sizes s.engine) (Pump.receiveAll io sizes s) ∧
      (s.transport.sendsLeft = none →
        Pump.receiveAll io sizes s = (io.yields sizes s.engine).map Attempt.outcome)) ∧
    (∀ s : Pump ε, (Pump.handshake io s).1 ≠ some .ended ∧
      ∀ moment, Pump.Waits io io.handshake s moment → moment.ended = true →
        ¬ moment.Refuses io.handshake → (io.handshake moment.engine).attempt ≠ .done () →
          ∃ why, (Pump.handshake io s).1 = some (.broken why) ∧
            why.message? = some "Connection closed during a TLS handshake.") := by
  refine ⟨fun operations => ?_, fun attempt s moment hwaits => ⟨fun hended => ?_, ?_⟩, ?_, ?_⟩
  · exact performAll_keeps (fun _ attempt => Pump.heard_invariant io attempt t) operations
      ⟨0, .start first t⟩
  · rw [hwaits.call_eq]
    exact Pump.call_once io attempt hended
  · intro fault hrunning hfailed
    rw [hwaits.call_eq, Pump.call_of_failed hfailed, if_neg (by simp [hrunning])]
    exact ⟨.engine fault.message, rfl, rfl⟩
  · intro s sizes hended
    exact ⟨Pump.receiveAll_yields io sizes hended, Pump.receiveAll_eq io sizes hended⟩
  · intro s
    refine ⟨Pump.handshake_ne_ended io s, fun moment hwaits hended hopen hdone => ?_⟩
    exact ⟨.handshakeCut, Pump.handshake_cut_of_ended hwaits hended hopen hdone, rfl⟩

def hoardingEngine : Engine (Bytes × Bool) where
  handshake e := ⟨.done (), [1], e⟩
  receive size e :=
    if e.2 = false then ⟨.wantRead, [], e⟩
    else if e.1 = [] then ⟨.failed .unexpectedEnd, [], e⟩
    else ⟨.done (e.1.take size), [], (e.1.drop size, true)⟩
  send data e := ⟨.done data.length, data, e⟩
  feed b e := (e.1 ++ b, e.2)
  finish e := (e.1, true)

def hoardingStream : Pump (Bytes × Bool) :=
  performAll hoardingEngine [.handshake, .receive 1]
    { engine := ([], false), transport := partedTransport }

/-- What the engine still has is given in two pieces, and then the end; the transport has been asked
three times. -/
theorem end_of_transport_final_hoarding :
    hoardingStream.ended = true ∧ hoardingStream.transport.sendsLeft = none ∧
    Pump.receiveAll hoardingEngine [1, 5, 5] hoardingStream = [.ok [8], .ok [9], .error .ended] ∧
    hoardingStream.transport.receives = 3 ∧ ∃ n, hoardingStream.Heard partedTransport n := by
  obtain ⟨hheard, -, hreceives, -⟩ :=
    end_of_transport_final (α := Bytes) hoardingEngine ([], false) partedTransport
  have hended : hoardingStream.ended = true := by decide +kernel
  have hopen : hoardingStream.transport.sendsLeft = none := by decide +kernel
  have hyields : hoardingEngine.yields [1, 5, 5] hoardingStream.engine =
      [.done [8], .done [9], .failed .unexpectedEnd] := by decide +kernel
  have hgiven := (hreceives hoardingStream [1, 5, 5] hended).2 hopen
  rw [hyields] at hgiven
  exact ⟨hended, hopen, hgiven, by decide +kernel, hheard [.handshake, .receive 1]⟩

end Tls

end TlsGate
