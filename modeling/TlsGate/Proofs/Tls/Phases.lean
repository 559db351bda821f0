import TlsGate.Proofs.Tls.Mediation
import TlsGate.Tls.Session

/-!
The phases of an engine. Only a handshake gets it further: it greets a client to whom it has an
answer, and establishes a connection with one that has been greeted and is admitted. So what is kept
in these two moves and by a failure is kept however the engine is driven.
-/

set_option autoImplicit false
set_option relaxedAutoImplicit false

namespace TlsGate.Tls.Session

structure IsKept (P : Session → Prop) : Prop where
  bytes : ∀ {s : Session} (input : Bytes) (inputEnded : Bool) (plain : Bytes), P s →
    P { s with input := input, inputEnded := inputEnded, plain := plain }
  failed : ∀ {s : Session}, P s → P { s with phase := .failed }
  greeted : ∀ {s : Session}, P s → s.greeting?.isSome → P { s with phase := .greeted }
  established : ∀ {s : Session}, P s → s.phase = .greeted → s.admits = true →
    P { s with phase := .established }

section Kept

variable {α : Type} {P : Session → Prop} {s : Session}

private theorem await_keeps (hP : IsKept P) (h : P s) : P (s.await : Step Session α).next := by
  unfold await
  split
  · exact h
  · split
    · exact h
    · exact hP.failed h

private theorem conclude_keeps (hP : IsKept P) (h : P s) (hphase : s.phase = .greeted) :
    P s.conclude.next := by
  unfold conclude
  split
  · exact await_keeps hP h
  · exact hP.failed h
  · rename_i rest _
    split
    · exact hP.failed h
    · split
      · exact hP.failed h
      · rename_i hadmits
        have hadmitted : s.admits = true := by simpa using hadmits
        exact hP.bytes rest s.inputEnded s.plain (hP.established h hphase hadmitted)

private theorem handshake_keeps (hP : IsKept P) (h : P s) : P s.handshake.next := by
  unfold handshake
  split
  · exact h
  · exact h
  · rename_i hphase
    exact conclude_keeps hP h hphase
  · split
    · exact await_keeps hP h
    · exact hP.failed h
    · rename_i rest _
      split
      · exact hP.failed h
      · split
        · exact hP.failed h
        · rename_i hanswer
          have hsome : s.greeting?.isSome := by
            rw [← Option.not_isNone, Bool.not_eq_true', ← Bool.not_eq_true]
            exact hanswer
          exact conclude_keeps hP (hP.bytes rest s.inputEnded s.plain (hP.greeted h hsome)) rfl

private theorem receive_keeps (hP : IsKept P) (size : Nat) (h : P s) : P (s.receive size).next := by
  fun_induction receive size s with
  | case1 => exact h
  | case2 s => exact hP.bytes s.input s.inputEnded (s.plain.drop size) h
  | case3 => exact await_keeps hP h
  | case4 => exact hP.failed h
  | case5 => exact hP.failed h
  | case6 => exact h
  | case7 s _ _ _ _ rest _ _ _ _ ih => exact ih (hP.bytes rest s.inputEnded s.plain h)
  | case8 s _ _ _ _ rest _ _ content =>
    exact hP.bytes rest s.inputEnded (content.drop size) h

private theorem send_next (data : Bytes) (s : Session) : (s.send data).next = s := by
  unfold send
  split <;> rfl

theorem keeps_of_driven (hP : IsKept P) {first e : Session} {emitted : Bytes} (h : P first)
    (hd : engine.Driven first emitted e) : P e := by
  induction hd with
  | start => exact h
  | handshake _ ih => exact handshake_keeps hP ih
  | receive size _ ih => exact receive_keeps hP size ih
  | @send _ e data _ ih =>
    have hnext : (engine.send data e).next = e := send_next data e
    rw [hnext]
    exact ih
  | @feed _ e arrived _ ih => exact hP.bytes (e.input ++ arrived) e.inputEnded e.plain ih
  | @finish _ e _ ih => exact hP.bytes e.input true e.plain ih

end Kept

/-! ## Complete handshakes -/

section Complete

variable {α : Type} {s : Session}

private theorem await_ne_done (a : α) : (s.await : Step Session α).attempt ≠ .done a := by
  unfold await
  split
  · nofun
  · split <;> nofun

private theorem conclude_established (h : s.conclude.attempt = .done ()) :
    s.conclude.next.phase = .established := by
  unfold conclude at h ⊢
  split at h
  · exact absurd h (await_ne_done ())
  · cases h
  · split at h
    · cases h
    · split at h
      · cases h
      · rename_i hconclusion hadmits
        rw [if_neg hconclusion, if_neg hadmits]

theorem handshake_established (h : s.handshake.attempt = .done ()) :
    s.handshake.next.phase = .established := by
  unfold handshake at h ⊢
  split at h
  · assumption
  · cases h
  · exact conclude_established h
  · split at h
    · exact absurd h (await_ne_done ())
    · cases h
    · split at h
      · cases h
      · split at h
        · cases h
        · rename_i hgreeting hanswer
          rw [if_neg hgreeting, if_neg hanswer]
          exact conclude_established h

end Complete

end TlsGate.Tls.Session
