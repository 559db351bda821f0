import TlsGate.Stream.Basic

/-!
A transport that follows a script: what each receive gives is fixed beforehand, and so is the send
from which on sending fails. It records what was sent and how often it was used.
-/

set_option autoImplicit false
set_option relaxedAutoImplicit false

namespace TlsGate

/-- What one receive gives; empty data are the end of the stream. -/
inductive ScriptItem where
  | data (b : Bytes)
  | fault (f : StreamFault)
  deriving DecidableEq, Repr

/-- A scripted transport and the record of its use. -/
structure Script where
  items : List ScriptItem := []
  /-- How many more sends are accepted, if there is a limit. -/
  sendsLeft : Option Nat := none
  sendFault : StreamFault := .broken .lost
  /-- Accepted data, the last first. -/
  sent : List Bytes := []
  receives : Nat := 0
  closes : Nat := 0
  deriving DecidableEq, Repr

namespace Script

/-- Receives the next item, or as much of it as is asked for. -/
def receive (most : Nat) (s : Script) : Except StreamFault Bytes × Script :=
  let s := { s with receives := s.receives + 1 }
  match s.items with
  | [] => (.error .ended, s)
  | .fault f :: items => (.error f, { s with items := items })
  | .data [] :: items => (.error .ended, { s with items := items })
  | .data b :: items =>
    (.ok (b.take most),
      { s with items := if b.length ≤ most then items else .data (b.drop most) :: items })

def send (data : Bytes) (s : Script) : Option StreamFault × Script :=
  match s.sendsLeft with
  | some 0 => (some s.sendFault, s)
  | left => (none, { s with sendsLeft := left.map (· - 1), sent := data :: s.sent })

def close (s : Script) : Script := { s with closes := s.closes + 1 }

def stream : ByteStream Script := ⟨receive, send⟩

def pieces (s : Script) : List Bytes := s.sent.reverse

def weight : ScriptItem → Nat
  | .data b => b.length + 1
  | .fault _ => 1

def size (s : Script) : Nat := s.items.foldr (fun item n => weight item + n) 0

@[simp] theorem send_items (data : Bytes) (s : Script) : (send data s).2.items = s.items := by
  unfold send
  split <;> rfl

theorem receive_size_lt {most : Nat} {s next : Script} {b : Bytes} (hm : 0 < most)
    (h : receive most s = (.ok b, next)) : next.size < s.size := by
  unfold receive at h
  simp only at h
  split at h
  · simp at h
  · simp at h
  · simp at h
  · rename_i b' items hne hitems
    have hpos : 0 < b'.length := List.length_pos_iff.2 hne
    simp only [Prod.mk.injEq, Except.ok.injEq] at h
    obtain ⟨_, rfl⟩ := h
    simp only [size, hitems, List.foldr_cons, weight]
    split
    · omega
    · simp only [List.foldr_cons, List.length_drop]
      omega

end Script

end TlsGate
