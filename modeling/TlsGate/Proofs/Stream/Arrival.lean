import TlsGate.Stream.Script

/-!
What a scripted transport is going to give. Bytes that arrive in pieces are received piece by piece,
or in parts of pieces, and nothing of them is lost.
-/

set_option autoImplicit false
set_option relaxedAutoImplicit false

namespace TlsGate.Script

/-- A transport gives bytes, in some pieces, before other items. -/
def Arrives (s : Script) (b : Bytes) (others : List ScriptItem) : Prop :=
  ∃ cut : List Bytes, (∀ x ∈ cut, x ≠ []) ∧ s.items = cut.map .data ++ others ∧ cut.flatten = b

theorem arrives_cut {s : Script} {cut : List Bytes} (hcut : ∀ x ∈ cut, x ≠ [])
    (hitems : s.items = cut.map .data) : s.Arrives cut.flatten [] :=
  ⟨cut, hcut, by rw [hitems, List.append_nil], rfl⟩

namespace Arrives

variable {s t : Script} {b : Bytes} {others : List ScriptItem}

theorem congr (h : s.Arrives b others) (hitems : t.items = s.items) : t.Arrives b others := by
  rwa [Arrives, hitems]

theorem items_of_nil (h : s.Arrives [] others) : s.items = others := by
  obtain ⟨cut, hcut, hitems, hflat⟩ := h
  cases cut with
  | nil => exact hitems
  | cons piece cut =>
    have hpiece := (List.append_eq_nil_iff.1 hflat).1
    exact absurd hpiece (hcut piece List.mem_cons_self)

theorem receive {most : Nat} (hmost : 0 < most) (h : s.Arrives b others) (hb : b ≠ []) :
    ∃ data rest, (Script.receive most s).1 = .ok data ∧ data ≠ [] ∧ data ++ rest = b ∧
      (Script.receive most s).2.Arrives rest others := by
  obtain ⟨cut, hcut, hitems, rfl⟩ := h
  cases cut with
  | nil => exact absurd rfl hb
  | cons piece cut =>
    obtain ⟨x, tail, rfl⟩ := List.exists_cons_of_ne_nil (hcut piece List.mem_cons_self)
    have htail : ∀ y ∈ cut, y ≠ [] := fun y hy => hcut y (List.mem_cons_of_mem _ hy)
    obtain ⟨k, rfl⟩ : ∃ k, most = k + 1 := ⟨most - 1, by omega⟩
    have hitems : s.items = .data (x :: tail) :: (cut.map .data ++ others) := hitems
    simp only [Script.receive, hitems]
    by_cases hle : (x :: tail).length ≤ k + 1
    · refine ⟨(x :: tail).take (k + 1), cut.flatten, rfl, by simp, ?_, cut, htail, ?_, rfl⟩
      · rw [List.take_of_length_le hle, List.flatten_cons]
      · rw [if_pos hle]
    · refine ⟨(x :: tail).take (k + 1), (x :: tail).drop (k + 1) ++ cut.flatten, rfl, by simp, ?_,
        (x :: tail).drop (k + 1) :: cut, ?_, ?_, rfl⟩
      · rw [List.flatten_cons, ← List.append_assoc, List.take_append_drop]
      · intro y hy
        rcases List.mem_cons.1 hy with rfl | hy
        · simp only [ne_eq, List.drop_eq_nil_iff]
          omega
        · exact htail y hy
      · rw [if_neg hle]
        rfl

end Arrives

end TlsGate.Script
