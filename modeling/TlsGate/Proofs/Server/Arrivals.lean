import Mathlib.Data.List.Forall2
import TlsGate.Server.Run

/-!
The connections of a running server. A run does nothing else that matters: its other steps change
the files, or the policy of the settings, and each connection is treated on the files of its moment,
in order up to the first that makes the process exit.
-/

set_option autoImplicit false
set_option relaxedAutoImplicit false

namespace TlsGate.Server

open Config Policy Tls

variable {ε τ : Type}

/-- The connections among steps, each with the files of its moment. -/
def arrivals : FileSystem → List Step → List (FileSystem × Arrival)
  | _, [] => []
  | fs, .arrival a :: rest => (fs, a) :: arrivals fs rest
  | fs, .edit e :: rest => arrivals (e.apply fs) rest
  | fs, .setPolicy _ :: rest => arrivals fs rest

section Runs

variable [Yaml.Room] [Pki.KeyLibrary] (stack : Stack ε) (handler : Handler ε τ)
  (protocols? : Option (List String)) (gate : Gate)

/-- Treats connections one after the other, up to the first that makes the process exit. -/
def receiveAll : List (FileSystem × Arrival) → Nat → τ → List (Visit ε τ)
  | [], _, _ => []
  | (files, a) :: rest, passed, state =>
    let visit := receive stack handler protocols? gate files passed state a
    if visit.exits then [visit] else visit :: receiveAll rest visit.passed visit.state

theorem run_visits_of_quiet {w : World τ} {s : Step}
    (h : (step stack handler protocols? gate w s).1.visit? = none) (rest : List Step) :
    (run stack handler protocols? gate (s :: rest) w).1.filterMap (·.visit?) =
      (run stack handler protocols? gate rest
        (step stack handler protocols? gate w s).2).1.filterMap (·.visit?) := by
  rw [run]
  simp only [h, Option.map_none, Option.getD_none, Bool.false_eq_true, if_false,
    List.filterMap_cons]

theorem step_setPolicy (w : World τ) (options : TlsConfig) :
    let taken := step stack handler protocols? gate w (.setPolicy options)
    taken.1.visit? = none ∧ taken.2.fs = w.fs ∧ taken.2.passed = w.passed ∧
      taken.2.state = w.state := by
  simp only [step]
  split <;> exact ⟨rfl, rfl, rfl, rfl⟩

theorem run_visits (steps : List Step) (w : World τ) :
    (run stack handler protocols? gate steps w).1.filterMap (·.visit?) =
      receiveAll stack handler protocols? gate (arrivals w.fs steps) w.passed w.state := by
  induction steps generalizing w with
  | nil => rfl
  | cons s rest ih =>
    cases s with
    | arrival a =>
      rw [arrivals, receiveAll, run]
      dsimp only [step, Option.map_some, Option.getD_some]
      split
      · rfl
      · exact congrArg (_ :: ·) (ih _)
    | edit e => exact (run_visits_of_quiet _ _ _ _ rfl rest).trans (ih _)
    | setPolicy options =>
      obtain ⟨hquiet, hfs, hpassed, hstate⟩ :=
        step_setPolicy stack handler protocols? gate w options
      rw [run_visits_of_quiet _ _ _ _ hquiet, ih, hfs, hpassed, hstate]
      rfl

theorem receiveAll_cons_zero (x : FileSystem × Arrival) (l : List (FileSystem × Arrival))
    (passed : Nat) (state : τ) :
    (receiveAll stack handler protocols? gate (x :: l) passed state)[0]? =
      some (receive stack handler protocols? gate x.1 passed state x.2) := by
  rw [receiveAll]
  split <;> rfl

theorem exists_of_receiveAll {l : List (FileSystem × Arrival)} {passed i : Nat} {state : τ}
    {visit : Visit ε τ}
    (h : (receiveAll stack handler protocols? gate l passed state)[i]? = some visit) :
    ∃ files a passed state, l[i]? = some (files, a) ∧
      visit = receive stack handler protocols? gate files passed state a := by
  induction l generalizing passed state i with
  | nil => cases h
  | cons x l ih =>
    cases i with
    | zero =>
      rw [receiveAll_cons_zero] at h
      exact ⟨x.1, x.2, passed, state, rfl, (Option.some.inj h).symm⟩
    | succ i =>
      rw [receiveAll] at h
      split at h
      · cases h
      · exact ih h

variable {stack protocols? gate} in
theorem receiveAll_congr {stack' : Stack ε} {gate' : Gate} {l l' : List (FileSystem × Arrival)}
    (h : List.Forall₂ (fun x x' => ∀ passed state,
      receive stack' handler protocols? gate' x'.1 passed state x'.2 =
        receive stack handler protocols? gate x.1 passed state x.2) l l') (passed : Nat)
    (state : τ) :
    receiveAll stack' handler protocols? gate' l' passed state =
      receiveAll stack handler protocols? gate l passed state := by
  induction h generalizing passed state with
  | nil => rfl
  | cons hhead _ ih => simp only [receiveAll, hhead, ih]

end Runs

end TlsGate.Server
