/-!
Cutting a list at separators: at the first one, after the last one, at every one. The parts of a
cut, with the separator put back between them, are the list again.
-/

set_option autoImplicit false
set_option relaxedAutoImplicit false

namespace TlsGate.Text

variable {α : Type} [DecidableEq α]

def cutFirst (sep : α) (l : List α) : List α × Option (List α) :=
  (l.takeWhile fun x => !decide (x = sep), (l.dropWhile fun x => !decide (x = sep)).tail?)

def cutLast (sep : α) (l : List α) : Option (List α) × List α :=
  let (after, before) := cutFirst sep l.reverse
  (before.map List.reverse, after.reverse)

def consField (sep x : α) : List (List α) → List (List α)
  | [] => [[x]]
  | first :: others => if x = sep then [] :: first :: others else (x :: first) :: others

/-- The fields between separators; a list without a separator is one field. -/
def fields (sep : α) (l : List α) : List (List α) :=
  l.foldr (consField sep) [[]]

def trim (drop : α → Bool) (l : List α) : List α :=
  ((l.dropWhile drop).reverse.dropWhile drop).reverse

/-- What stands before the first place where a list has a mark in it, and what stands after that
place. -/
def cutAtList (mark : List α) : List α → Option (List α × List α)
  | [] => if mark = [] then some ([], []) else none
  | x :: rest =>
    if mark.isPrefixOf (x :: rest) then some ([], (x :: rest).drop mark.length)
    else (cutAtList mark rest).map fun (before, after) => (x :: before, after)

theorem cutFirst_some {sep : α} {l before after : List α}
    (h : cutFirst sep l = (before, some after)) : l = before ++ sep :: after := by
  simp only [cutFirst, Prod.mk.injEq] at h
  obtain ⟨rfl, h⟩ := h
  induction l with
  | nil => simp at h
  | cons x rest ih =>
    by_cases hx : x = sep
    · simp_all
    · simp only [hx, decide_false, Bool.not_false, List.takeWhile_cons_of_pos,
        List.dropWhile_cons_of_pos] at h ⊢
      simp [← ih h]

theorem cutFirst_length {sep : α} {l after : List α} (h : (cutFirst sep l).2 = some after) :
    after.length < l.length := by
  have hl : l = (cutFirst sep l).1 ++ sep :: after := cutFirst_some (by rw [← h])
  have := congrArg List.length hl
  simp only [List.length_append, List.length_cons] at this
  omega

theorem cutAtList_eq {mark l before after : List α} (h : cutAtList mark l = some (before, after)) :
    l = before ++ mark ++ after := by
  induction l generalizing before with
  | nil =>
    unfold cutAtList at h
    split at h <;> simp_all
  | cons x rest ih =>
    unfold cutAtList at h
    split at h
    · rename_i hp
      obtain ⟨t, ht⟩ := List.isPrefixOf_iff_prefix.1 hp
      simp only [Option.some.injEq, Prod.mk.injEq] at h
      obtain ⟨rfl, rfl⟩ := h
      simp [← ht]
    · simp only [Option.map_eq_some_iff, Prod.mk.injEq, Prod.exists] at h
      obtain ⟨b, a, h, rfl, rfl⟩ := h
      simp [ih h]

end TlsGate.Text
