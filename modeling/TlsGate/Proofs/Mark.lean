import TlsGate.Bytes
import TlsGate.Text.Split

/-!
Marks that stand in lists of bytes or characters, and the lines they stand in. A list is cut at the
mark that follows it, provided that none begins in it before.
-/

set_option autoImplicit false
set_option relaxedAutoImplicit false

namespace TlsGate.Text

variable {α : Type} {mark before : List α}

/-- No mark begins in a list that a mark follows: it has none, and none is made of its end and of
the beginning of the mark. -/
def IsClear (mark before : List α) : Prop := ¬ mark <:+: before ++ mark.dropLast

theorem infix_append_cases {l m : List α} (h : mark <:+: l ++ m) :
    mark <:+: l ∨ mark <:+: m ∨
      ∃ left right, mark = left ++ right ∧ left ≠ [] ∧ right ≠ [] ∧ left <:+ l ∧ right <+: m := by
  obtain ⟨pre, suf, heq⟩ := h
  rw [List.append_assoc] at heq
  rcases List.append_eq_append_iff.mp heq with ⟨as, hl, hrest⟩ | ⟨bs, hpre, hm⟩
  · rcases List.append_eq_append_iff.mp hrest with ⟨cs, has, hsuf⟩ | ⟨cs, hmark, hm⟩
    · exact .inl ⟨pre, cs, by rw [hl, has, List.append_assoc]⟩
    · cases as with
      | nil => exact .inr (.inl ⟨[], suf, by simp [hm, hmark]⟩)
      | cons a as =>
        cases cs with
        | nil => exact .inl ⟨pre, [], by simp [hl, hmark]⟩
        | cons c cs =>
          exact .inr (.inr ⟨a :: as, c :: cs, hmark, by simp, by simp, ⟨pre, hl.symm⟩,
            ⟨suf, hm.symm⟩⟩)
  · exact .inr (.inl ⟨bs, suf, by rw [hm, List.append_assoc]⟩)

theorem not_infix_dropLast (hmark : mark ≠ []) : ¬ mark <:+: mark.dropLast := by
  intro h
  have hlength := h.length_le
  have hpos := List.length_pos_iff.mpr hmark
  rw [List.length_dropLast] at hlength
  omega

theorem isClear_of_not_mem {m : α} {rest : List α} (h : m ∉ before) :
    IsClear (m :: rest) before := by
  intro hwithin
  rcases infix_append_cases hwithin with hin | hin | ⟨left, right, hsplit, hleft, -, hsuffix, -⟩
  · exact h (hin.subset List.mem_cons_self)
  · exact not_infix_dropLast (List.cons_ne_nil _ _) hin
  · obtain ⟨first, others, rfl⟩ := List.exists_cons_of_ne_nil hleft
    obtain ⟨rfl, -⟩ := List.cons.inj hsplit
    exact h (hsuffix.subset List.mem_cons_self)

theorem IsClear.absent (h : IsClear mark before) : ¬ mark <:+: before :=
  fun hwithin => h (hwithin.trans (List.prefix_append _ _).isInfix)

theorem IsClear.of_suffix {l : List α} (h : IsClear mark before) (hsuffix : l <:+ before) :
    IsClear mark l := by
  obtain ⟨front, rfl⟩ := hsuffix
  exact fun hwithin => h (hwithin.trans ⟨front, [], by simp⟩)

theorem IsClear.eq_of_append {x y : List α} (hmark : mark ≠ []) (h : IsClear mark before)
    (heq : before ++ mark = x ++ mark ++ y) : before = x ∧ y = [] := by
  have hnil : y = [] := by
    refine Classical.byContradiction fun hy => ?_
    refine h ⟨x, y.dropLast, ?_⟩
    rw [← List.dropLast_append_of_ne_nil hy, ← heq, List.dropLast_append_of_ne_nil hmark]
  subst hnil
  rw [List.append_nil] at heq
  exact ⟨List.append_cancel_right heq, rfl⟩

variable [DecidableEq α]

theorem cutAtList_append (hmark : mark ≠ []) (h : IsClear mark before) (after : List α) :
    cutAtList mark (before ++ mark ++ after) = some (before, after) := by
  induction before with
  | nil =>
    obtain ⟨m, rest, rfl⟩ := List.exists_cons_of_ne_nil hmark
    have hstands : (m :: rest).isPrefixOf (m :: (rest ++ after)) = true :=
      List.isPrefixOf_iff_prefix.mpr ⟨after, rfl⟩
    simp only [List.nil_append, List.cons_append, cutAtList, hstands, if_true]
    simp
  | cons x before ih =>
    have hnone : mark.isPrefixOf (x :: (before ++ mark ++ after)) = false := by
      rw [← Bool.not_eq_true, List.isPrefixOf_iff_prefix]
      intro hstart
      -- it would stand within what comes before the end of the mark behind the list
      have hlong : x :: before ++ mark.dropLast <+: x :: (before ++ mark ++ after) := by
        refine ⟨[mark.getLast hmark] ++ after, ?_⟩
        have hwhole := List.dropLast_concat_getLast hmark
        rw [List.append_assoc, ← List.append_assoc mark.dropLast, hwhole]
        simp
      have hlength : mark.length ≤ (x :: before ++ mark.dropLast).length := by
        simp only [List.length_append, List.length_cons, List.length_dropLast]
        omega
      exact h (List.prefix_of_prefix_length_le hstart hlong hlength).isInfix
    rw [List.cons_append, List.cons_append, cutAtList, hnone]
    have hafter := ih (h.of_suffix (List.suffix_cons x before))
    rw [List.append_assoc] at hafter
    simp [hafter]

theorem cutAtList_eq_none {l : List α} (h : ¬ mark <:+: l) : cutAtList mark l = none := by
  cases hcut : cutAtList mark l with
  | none => rfl
  | some parts =>
    obtain ⟨before, after⟩ := parts
    exact absurd ⟨before, after, (cutAtList_eq hcut).symm⟩ h

/-! ## Lines -/

def IsLined (text : Bytes) : Prop := text = [] ∨ text.getLast? = some 10

theorem IsLined.isClear_append {mark text more : Bytes} (h : IsLined text) (hline : 10 ∉ mark)
    (hnone : ¬ mark <:+: text) (hmore : IsClear mark more) : IsClear mark (text ++ more) := by
  intro hwithin
  rw [List.append_assoc] at hwithin
  rcases infix_append_cases hwithin with hin | hin | ⟨left, right, hsplit, hleft, -, hsuffix, -⟩
  · exact hnone hin
  · exact hmore hin
  · obtain ⟨front, rfl⟩ := hsuffix
    rcases h with hnil | hlast
    · exact hleft (List.append_eq_nil_iff.mp hnil).2
    · rw [List.getLast?_append, List.getLast?_eq_some_getLast hleft, Option.some_or] at hlast
      refine hline ?_
      rw [hsplit, ← Option.some.inj hlast]
      exact List.mem_append_left _ (List.getLast_mem hleft)

theorem IsLined.isClear {mark text : Bytes} (h : IsLined text) (hmark : mark ≠ [])
    (hline : 10 ∉ mark) (hnone : ¬ mark <:+: text) : IsClear mark text := by
  have hnil : IsClear mark [] := not_infix_dropLast hmark
  simpa using h.isClear_append hline hnone hnil

def firstLine (text : Bytes) : Bytes := text.takeWhile (· ≠ 10)

def lastLine (text : Bytes) : Bytes := (firstLine text.reverse).reverse

theorem not_mem_firstLine (text : Bytes) : 10 ∉ firstLine text := by
  intro hmem
  rw [firstLine] at hmem
  simpa using List.all_eq_true.1 List.all_takeWhile 10 hmem

theorem not_mem_lastLine (text : Bytes) : 10 ∉ lastLine text := fun hmem =>
  not_mem_firstLine _ (List.mem_reverse.1 hmem)

theorem exists_firstLine_append (text : Bytes) :
    ∃ rest, text = firstLine text ++ rest ∧ (rest = [] ∨ rest.head? = some 10) := by
  refine ⟨text.dropWhile (· ≠ 10), List.takeWhile_append_dropWhile.symm, ?_⟩
  have hhead := List.head?_dropWhile_not (· ≠ 10) text
  cases hdrop : text.dropWhile (· ≠ 10) with
  | nil => exact .inl rfl
  | cons b rest =>
    rw [hdrop] at hhead
    exact .inr (by simpa using hhead)

theorem exists_append_lastLine (text : Bytes) :
    ∃ front, text = front ++ lastLine text ∧ IsLined front := by
  obtain ⟨rest, hrest, hhead⟩ := exists_firstLine_append text.reverse
  refine ⟨rest.reverse, ?_, ?_⟩
  · rw [lastLine, ← List.reverse_append, ← hrest, List.reverse_reverse]
  · rcases hhead with rfl | hhead
    · exact .inl rfl
    · exact .inr (by rw [List.getLast?_reverse, hhead])

theorem firstLine_subset {x y : Bytes} (h : x <+: y) : firstLine x ⊆ firstLine y := by
  obtain ⟨rest, rfl⟩ := h
  intro b hb
  rw [firstLine, List.takeWhile_append]
  split
  · have hpart := List.takeWhile_prefix (l := x) (· ≠ 10)
    exact List.mem_append_left _ (hpart.subset hb)
  · exact hb

theorem lastLine_subset {x y : Bytes} (h : x <:+ y) : lastLine x ⊆ lastLine y := by
  intro b hb
  rw [lastLine, List.mem_reverse] at hb ⊢
  exact firstLine_subset ( List.reverse_prefix.mpr h) hb

theorem mem_firstLine_append {x y : Bytes} {b : UInt8} (h : b ∈ firstLine (x ++ y)) :
    b ∈ firstLine x ∨ b ∈ firstLine y := by
  rw [firstLine, List.takeWhile_append] at h
  split at h
  · rename_i hlength
    have hpart := List.takeWhile_prefix (l := x) (· ≠ 10)
    rw [← hpart.eq_of_length hlength] at h
    exact List.mem_append.mp h
  · exact .inl h

end TlsGate.Text
