import TlsGate.Text.Split

/-!
Cutting lists that are known to be put together from words: the words are found again. A separator
ends a word only if it does not stand in the word.
-/

set_option autoImplicit false
set_option relaxedAutoImplicit false

namespace TlsGate.Text

variable {α : Type}

theorem trim_eq_self {drop : α → Bool} {l : List α} (h : ∀ x ∈ l, drop x = false) :
    trim drop l = l := by
  have hnone {m : List α} (hm : ∀ x ∈ m, drop x = false) : m.dropWhile drop = m := by
    cases m with
    | nil => rfl
    | cons x m => rw [List.dropWhile_cons_of_neg (by simp [hm x List.mem_cons_self])]
  rw [trim, hnone h, hnone (fun x hx => h x (List.mem_reverse.1 hx)), List.reverse_reverse]

theorem trim_cons {drop : α → Bool} {x : α} (h : drop x = true) (l : List α) :
    trim drop (x :: l) = trim drop l := by
  rw [trim, List.dropWhile_cons_of_pos h, trim]

theorem mem_of_mem_trim {drop : α → Bool} {x : α} {l : List α} (h : x ∈ trim drop l) : x ∈ l := by
  have hmem := (List.dropWhile_suffix drop).subset (List.mem_reverse.1 h)
  exact (List.dropWhile_suffix drop).subset (List.mem_reverse.1 hmem)

variable [DecidableEq α] {sep : α} {word : List α}

theorem cutFirst_append (h : sep ∉ word) (after : List α) :
    cutFirst sep (word ++ sep :: after) = (word, some after) := by
  have hall : ∀ x ∈ word, (!decide (x = sep)) = true := by
    intro x hx
    have hne : x ≠ sep := fun heq => h (heq ▸ hx)
    simp [hne]
  simp only [cutFirst]
  rw [List.takeWhile_append_of_pos hall, List.dropWhile_append_of_pos hall]
  simp

theorem cutFirst_cons (sep : α) (l : List α) : cutFirst sep (sep :: l) = ([], some l) :=
  cutFirst_append List.not_mem_nil l

theorem cutFirst_word (h : sep ∉ word) : cutFirst sep word = (word, none) := by
  have hall : ∀ x ∈ word, (!decide (x = sep)) = true := by
    intro x hx
    have hne : x ≠ sep := fun heq => h (heq ▸ hx)
    simp [hne]
  have hwhole : cutFirst sep (word ++ []) = (word, none) := by
    rw [cutFirst, List.takeWhile_append_of_pos hall, List.dropWhile_append_of_pos hall]
    simp
  rwa [List.append_nil] at hwhole

theorem not_mem_cutFirst (sep : α) (l : List α) : sep ∉ (cutFirst sep l).1 := by
  intro h
  have hall := List.all_eq_true.1 (List.all_takeWhile (p := fun x => !decide (x = sep)) (l := l))
  simpa using hall sep h

theorem cutFirst_cases (sep : α) (l : List α) :
    (sep ∉ l ∧ cutFirst sep l = (l, none)) ∨
      ∃ before after, l = before ++ sep :: after ∧ sep ∉ before ∧
        cutFirst sep l = (before, some after) := by
  by_cases h : sep ∈ l
  · obtain ⟨before, after, rfl, hbefore⟩ := List.eq_append_cons_of_mem h
    exact .inr ⟨before, after, rfl, hbefore, cutFirst_append hbefore after⟩
  · exact .inl ⟨h, cutFirst_word h⟩

theorem cutLast_word (h : sep ∉ word) : cutLast sep word = (none, word) := by
  have hreverse : sep ∉ word.reverse := by rwa [List.mem_reverse]
  rw [cutLast, cutFirst_word hreverse]
  simp

theorem isSome_cutLast_iff {l : List α} : (cutLast sep l).1.isSome = true ↔ sep ∈ l := by
  rcases cutFirst_cases sep l.reverse with ⟨h, hcut⟩ | ⟨before, after, hl, -, hcut⟩
  · simpa [cutLast, hcut] using h
  · have hmem : sep ∈ l.reverse := by rw [hl]; simp
    simpa [cutLast, hcut] using hmem

private theorem fields_ne_nil (sep : α) (l : List α) : fields sep l ≠ [] := by
  induction l with
  | nil => exact List.cons_ne_nil _ _
  | cons x l ih =>
    simp only [fields, List.foldr_cons]
    unfold consField
    split
    · exact List.cons_ne_nil _ _
    · split <;> exact List.cons_ne_nil _ _

theorem fields_cons (sep x : α) (l : List α) :
    ∃ first others,
      fields sep (x :: l) = first :: others ∧ (first = [] ∨ first.head? = some x) := by
  have hcons : fields sep (x :: l) = consField sep x (fields sep l) := rfl
  obtain ⟨first, others, heq⟩ := List.exists_cons_of_ne_nil (fields_ne_nil sep l)
  rw [hcons, heq, consField]
  split
  · exact ⟨[], first :: others, rfl, .inl rfl⟩
  · exact ⟨x :: first, others, rfl, .inr rfl⟩

theorem mem_of_mem_fields {x : α} {l : List α} (hword : word ∈ fields sep l) (hx : x ∈ word) :
    x ∈ l := by
  induction l generalizing word with
  | nil =>
    obtain rfl := List.mem_singleton.1 hword
    cases hx
  | cons y l ih =>
    have hcons : fields sep (y :: l) = consField sep y (fields sep l) := rfl
    obtain ⟨first, others, heq⟩ := List.exists_cons_of_ne_nil (fields_ne_nil sep l)
    have hrest (w : List α) (hw : w ∈ first :: others) (hmem : x ∈ w) : x ∈ y :: l :=
      List.mem_cons_of_mem y (ih (heq ▸ hw) hmem)
    rw [hcons, heq, consField] at hword
    split at hword
    · rcases List.mem_cons.1 hword with rfl | hword
      · cases hx
      · exact hrest word hword hx
    · rcases List.mem_cons.1 hword with rfl | hword
      · rcases List.mem_cons.1 hx with rfl | hx
        · exact List.mem_cons_self
        · exact hrest first List.mem_cons_self hx
      · exact hrest word (List.mem_cons_of_mem first hword) hx

theorem fields_word (h : sep ∉ word) : fields sep word = [word] := by
  induction word with
  | nil => rfl
  | cons x word ih =>
    simp only [List.mem_cons, not_or] at h
    have hcons : fields sep (x :: word) = consField sep x (fields sep word) := rfl
    rw [hcons, ih h.2, consField, if_neg (Ne.symm h.1)]

theorem mem_of_length_fields {l : List α} (h : 1 < (fields sep l).length) : sep ∈ l := by
  refine Decidable.byContradiction fun hmem => ?_
  rw [fields_word hmem, List.length_singleton] at h
  exact Nat.lt_irrefl 1 h

theorem fields_map {f : α → α} (hf : ∀ x, f x = sep ↔ x = sep) (l : List α) :
    fields sep (l.map f) = (fields sep l).map (List.map f) := by
  induction l with
  | nil => rfl
  | cons x l ih =>
    have hcons : fields sep (x :: l) = consField sep x (fields sep l) := rfl
    have hcons' : fields sep ((x :: l).map f) = consField sep (f x) (fields sep (l.map f)) := rfl
    obtain ⟨first, others, heq⟩ := List.exists_cons_of_ne_nil (fields_ne_nil sep l)
    rw [hcons, hcons', ih, heq, List.map_cons, consField, consField]
    by_cases hx : x = sep
    · rw [if_pos hx, if_pos ((hf x).mpr hx)]
      rfl
    · rw [if_neg hx, if_neg (mt (hf x).mp hx)]
      rfl

theorem exists_mem_fields_of_mem (sep : α) {x : α} {l : List α} (hx : x ∈ l) :
    x = sep ∨ ∃ word ∈ fields sep l, x ∈ word := by
  induction l with
  | nil => cases hx
  | cons y l ih =>
    have hcons : fields sep (y :: l) = consField sep y (fields sep l) := rfl
    obtain ⟨first, others, heq⟩ := List.exists_cons_of_ne_nil (fields_ne_nil sep l)
    rw [hcons, heq, consField]
    rw [heq] at ih
    by_cases hy : y = sep
    · rw [if_pos hy]
      rcases List.mem_cons.1 hx with rfl | hx
      · exact .inl hy
      · refine (ih hx).imp_right fun ⟨word, hword, hmem⟩ => ?_
        exact ⟨word, List.mem_cons_of_mem _ hword, hmem⟩
    · rw [if_neg hy]
      rcases List.mem_cons.1 hx with rfl | hx
      · exact .inr ⟨x :: first, List.mem_cons_self, List.mem_cons_self⟩
      · refine (ih hx).imp_right fun ⟨word, hword, hmem⟩ => ?_
        rcases List.mem_cons.1 hword with rfl | hword
        · exact ⟨y :: word, List.mem_cons_self, List.mem_cons_of_mem y hmem⟩
        · exact ⟨word, List.mem_cons_of_mem _ hword, hmem⟩

theorem fields_append (h : sep ∉ word) (rest : List α) :
    fields sep (word ++ sep :: rest) = word :: fields sep rest := by
  induction word with
  | nil =>
    have hcons : fields sep ([] ++ sep :: rest) = consField sep sep (fields sep rest) := rfl
    obtain ⟨first, others, heq⟩ := List.exists_cons_of_ne_nil (fields_ne_nil sep rest)
    rw [hcons, heq, consField, if_pos rfl]
  | cons x word ih =>
    simp only [List.mem_cons, not_or] at h
    have hcons : fields sep (x :: word ++ sep :: rest) =
        consField sep x (fields sep (word ++ sep :: rest)) := rfl
    rw [hcons, ih h.2, consField, if_neg (Ne.symm h.1)]

theorem fields_append_fields (before after : List α) :
    fields sep (before ++ sep :: after) = fields sep before ++ fields sep after := by
  induction before with
  | nil => exact fields_append List.not_mem_nil after
  | cons x before ih =>
    have hcons : fields sep (x :: before ++ sep :: after) =
        consField sep x (fields sep (before ++ sep :: after)) := rfl
    have hcons' : fields sep (x :: before) = consField sep x (fields sep before) := rfl
    obtain ⟨first, others, heq⟩ := List.exists_cons_of_ne_nil (fields_ne_nil sep before)
    rw [hcons, hcons', ih, heq, List.cons_append, consField, consField]
    split <;> rfl

end TlsGate.Text
