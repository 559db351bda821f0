import TlsGate.Text.LowerCase

/-!
What lower-casing makes of a text. The runs of capital letters lead out of themselves and of each
other, so a text in lower case stays as it is, whatever stands around its letters. A character that
no run leads to, such as a digit or a punctuation mark, is in a lower-cased text only if it was in
the text.
-/

set_option autoImplicit false
set_option relaxedAutoImplicit false

namespace TlsGate.Text

variable {c d : Char} {l before : List Char}

/-! ## Runs -/

namespace CaseRun

def image (r : CaseRun) (n : Nat) : Nat := (n + r.shift).toNat

structure Maps (r : CaseRun) (c d : Char) : Prop where
  first_le : r.first ≤ c.toNat
  le_last : c.toNat ≤ r.last
  stride : (c.toNat - r.first) % r.stride = 0
  shift : d.toNat = r.image c.toNat

def leadsToChars (r : CaseRun) : Bool :=
  decide (0 ≤ r.first + r.shift) &&
    (Nat.blt (r.image r.last) 0xd800 ||
      (Nat.blt 0xdfff (r.image r.first) && Nat.blt (r.image r.last) 0x110000))

def misses (r : CaseRun) (n : Nat) : Bool :=
  Nat.blt n (r.image r.first) || Nat.blt (r.image r.last) n

/-- Whether a run leads to no character of another one: they lie apart, or those of the other one
are every second one and the run leads to characters in between. -/
def avoids (r s : CaseRun) : Bool :=
  Nat.blt (r.image r.last) s.first || Nat.blt s.last (r.image r.first) ||
    (decide (s.stride = 2) && decide (r.stride = 2 ∨ r.first = r.last) &&
      decide ((r.image r.first + s.first) % 2 = 1))

private theorem all_leadsToChars : lowerRuns.all leadsToChars = true := by
  decide +kernel

private theorem all_avoids : lowerRuns.all (fun r => lowerRuns.all r.avoids) = true := by
  decide +kernel

private theorem toNat_ofNat_of_isValidChar {n : Nat} (h : n.isValidChar) :
    (Char.ofNat n).toNat = n := by
  rw [Char.ofNat, dif_pos h]
  rfl

variable {r s : CaseRun}

private theorem maps_of_lower?_eq_some (hr : r ∈ lowerRuns) (h : r.lower? c = some d) :
    r.Maps c d := by
  unfold lower? at h
  split at h
  case isFalse => cases h
  case isTrue hc =>
    simp only [Bool.and_eq_true, decide_eq_true_eq, beq_iff_eq] at hc
    obtain ⟨⟨hfirst, hlast⟩, hstride⟩ := hc
    have hchars := List.all_eq_true.mp all_leadsToChars r hr
    simp only [leadsToChars, image, Bool.or_eq_true, Bool.and_eq_true, decide_eq_true_eq,
      Nat.blt_eq] at hchars
    have hvalid : (r.image c.toNat).isValidChar := by
      unfold Nat.isValidChar image
      omega
    obtain rfl := Option.some.inj h
    exact ⟨hfirst, hlast, hstride, toNat_ofNat_of_isValidChar hvalid⟩

private theorem Maps.lower?_eq_none (h : r.Maps c d) (hr : r ∈ lowerRuns) (hs : s ∈ lowerRuns) :
    s.lower? d = none := by
  obtain ⟨hfirst, hlast, hstride, hshift⟩ := h
  have hpos := (Bool.and_eq_true_iff.mp (List.all_eq_true.mp all_leadsToChars r hr)).1
  have havoids := List.all_eq_true.mp (List.all_eq_true.mp all_avoids r hr) s hs
  simp only [avoids, Bool.or_eq_true, Bool.and_eq_true, decide_eq_true_eq,
    Nat.blt_eq] at havoids hpos
  unfold image at havoids hshift
  unfold lower?
  refine if_neg ?_
  simp only [Bool.and_eq_true, decide_eq_true_eq, beq_iff_eq, not_and]
  intro ⟨hd, hd'⟩ hmod
  rcases havoids with (hapart | hapart) | ⟨⟨htwo, hstep⟩, hodd⟩
  · omega
  · omega
  · rw [htwo] at hmod
    rcases hstep with hr2 | hone
    · rw [hr2] at hstride
      omega
    · omega

private theorem Maps.misses_eq_false (h : r.Maps c d) : r.misses d.toNat = false := by
  obtain ⟨hfirst, hlast, -, hshift⟩ := h
  refine Bool.eq_false_iff.mpr fun hmisses => ?_
  simp only [misses, Bool.or_eq_true, Nat.blt_eq] at hmisses
  unfold image at hmisses hshift
  omega

end CaseRun

/-! ## Characters -/

theorem lowerChar_cases (c : Char) :
    lowerChar c = c ∨ ∃ r ∈ lowerRuns, r.Maps c (lowerChar c) := by
  unfold lowerChar
  cases h : lowerRuns.findSome? (CaseRun.lower? c) with
  | none => exact .inl rfl
  | some d =>
    obtain ⟨r, hr, hd⟩ := List.exists_of_findSome?_eq_some h
    exact .inr ⟨r, hr, CaseRun.maps_of_lower?_eq_some hr hd⟩

def specialLower : List Char := ['σ', 'ς', 'i', '\u0307']

/-- Whether a character is not part of the lower case of any other one. A capital letter is not
either. -/
def isUnreached (d : Char) : Bool :=
  lowerRuns.all (CaseRun.misses · d.toNat) && !specialLower.contains d

private theorem eq_of_lowerChar_eq (hd : isUnreached d = true) (h : lowerChar c = d) : c = d := by
  rcases lowerChar_cases c with hc | ⟨r, hr, hmaps⟩
  · exact hc.symm.trans h
  · have hmisses := List.all_eq_true.mp (Bool.and_eq_true_iff.mp hd).1 r hr
    rw [h] at hmaps
    exact absurd hmisses (by simp [hmaps.misses_eq_false])

theorem lowerChar_eq_iff (hd : isUnreached d = true) (hown : lowerChar d = d) :
    lowerChar c = d ↔ c = d := by
  constructor
  · exact eq_of_lowerChar_eq hd
  · rintro rfl
    exact hown

structure IsSmall (c : Char) : Prop where
  lowerChar_eq : lowerChar c = c
  not_dotted : c ≠ 'İ'

instance (c : Char) : Decidable (IsSmall c) :=
  decidable_of_iff (lowerChar c = c ∧ c ≠ 'İ')
    ⟨fun ⟨hlower, hdotted⟩ => ⟨hlower, hdotted⟩, fun h => ⟨h.lowerChar_eq, h.not_dotted⟩⟩

private theorem isSmall_of_mem_specialLower (hd : d ∈ specialLower) : IsSmall d := by
  have hall : specialLower.all (fun d => decide (IsSmall d)) = true := by decide +kernel
  exact of_decide_eq_true (List.all_eq_true.mp hall d hd)

private theorem isSmall_lowerChar (hc : c ≠ 'İ') : IsSmall (lowerChar c) := by
  rcases lowerChar_cases c with hown | ⟨r, hr, hmaps⟩
  · rw [hown]
    exact ⟨hown, hc⟩
  · constructor
    · have hnone : lowerRuns.findSome? (CaseRun.lower? (lowerChar c)) = none :=
        List.findSome?_eq_none_iff.mpr fun s hs => hmaps.lower?_eq_none hr hs
      rw [lowerChar, hnone, Option.getD_none]
    · intro hdotted
      have hunreached : isUnreached 'İ' = true := by decide +kernel
      exact hc (eq_of_lowerChar_eq hunreached hdotted)

/-! ## Texts -/

def IsRegular (c : Char) : Prop := c ≠ 'Σ' ∧ c ≠ 'İ'

theorem IsSmall.isRegular (h : IsSmall c) : IsRegular c := by
  refine ⟨?_, h.not_dotted⟩
  rintro rfl
  exact absurd h.lowerChar_eq (by decide +kernel)

private theorem mem_lowerFrom (h : d ∈ lowerFrom before l) :
    d ∈ specialLower ∨ ∃ c ∈ l, IsRegular c ∧ d = lowerChar c := by
  induction l generalizing before with
  | nil => cases h
  | cons c rest ih =>
    simp only [lowerFrom] at h
    rcases List.mem_append.mp h with hhere | hrest
    · split at hhere
      case isTrue =>
        left
        split at hhere <;> simp_all [specialLower]
      case isFalse hsigma =>
        split at hhere
        case isTrue => exact .inl (List.mem_cons_of_mem _ (List.mem_cons_of_mem _ hhere))
        case isFalse hdotted =>
          exact .inr ⟨c, List.mem_cons_self, ⟨hsigma, hdotted⟩, List.mem_singleton.mp hhere⟩
    · rcases ih hrest with hspecial | ⟨x, hx, hregular, rfl⟩
      · exact .inl hspecial
      · exact .inr ⟨x, List.mem_cons_of_mem c hx, hregular, rfl⟩

theorem lowerFrom_eq_nil_iff : lowerFrom before l = [] ↔ l = [] := by
  cases l with
  | nil => simp [lowerFrom]
  | cons c rest =>
    simp only [lowerFrom, List.append_eq_nil_iff, reduceCtorEq, iff_false, not_and]
    intro h
    repeat' split at h
    all_goals cases h

theorem lowerFrom_append {word : List Char} (hword : ∀ c ∈ word, IsRegular c)
    (before l : List Char) :
    lowerFrom before (word ++ l) = word.map lowerChar ++ lowerFrom (word.reverse ++ before) l := by
  induction word generalizing before with
  | nil => rfl
  | cons c word ih =>
    obtain ⟨⟨hsigma, hdotted⟩, hrest⟩ := List.forall_mem_cons.mp hword
    rw [List.cons_append, lowerFrom, if_neg hsigma, if_neg hdotted, ih hrest]
    simp

theorem toLower_eq_map (h : ∀ c ∈ l, IsRegular c) : toLower l = l.map lowerChar := by
  have happend := lowerFrom_append h [] []
  rwa [List.append_nil, lowerFrom, List.append_nil] at happend

private theorem toLower_of_isSmall (h : ∀ c ∈ l, IsSmall c) : toLower l = l := by
  rw [toLower_eq_map fun c hc => (h c hc).isRegular]
  have hmap : l.map lowerChar = l.map id := List.map_congr_left fun c hc => (h c hc).lowerChar_eq
  rw [hmap, List.map_id]

private theorem isSmall_of_mem_toLower (h : d ∈ toLower l) : IsSmall d := by
  rcases mem_lowerFrom h with hspecial | ⟨c, -, hregular, rfl⟩
  · exact isSmall_of_mem_specialLower hspecial
  · exact isSmall_lowerChar hregular.2

theorem toLower_toLower (l : List Char) : toLower (toLower l) = toLower l :=
  toLower_of_isSmall fun _ => isSmall_of_mem_toLower

theorem mem_of_mem_lowerFrom (hd : isUnreached d = true) (h : d ∈ lowerFrom before l) : d ∈ l := by
  rcases mem_lowerFrom h with hspecial | ⟨c, hc, -, hlower⟩
  · have hother := (Bool.and_eq_true_iff.mp hd).2
    exact absurd (List.contains_iff_mem.mpr hspecial) (by simpa using hother)
  · exact eq_of_lowerChar_eq hd hlower.symm ▸ hc

end TlsGate.Text
