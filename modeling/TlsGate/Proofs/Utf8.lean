import TlsGate.Proofs.Numeral

/-!
Characters of one byte in the UTF-8 form of texts. A byte below 128 is a character of its own, so a
text can be cut wherever its bytes can be cut at such a byte.
-/

set_option autoImplicit false
set_option relaxedAutoImplicit false

namespace TlsGate.Bytes

private theorem ofString_ofList (l : List Char) :
    ofString (String.ofList l) = l.flatMap String.utf8EncodeChar := by
  simp [ofString, String.toUTF8_eq_toByteArray, List.utf8Encode]

theorem ofString_of_toString? {b : Bytes} {s : String} (h : toString? b = some s) :
    ofString s = b := by
  rw [toString?, String.fromUTF8?] at h
  split at h
  · obtain rfl := Option.some.inj h
    simp [ofString, String.toUTF8_eq_toByteArray, String.fromUTF8]
  · cases h

def asciiChar (b : UInt8) : Char := Char.ofNat b.toNat

theorem utf8EncodeChar_asciiChar : ∀ b : UInt8, b < 128 →
    String.utf8EncodeChar (asciiChar b) = [b] :=
  forall_byte (by decide +kernel)

theorem length_ofString {s : String} (h : ∀ c ∈ s.toList, c.toNat < 128) :
    (ofString s).length = s.length := by
  have hsize (c : Char) (hc : c.toNat < 128) : (String.utf8EncodeChar c).length = 1 := by
    rw [String.length_utf8EncodeChar, Char.utf8Size, if_pos]
    exact Nat.le_of_lt_succ hc
  rw [← String.length_toList, ← String.ofList_toList (s := s), ofString_ofList,
    String.toList_ofList, List.length_flatMap, List.map_congr_left fun c hc => hsize c (h c hc)]
  rw [List.map_const', List.sum_replicate_nat, Nat.mul_one]

theorem utf8EncodeChar_cases (c : Char) :
    (∃ b, b < 128 ∧ c = asciiChar b) ∨ ∀ x ∈ String.utf8EncodeChar c, ¬ x < 128 := by
  by_cases hone : c.val.toNat ≤ 127
  · refine .inl ⟨UInt8.ofNat c.val.toNat, ?_, ?_⟩
    · rw [UInt8.lt_iff_toNat_lt, UInt8.toNat_ofNat']
      show _ < 128
      omega
    · have hval : (UInt8.ofNat c.val.toNat).toNat = c.toNat := by
        rw [UInt8.toNat_ofNat']
        exact Nat.mod_eq_of_lt (by omega)
      rw [asciiChar, hval, Char.ofNat_toNat]
  · refine .inr fun x hx hlt => ?_
    have hnum : x.toNat < 128 := hlt
    simp only [String.utf8EncodeChar, if_neg hone] at hx
    split at hx
    · rcases (by simpa using hx) with rfl | rfl <;> simp at hnum <;> omega
    · split at hx
      · rcases (by simpa using hx) with rfl | rfl | rfl <;> simp at hnum <;> omega
      · rcases (by simpa using hx) with rfl | rfl | rfl | rfl <;> simp at hnum <;> omega

theorem exists_split {l : List Char} {x y : Bytes} {b : UInt8} (hb : b < 128)
    (h : ofString (String.ofList l) = x ++ b :: y) :
    ∃ l₁ l₂, l = l₁ ++ asciiChar b :: l₂ ∧ ofString (String.ofList l₁) = x ∧
      ofString (String.ofList l₂) = y := by
  simp only [ofString_ofList] at h ⊢
  induction l generalizing x with
  | nil => simp at h
  | cons c l ih =>
    rw [List.flatMap_cons, List.append_eq_append_iff] at h
    rcases h with ⟨more, rfl, hrest⟩ | ⟨more, hc, hrest⟩
    · obtain ⟨l₁, l₂, rfl, rfl, rfl⟩ := ih hrest
      exact ⟨c :: l₁, l₂, rfl, rfl, rfl⟩
    · cases more with
      | nil =>
        obtain ⟨l₁, l₂, rfl, hnil, rfl⟩ := ih (x := []) (by simpa using hrest.symm)
        refine ⟨c :: l₁, l₂, rfl, ?_, rfl⟩
        rw [List.flatMap_cons, hnil, hc, List.append_nil, List.append_nil]
      | cons first more =>
        obtain ⟨rfl, rfl⟩ := List.cons.inj hrest
        have hmem : b ∈ String.utf8EncodeChar c := by simp [hc]
        rcases utf8EncodeChar_cases c with ⟨other, hother, rfl⟩ | hlarge
        · rw [utf8EncodeChar_asciiChar other hother] at hc
          obtain ⟨rfl, hmore⟩ : x = [] ∧ [other] = b :: more := by
            cases x with
            | nil => exact ⟨rfl, by simpa using hc⟩
            | cons first x => simp at hc
          obtain ⟨rfl, rfl⟩ := List.cons.inj hmore
          exact ⟨[], l, rfl, rfl, by simp⟩
        · exact absurd hb (hlarge b hmem)

theorem asciiChar_mem_iff {l : List Char} {b : UInt8} (hb : b < 128) :
    asciiChar b ∈ l ↔ b ∈ ofString (String.ofList l) := by
  constructor
  · intro h
    rw [ofString_ofList]
    exact List.mem_flatMap.mpr ⟨_, h, by simp [utf8EncodeChar_asciiChar b hb]⟩
  · intro h
    obtain ⟨x, y, hxy⟩ := List.append_of_mem h
    obtain ⟨l₁, l₂, rfl, -, -⟩ := exists_split hb hxy
    simp

theorem ofString_map_asciiChar {b : Bytes} (h : ∀ x ∈ b, x < 128) :
    ofString (String.ofList (b.map asciiChar)) = b := by
  rw [ofString_ofList]
  induction b with
  | nil => rfl
  | cons x b ih =>
    rw [List.map_cons, List.flatMap_cons, utf8EncodeChar_asciiChar x (h x List.mem_cons_self),
      ih fun y hy => h y (List.mem_cons_of_mem x hy)]
    rfl

theorem toString?_ascii {b : Bytes} (h : ∀ x ∈ b, x < 128) :
    toString? b = some (String.ofList (b.map asciiChar)) := by
  have htext := toString?_ofString (String.ofList (b.map asciiChar))
  rwa [ofString_map_asciiChar h] at htext

end TlsGate.Bytes
