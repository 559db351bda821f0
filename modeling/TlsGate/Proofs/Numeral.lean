import TlsGate.Bytes

/-!
Texts and numbers written as bytes. Bytes that write a text read as the text, and the digits of a
number read as the number, in decimal and in hexadecimal.
-/

set_option autoImplicit false
set_option relaxedAutoImplicit false

namespace TlsGate.Bytes

theorem forall_byte {P : UInt8 → Prop} (h : ∀ n : Fin 256, P (UInt8.ofNat n.val)) (b : UInt8) :
    P b := by
  simpa using h ⟨b.toNat, b.toNat_lt⟩

/-! ## Texts -/

theorem toString?_ofString (s : String) : toString? (ofString s) = some s := by
  have harray : (⟨(ofString s).toArray⟩ : ByteArray) = s.toByteArray := by
    simp [ofString, String.toUTF8]
  rw [toString?, harray, String.fromUTF8?, dif_pos s.isValidUTF8]
  rfl

theorem ofString_append (s t : String) : ofString (s ++ t) = ofString s ++ ofString t := by
  simp [ofString, String.toUTF8]

private theorem ofString_ofList_append (l m : List Char) :
    ofString (String.ofList (l ++ m)) =
      ofString (String.ofList l) ++ ofString (String.ofList m) := by
  rw [String.ofList_append, ofString_append]

/-! ## Digits -/

def digits (base n : Nat) : Bytes := ofString (String.ofList (Nat.toDigits base n))

def digit (d : Nat) : UInt8 := if d < 10 then UInt8.ofNat (48 + d) else UInt8.ofNat (87 + d)

private theorem ofString_digitChar : ∀ d : Fin 16,
    ofString (String.ofList [Nat.digitChar d.val]) = [digit d.val] := by
  decide

private theorem hexValue?_digit : ∀ d : Fin 16, hexValue? (digit d.val) = some d.val := by
  decide

private theorem isDigit_digit : ∀ d : Fin 10, isDigit (digit d.val) = true := by
  decide

private theorem toNat_digit : ∀ d : Fin 10, (digit d.val).toNat - 48 = d.val := by
  decide

theorem digits_eq {base n : Nat} (hb : 1 < base) (hle : base ≤ 16) :
    digits base n =
      if n < base then [digit n] else digits base (n / base) ++ [digit (n % base)] := by
  simp only [digits]
  rw [Nat.toDigits_eq_if hb]
  split
  · rename_i hlt
    exact ofString_digitChar ⟨n, by omega⟩
  · have hlt : n % base < 16 := Nat.lt_of_lt_of_le (Nat.mod_lt n (by omega)) hle
    rw [ofString_ofList_append, ofString_digitChar ⟨n % base, hlt⟩]

private theorem digits_induction {base : Nat} (hb : 1 < base) (hle : base ≤ 16)
    {P : Nat → Bytes → Prop}
    (one : ∀ n, n < base → P n [digit n])
    (more : ∀ n l, P (n / base) l → P n (l ++ [digit (n % base)])) (n : Nat) :
    P n (digits base n) := by
  induction n using Nat.strongRecOn with
  | ind n ih =>
    rw [digits_eq hb hle]
    split
    · rename_i hlt
      exact one n hlt
    · rename_i hge
      exact more n _ (ih (n / base) (Nat.div_lt_self (by omega) hb))

theorem digits_ne_nil {base : Nat} (hb : 1 < base) (hle : base ≤ 16) (n : Nat) :
    digits base n ≠ [] := by
  rw [digits_eq hb hle]
  split
  · exact List.cons_ne_nil _ _
  · exact List.append_ne_nil_of_right_ne_nil _ (List.cons_ne_nil _ _)

private theorem mem_digits {base : Nat} (hb : 1 < base) (hle : base ≤ 16) (n : Nat) :
    ∀ x ∈ digits base n, ∃ d, d < base ∧ x = digit d := by
  refine digits_induction hb hle (P := fun _ l => ∀ x ∈ l, ∃ d, d < base ∧ x = digit d) ?_ ?_ n
  · intro n hlt x hx
    exact ⟨n, hlt, List.mem_singleton.1 hx⟩
  · intro n l ih x hx
    rcases List.mem_append.1 hx with hx | hx
    · exact ih x hx
    · exact ⟨n % base, Nat.mod_lt n (by omega), List.mem_singleton.1 hx⟩

theorem isSome_hexValue?_of_mem {n : Nat} {x : UInt8} (hx : x ∈ digits 16 n) :
    (hexValue? x).isSome = true := by
  obtain ⟨d, hd, rfl⟩ := mem_digits (by decide) (by decide) n x hx
  rw [hexValue?_digit ⟨d, hd⟩]
  rfl

theorem isDigit_of_mem {n : Nat} {x : UInt8} (hx : x ∈ digits 10 n) : isDigit x = true := by
  obtain ⟨d, hd, rfl⟩ := mem_digits (by decide) (by decide) n x hx
  exact isDigit_digit ⟨d, hd⟩

theorem hexNumber_digits (n : Nat) : hexNumber (digits 16 n) = n := by
  refine digits_induction (by decide) (by decide) (P := fun n l => hexNumber l = n) ?_ ?_ n
  · intro n hlt
    simp only [hexNumber, List.foldl_cons, List.foldl_nil, hexValue?_digit ⟨n, hlt⟩]
    simp
  · intro n l ih
    have hlt : n % 16 < 16 := Nat.mod_lt n (by decide)
    simp only [hexNumber] at ih ⊢
    rw [List.foldl_append, ih]
    simp only [List.foldl_cons, List.foldl_nil, hexValue?_digit ⟨n % 16, hlt⟩, Option.getD_some]
    exact Nat.div_add_mod n 16

theorem decimalValue_digits (n : Nat) : decimalValue (digits 10 n) = n := by
  refine digits_induction (by decide) (by decide) (P := fun n l => decimalValue l = n) ?_ ?_ n
  · intro n hlt
    simp only [decimalValue, List.foldl_cons, List.foldl_nil, toNat_digit ⟨n, hlt⟩]
    simp
  · intro n l ih
    have hlt : n % 10 < 10 := Nat.mod_lt n (by decide)
    simp only [decimalValue] at ih ⊢
    rw [List.foldl_append, ih]
    simp only [List.foldl_cons, List.foldl_nil, toNat_digit ⟨n % 10, hlt⟩]
    exact Nat.div_add_mod n 10

end TlsGate.Bytes
