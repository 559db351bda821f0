import TlsGate.Base64
import TlsGate.Proofs.Numeral

/-!
The base64 form of bytes reads back as the bytes, and nothing that holds a foreign character is one.
-/

set_option autoImplicit false
set_option relaxedAutoImplicit false

namespace TlsGate.Base64

private theorem value?_digit_fin : ∀ n : Fin 64, value? (digit n.val) = some n.val := by decide

private theorem value?_digit {n : Nat} (h : n < 64) : value? (digit n) = some n := value?_digit_fin
    ⟨n, h⟩

private theorem digit_ne_fill {n : Nat} (h : n < 64) : digit n ≠ 61 := by
  intro heq
  have hvalue := value?_digit h
  rw [heq] at hvalue
  cases hvalue

def isSymbol (b : UInt8) : Bool := (value? b).isSome || b = 61

private theorem isSymbol_digit {n : Nat} (h : n < 64) : isSymbol (digit n) = true := by
  simp [isSymbol, value?_digit h]

private theorem decode_group {a b c d : UInt8} {i j k l : Nat} (ha : value? a = some i)
    (hb : value? b = some j) (hc : value? c = some k) (hd : value? d = some l) (rest : Bytes) :
    decode (a :: b :: c :: d :: rest) = (decode rest).map (group i j k l ++ ·) := by
  have hfill : value? 61 = none := by decide
  have hne : d ≠ 61 := by
    rintro rfl
    rw [hfill] at hd
    cases hd
  rw [decode.eq_4]
  · simp [ha, hb, hc, hd]
    cases decode rest <;> rfl
  · rintro - rfl -
    exact hne rfl
  · rintro rfl -
    exact hne rfl

theorem toUInt8_eq {n : Nat} {b : UInt8} (h : n = b.toNat) : n.toUInt8 = b := by
  rw [h]
  exact UInt8.ofNat_toNat

private theorem group_eq (a b c : UInt8) :
    group (a.toNat / 4) (a.toNat % 4 * 16 + b.toNat / 16) (b.toNat % 16 * 4 + c.toNat / 64)
      (c.toNat % 64) = [a, b, c] := by
  have ha := a.toNat_lt
  have hb := b.toNat_lt
  have hc := c.toNat_lt
  rw [group, toUInt8_eq (b := a) (by omega), toUInt8_eq (b := b) (by omega),
    toUInt8_eq (b := c) (by omega)]

theorem decode_encode (b : Bytes) : decode (encode b) = some b := by
  fun_induction encode b with
  | case1 => rfl
  | case2 a =>
    have ha := a.toNat_lt
    have hbits : a.toNat % 4 * 16 % 16 = 0 := by omega
    have hbyte : (a.toNat / 4 * 4 + a.toNat % 4 * 16 / 16).toUInt8 = a := toUInt8_eq (by omega)
    have hfirst : value? (digit (a.toNat / 4)) = some (a.toNat / 4) := value?_digit (by omega)
    have hsecond : value? (digit (a.toNat % 4 * 16)) = some (a.toNat % 4 * 16) :=
      value?_digit (by omega)
    simp only [decode, hfirst, hsecond, Option.bind_eq_bind, Option.bind_some, hbits, ne_eq,
      not_true_eq_false, if_false, hbyte]
    rfl
  | case3 a b =>
    have ha := a.toNat_lt
    have hb := b.toNat_lt
    have hbits : b.toNat % 16 * 4 % 4 = 0 := by omega
    have hbyte : (a.toNat / 4 * 4 + (a.toNat % 4 * 16 + b.toNat / 16) / 16).toUInt8 = a :=
      toUInt8_eq (by omega)
    have hnext : ((a.toNat % 4 * 16 + b.toNat / 16) % 16 * 16 + b.toNat % 16 * 4 / 4).toUInt8 = b :=
      toUInt8_eq (by omega)
    have hfirst : value? (digit (a.toNat / 4)) = some (a.toNat / 4) := value?_digit (by omega)
    have hsecond : value? (digit (a.toNat % 4 * 16 + b.toNat / 16)) =
      some (a.toNat % 4 * 16 + b.toNat / 16) := value?_digit (by omega)
    have hthird : value? (digit (b.toNat % 16 * 4)) = some (b.toNat % 16 * 4) :=
      value?_digit (by omega)
    rw [decode.eq_3 _ _ _ (digit_ne_fill (by omega))]
    simp only [hfirst, hsecond, hthird, Option.bind_eq_bind, Option.bind_some, hbits, ne_eq,
      not_true_eq_false, if_false, hbyte, hnext]
    rfl
  | case4 a b c rest ih =>
    have ha := a.toNat_lt
    have hb := b.toNat_lt
    have hc := c.toNat_lt
    rw [decode_group (value?_digit (by omega)) (value?_digit (by omega)) (value?_digit (by omega))
      (value?_digit (by omega)), ih, group_eq]
    rfl

theorem isSymbol_encode (b : Bytes) : ∀ x ∈ encode b, isSymbol x = true := by
  have hfill : isSymbol 61 = true := by decide
  fun_induction encode b with
  | case1 => simp
  | case2 a =>
    have ha := a.toNat_lt
    simp [isSymbol_digit (show a.toNat / 4 < 64 by omega),
      isSymbol_digit (show a.toNat % 4 * 16 < 64 by omega), hfill]
  | case3 a b =>
    have ha := a.toNat_lt
    have hb := b.toNat_lt
    simp [isSymbol_digit (show a.toNat / 4 < 64 by omega),
      isSymbol_digit (show a.toNat % 4 * 16 + b.toNat / 16 < 64 by omega),
      isSymbol_digit (show b.toNat % 16 * 4 < 64 by omega), hfill]
  | case4 a b c rest ih =>
    have ha := a.toNat_lt
    have hb := b.toNat_lt
    have hc := c.toNat_lt
    simp only [List.forall_mem_cons]
    exact ⟨isSymbol_digit (by omega), isSymbol_digit (by omega), isSymbol_digit (by omega),
      isSymbol_digit (by omega), ih⟩

theorem isSymbol_of_decode {text b : Bytes} (h : decode text = some b) :
    ∀ x ∈ text, isSymbol x = true := by
  have hfill : isSymbol 61 = true := by decide
  have hsymbol {x : UInt8} {n : Nat} (hx : value? x = some n) : isSymbol x = true := by
    simp [isSymbol, hx]
  fun_induction decode text generalizing b with
  | case1 => simp
  | case2 a b =>
    simp only [Option.bind_eq_bind, Option.bind_eq_some_iff] at h
    obtain ⟨_, ha, _, hb, -⟩ := h
    simp [hsymbol ha, hsymbol hb, hfill]
  | case3 a b c hc =>
    simp only [Option.bind_eq_bind, Option.bind_eq_some_iff] at h
    obtain ⟨_, ha, _, hb, _, hc, -⟩ := h
    simp [hsymbol ha, hsymbol hb, hsymbol hc, hfill]
  | case4 a b c d rest hfew hfill ih =>
    simp only [Option.bind_eq_bind, Option.bind_eq_some_iff] at h
    obtain ⟨_, ha, _, hb, _, hc, _, hd, _, hrest, -⟩ := h
    simp only [List.forall_mem_cons]
    exact ⟨hsymbol ha, hsymbol hb, hsymbol hc, hsymbol hd, ih hrest⟩
  | case5 => cases h

end TlsGate.Base64
