import TlsGate.Proofs.Address.Spelling

/-!
Printed addresses read back. What is printed of an address that has been read is one more spelling
of it: the host in lower case, between brackets if it has a colon, and the port without needless
zeros. It is read as the same address, unless the host has an opening bracket and no colon: such a
host came out of brackets, and is printed without.
-/

set_option autoImplicit false
set_option relaxedAutoImplicit false

namespace TlsGate.Address

open TlsGate.Text

/-! ## Ports -/

def portDigits (port : Nat) : List Char := Nat.toDigits 10 port

private theorem decimalValue_portDigits (port : Nat) : decimalValue (portDigits port) = port :=
  Nat.ofDigitChars_ten_toDigits

private theorem isPort_portDigits {port : Nat} (h : port ≤ 65535) : IsPort
    (portDigits port) port where
  nonempty := Nat.toDigits_ne_nil
  digit c hc := by
    have hdigit := Nat.isDigit_of_mem_toDigits (by decide) (by decide) hc
    simp only [Char.isDigit, Bool.and_eq_true, decide_eq_true_eq, ge_iff_le,
      UInt32.le_iff_toNat_le] at hdigit
    exact isDigit_iff.mpr hdigit
  short := by
    have hlength : (portDigits port).length ≤ 5 :=
      (Nat.length_toDigits_le_iff (by decide) (by decide)).mpr (by omega)
    exact Nat.le_trans hlength (by decide)
  value := decimalValue_portDigits port
  in_range := h

/-! ## Texts -/

/-- A host has an opening bracket in it, and is printed without brackets around it. -/
def LosesBrackets (host : List Char) : Prop := '[' ∈ host ∧ ':' ∉ host

instance (host : List Char) : Decidable (LosesBrackets host) := inferInstanceAs (Decidable (_ ∧ _))

private theorem toList_text (host : String) (port : Nat) :
    (ListenAddress.text ⟨host, port⟩).toList =
      (if ':' ∈ host.toList then '[' :: (host.toList ++ [']']) else host.toList) ++
        ':' :: portDigits port := by
  have hport : (port : Int).repr.toList = portDigits port := Nat.toList_repr
  unfold ListenAddress.text
  by_cases hcolon : ':' ∈ host.toList <;> simp [hcolon, hport]

private theorem isDropped_iff {c : Char} : isDropped c = true ↔ c ∈ ['\t', '\r', '\n'] := by
  simp [isDropped, or_assoc]

private theorem kept_eq_self {value : String} (h : ∀ c ∈ value.toList, c ∉ ['\t', '\r', '\n']) :
    kept value = value.toList := by
  refine List.filter_eq_self.mpr fun c hc => ?_
  rw [Bool.eq_false_iff.mpr (mt isDropped_iff.mp (h c hc))]
  rfl

private theorem not_mem_kept {value : String} {c : Char} (hc : c ∈ kept value) :
    c ∉ ['\t', '\r', '\n'] := by
  intro hdropped
  have hkeep := (List.mem_filter.mp hc).2
  rw [isDropped_iff.mpr hdropped] at hkeep
  cases hkeep

private theorem parse_eq_error_of_checkBrackets {value : String} {e : AddressError}
    (h : checkBrackets (Reference.ofChars (kept value)).authority = .error e) :
    parse value = .error e := by
  unfold parse
  exact bind_eq_error_iff.mpr (.inl h)

namespace Spelling

variable {s : Spelling}

def printed (s : Spelling) : Spelling :=
  ⟨normalHost s.host, decide (':' ∈ normalHost s.host), portDigits s.port, []⟩

private theorem printed_address (s : Spelling) : s.printed.address = s.address := by
  simp only [address, printed, port, normalHost_normalHost, decimalValue_portDigits]

private theorem toList_address_text (s : Spelling) : s.address.text.toList = s.printed.text := by
  rw [address, toList_text]
  simp [text, authority, written, printed]

private theorem text_printed (s : Spelling) : s.printed.text = s.printed.authority :=
  List.append_nil _

private theorem not_mem_marks {marks host : List Char} (hunreached : marks.all isUnreached = true)
    (h : ∀ c ∈ host, c ∉ marks) : ∀ c ∈ normalHost host, c ∉ marks := by
  intro c hc hmark
  exact h c (mem_of_mem_normalHost (List.all_eq_true.mp hunreached c hmark) hc) hmark

theorem IsClean.printed (h : s.IsClean) : s.printed.IsClean where
  host := not_mem_marks (by decide +kernel) h.host
  undisguised := not_mem_marks (by decide +kernel) h.undisguised
  port := (isPort_portDigits h.port.in_range).of_value
  ending := by simp [Spelling.printed, emptyEndings]

private theorem IsReadable.bracketed_of_mem (h : s.IsReadable) {d : Char} (hd : d ∈ ['[', ':'])
    (hmem : d ∈ normalHost s.host) : s.bracketed = true := by
  have hunreached : ['[', ':'].all isUnreached = true := by decide +kernel
  have hhost := mem_of_mem_normalHost (List.all_eq_true.mp hunreached d hd) hmem
  refine eq_true_of_ne_false fun hb => ?_
  simp only [List.mem_cons, List.not_mem_nil, or_false] at hd
  rcases hd with rfl | rfl
  · exact (h.plain hb).1 hhost
  · exact (h.plain hb).2 hhost

theorem IsReadable.printed (h : s.IsReadable) (hkeeps : ¬ LosesBrackets (normalHost s.host)) :
    s.printed.IsReadable where
  toIsClean := h.toIsClean.printed
  plain hb := by
    have hcolon : ':' ∉ normalHost s.host := of_decide_eq_false hb
    exact ⟨fun hopen => hkeeps ⟨hopen, hcolon⟩, hcolon⟩
  enclosed hb := by
    have hcolon : ':' ∈ normalHost s.host := of_decide_eq_true hb
    exact (h.enclosed (h.bracketed_of_mem (by simp) hcolon)).normalHost

theorem IsReadable.isFutureAddress (h : s.IsReadable) (hloses : LosesBrackets (normalHost s.host)) :
    isFutureAddress (normalHost s.host) = true := by
  obtain ⟨hopen, hcolon⟩ := hloses
  have hb := h.bracketed_of_mem (by simp) hopen
  refine ((h.enclosed hb).normalHost).resolve_right fun hipv6 => hcolon ?_
  exact (List.takeWhile_prefix _).subset (isIpv6_iff.mp hipv6).1.colon_mem

private theorem kept_address_text (h : s.IsClean) {value : String} (htext : s.text = kept value) :
    kept s.address.text = s.printed.text := by
  have hspelled : ∀ c ∈ s.host, c ∉ ['\t', '\r', '\n'] := by
    intro c hc
    have hmem : c ∈ kept value :=
      htext ▸ List.mem_append_left _ (mem_authority_of_mem_host hc)
    exact not_mem_kept hmem
  have hhost := not_mem_marks (by decide +kernel) hspelled
  rw [kept_eq_self, toList_address_text]
  intro c hc hdropped
  rw [toList_address_text, text_printed] at hc
  simp only [List.mem_cons, List.not_mem_nil, or_false] at hdropped
  rcases hdropped with rfl | rfl | rfl
  all_goals
    exact h.printed.not_mem_authority (fun hin => hhost _ hin (by decide)) (fun _ => by decide)
      (by decide) (by decide) hc

end Spelling

private theorem parse_text {value : String} {a : ListenAddress} (h : parse value = .ok a) :
    parse a.text =
      if LosesBrackets a.host.toList then .error .brackets else .ok a := by
  obtain ⟨s, hs, htext, rfl⟩ := parse_eq_ok_iff_spelling.mp h
  have hkept := Spelling.kept_address_text hs.toIsClean htext
  have hhost : s.address.host.toList = normalHost s.host := String.toList_ofList
  rw [hhost]
  split
  case isTrue hloses =>
    have hclean := hs.toIsClean.printed
    have hb : s.printed.bracketed = false := decide_eq_false hloses.2
    have hopen : '[' ∈ s.printed.authority := by
      rw [Spelling.authority_plain hb]
      exact List.mem_append_left _ hloses.1
    refine parse_eq_error_of_checkBrackets ?_
    rw [hkept, hclean.ofChars_text]
    exact checkBrackets_of_not_mem_close hopen (hclean.close_not_mem_authority hb)
  case isFalse hkeeps =>
    rw [(hs.printed hkeeps).parse_eq_ok hkept.symm, Spelling.printed_address]

/-- The printed form of an address that has been read is read as the same address, except that a
host with an opening bracket and no colon, which only an address of a future version can be, is
refused for its brackets. What is read from a printed form is printed in that form again. -/
theorem reads_back_printed {value : String} {a : ListenAddress} (h : parse value = .ok a) :
    (parse a.text = if LosesBrackets a.host.toList then .error .brackets else .ok a) ∧
      (LosesBrackets a.host.toList → isFutureAddress a.host.toList = true) ∧
      ∀ b, parse a.text = .ok b → b.text = a.text := by
  have hprinted := parse_text h
  refine ⟨hprinted, ?_, ?_⟩
  · obtain ⟨s, hs, -, rfl⟩ := parse_eq_ok_iff_spelling.mp h
    have hhost : s.address.host.toList = normalHost s.host := String.toList_ofList
    rw [hhost]
    exact hs.isFutureAddress
  · intro b hb
    rw [hprinted] at hb
    split at hb
    · cases hb
    · rw [Except.ok.inj hb]

theorem reads_back_printed_zone :
    parse "[FE80::1%Eth0]:08080" = .ok ⟨"fe80::1%Eth0", 8080⟩ ∧
      parse (ListenAddress.text ⟨"fe80::1%Eth0", 8080⟩) = .ok ⟨"fe80::1%Eth0", 8080⟩ := by
  have hread : parse "[FE80::1%Eth0]:08080" = .ok ⟨"fe80::1%Eth0", 8080⟩ := rfl
  exact ⟨hread, (reads_back_printed hread).1.trans (if_neg (by decide))⟩

/-- An address of a future version with a bracket in it is read, and printed as a text that is
not. -/
theorem future_address_loses_brackets :
    ¬ ∀ (value : String) (a : ListenAddress), parse value = .ok a → parse a.text = .ok a := by
  intro h
  have hread : parse "[v1.[]:80" = .ok ⟨"v1.[", 80⟩ := rfl
  have hprinted : parse (ListenAddress.text ⟨"v1.[", 80⟩) = .error .brackets := rfl
  rw [h _ _ hread] at hprinted
  cases hprinted

end TlsGate.Address
