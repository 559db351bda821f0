import TlsGate.Address.Parse
import TlsGate.Proofs.LowerCase
import TlsGate.Proofs.Split

/-!
Hosts in lower case. The digits, the dots and the colons of an IP address tell the same in either
case, and so do the `v` and the version of an address of a future version; a zone is left as it is.
So what may stand between brackets may do so in lower case too, and a host in lower case stays as
it is.
-/

set_option autoImplicit false
set_option relaxedAutoImplicit false

namespace TlsGate.Address

open TlsGate.Text

variable {c d : Char} {l : List Char} {parts groups : List (List Char)}

/-! ## Digits -/

theorem isDigit_iff : isDigit c = true ↔ 48 ≤ c.toNat ∧ c.toNat ≤ 57 := by
  simp only [isDigit, Bool.and_eq_true, decide_eq_true_eq, Char.le_def, UInt32.le_iff_toNat_le]
  rfl

private theorem isHexDigit_iff :
    isHexDigit c = true ↔
      (48 ≤ c.toNat ∧ c.toNat ≤ 57) ∨ (97 ≤ c.toNat ∧ c.toNat ≤ 102) ∨
        (65 ≤ c.toNat ∧ c.toNat ≤ 70) := by
  simp only [isHexDigit, Bool.or_eq_true, isDigit_iff, Bool.and_eq_true, decide_eq_true_eq,
    Char.le_def, UInt32.le_iff_toNat_le, or_assoc]
  rfl

private theorem all_far_from_digits :
    lowerRuns.all (fun r => (r.first == 65 && r.last == 90 && r.shift == 32) ||
      (Nat.blt 102 r.first && Nat.blt 102 (r.image r.first))) = true := by
  decide +kernel

private theorem toNat_lowerChar_cases (c : Char) :
    lowerChar c = c ∨ (65 ≤ c.toNat ∧ c.toNat ≤ 90 ∧ (lowerChar c).toNat = c.toNat + 32) ∨
      (102 < c.toNat ∧ 102 < (lowerChar c).toNat) := by
  rcases lowerChar_cases c with h | ⟨r, hr, hmaps⟩
  · exact .inl h
  · obtain ⟨hfirst, hlast, -, hshift⟩ := hmaps
    have hfar := List.all_eq_true.mp all_far_from_digits r hr
    simp only [Bool.or_eq_true, Bool.and_eq_true, beq_iff_eq, Nat.blt_eq] at hfar
    unfold CaseRun.image at hfar hshift
    right
    rcases hfar with ⟨⟨h65, h90⟩, h32⟩ | ⟨hcapital, hsmall⟩
    · rw [h32] at hshift
      omega
    · omega

private theorem isHexDigit_lowerChar (c : Char) : isHexDigit (lowerChar c) = isHexDigit c := by
  rcases toNat_lowerChar_cases c with h | h
  · rw [h]
  · rw [Bool.eq_iff_iff, isHexDigit_iff, isHexDigit_iff]
    omega

private theorem isDigit_lowerChar (c : Char) : isDigit (lowerChar c) = isDigit c := by
  rcases toNat_lowerChar_cases c with h | h
  · rw [h]
  · rw [Bool.eq_iff_iff, isDigit_iff, isDigit_iff]
    omega

private theorem lowerChar_of_isDigit (h : isDigit c = true) : lowerChar c = c := by
  rw [isDigit_iff] at h
  rcases toNat_lowerChar_cases c with hown | hother
  · exact hown
  · omega

private theorem lowerChar_eq_colon_iff (c : Char) : lowerChar c = ':' ↔ c = ':' :=
  lowerChar_eq_iff (by decide +kernel) (by decide +kernel)

private theorem lowerChar_eq_dot_iff (c : Char) : lowerChar c = '.' ↔ c = '.' :=
  lowerChar_eq_iff (by decide +kernel) (by decide +kernel)

/-! ## Dotted quads -/

private theorem isDigit_of_mem_isOctet (h : isOctet l = true) (hc : c ∈ l) : isDigit c = true := by
  simp only [isOctet, Bool.and_eq_true] at h
  exact List.all_eq_true.mp h.1.1.1.2 c hc

private theorem isOctet_map_lowerChar (l : List Char) : isOctet (l.map lowerChar) = isOctet l := by
  by_cases h : ∀ c ∈ l, isDigit c = true
  · have hmap : l.map lowerChar = l.map id :=
      List.map_congr_left fun c hc => lowerChar_of_isDigit (h c hc)
    rw [hmap, List.map_id]
  · have hdigits {m : List Char} (hm : ¬ ∀ c ∈ m, isDigit c = true) : isOctet m = false :=
      Bool.eq_false_iff.mpr fun hoctet => hm fun c hc => isDigit_of_mem_isOctet hoctet hc
    rw [hdigits h, hdigits]
    simpa [isDigit_lowerChar] using h

private theorem isIpv4_map_lowerChar (l : List Char) : isIpv4 (l.map lowerChar) = isIpv4 l := by
  have hoctet : isOctet ∘ List.map lowerChar = isOctet := funext isOctet_map_lowerChar
  simp only [isIpv4, fields_map lowerChar_eq_dot_iff, List.length_map, List.all_map, hoctet]

private theorem mem_of_isIpv4 (h : isIpv4 l = true) (hc : c ∈ l) : isDigit c = true ∨ c = '.' := by
  simp only [isIpv4, Bool.and_eq_true] at h
  rcases exists_mem_fields_of_mem '.' hc with hdot | ⟨word, hword, hmem⟩
  · exact .inr hdot
  · exact .inl (isDigit_of_mem_isOctet (List.all_eq_true.mp h.2 word hword) hmem)

/-! ## Groups of hexadecimal digits -/

private theorem isHextet_map_lowerChar (l : List Char) : isHextet
    (l.map lowerChar) = isHextet l := by
  have hhex : isHexDigit ∘ lowerChar = isHexDigit := funext isHexDigit_lowerChar
  simp only [isHextet, List.isEmpty_map, List.all_map, List.length_map, hhex]

private theorem map_beq_gap (parts : List (List Char)) :
    (parts.map (List.map lowerChar) == [[]]) = (parts == [[]]) := by
  match parts with
  | [] => rfl
  | [[]] => rfl
  | [_ :: _] => rfl
  | [] :: _ :: _ => rfl
  | (_ :: _) :: _ :: _ => rfl

private theorem areHextets_map_lowerChar (parts : List (List Char)) :
    areHextets (parts.map (List.map lowerChar)) = areHextets parts := by
  have hempty : List.isEmpty ∘ List.map lowerChar = List.isEmpty (α := Char) :=
    funext fun _ => List.isEmpty_map
  have hhextet : isHextet ∘ List.map lowerChar = isHextet := funext isHextet_map_lowerChar
  simp only [areHextets, ← List.map_drop, ← List.map_dropLast, List.findIdx?_map, hempty,
    ← List.map_take, map_beq_gap, List.any_map, List.all_map, hhextet, List.length_map]

private theorem hextetGroups_map_lowerChar (parts : List (List Char)) :
    hextetGroups (parts.map (List.map lowerChar)) =
      (hextetGroups parts).map (List.map (List.map lowerChar)) := by
  unfold hextetGroups
  rw [List.getLast?_map]
  cases parts.getLast? with
  | none => rfl
  | some last =>
    have hdot : (last.map lowerChar).contains '.' = last.contains '.' := by
      rw [Bool.eq_iff_iff, List.contains_iff_mem, List.contains_iff_mem, List.mem_map]
      simp [lowerChar_eq_dot_iff]
    have hzero : lowerChar '0' = '0' := lowerChar_of_isDigit rfl
    simp only [Option.map_some, hdot, isIpv4_map_lowerChar]
    split
    · split <;> simp [hzero]
    · rfl

private theorem isHexDigit_of_areHextets (h : areHextets groups = true) {group : List Char}
    (hgroup : group ∈ groups) (hc : c ∈ group) : isHexDigit c = true := by
  have hhextet {p : List Char} (hp : isHextet p = true) (hmem : c ∈ p) : isHexDigit c = true := by
    simp only [isHextet, Bool.and_eq_true] at hp
    exact List.all_eq_true.mp hp.1.2 c hmem
  -- a side of the gap is left empty or has hextets only
  have hside {side : List (List Char)} (hs : (side == [[]] || side.all isHextet) = true)
      (hmem : group ∈ side) : isHexDigit c = true := by
    rcases Bool.or_eq_true_iff.mp hs with hs | hs
    · rw [beq_iff_eq.mp hs, List.mem_singleton] at hmem
      rw [hmem] at hc
      cases hc
    · exact hhextet (List.all_eq_true.mp hs group hmem) hc
  unfold areHextets at h
  cases hfind : ((groups.drop 1).dropLast).findIdx? List.isEmpty with
  | none =>
    simp only [hfind, Bool.and_eq_true] at h
    exact hhextet (List.all_eq_true.mp h.2 group hgroup) hc
  | some before =>
    simp only [hfind, Bool.and_eq_true] at h
    obtain ⟨⟨⟨-, hhigh⟩, hlow⟩, -⟩ := h
    obtain ⟨hlt, hgap, -⟩ := List.findIdx?_eq_some_iff_getElem.mp hfind
    simp only [List.length_dropLast, List.length_drop] at hlt
    simp only [List.getElem_dropLast, List.getElem_drop, List.isEmpty_iff,
      Nat.add_comm 1 before] at hgap
    have hlength : before + 1 < groups.length := by omega
    have hsplit : groups = groups.take (before + 1) ++ [] :: groups.drop (before + 2) := by
      rw [← hgap, List.getElem_cons_drop, List.take_append_drop]
    rw [hsplit] at hgroup
    rcases List.mem_append.mp hgroup with hmem | hmem
    · exact hside hhigh hmem
    · rcases List.mem_cons.mp hmem with rfl | hmem
      · cases hc
      · exact hside hlow hmem

private theorem mem_of_hextetGroups (h : hextetGroups parts = some groups)
    (hhex : areHextets groups = true)
    {part : List Char} (hpart : part ∈ parts) (hc : c ∈ part) :
    isHexDigit c = true ∨ c = '.' := by
  unfold hextetGroups at h
  cases hlast : parts.getLast? with
  | none =>
    rw [List.getLast?_eq_none_iff.mp hlast] at hpart
    cases hpart
  | some last =>
    rw [hlast] at h
    simp only at h
    split at h
    case isFalse =>
      obtain rfl := Option.some.inj h
      exact .inl (isHexDigit_of_areHextets hhex hpart hc)
    case isTrue =>
      split at h
      case isFalse => cases h
      case isTrue hquad =>
        obtain rfl := Option.some.inj h
        obtain ⟨front, rfl⟩ := List.getLast?_eq_some_iff.mp hlast
        rw [List.dropLast_concat] at hhex
        rcases List.mem_append.mp hpart with hmem | hmem
        · exact .inl (isHexDigit_of_areHextets hhex (List.mem_append_left _ hmem) hc)
        · obtain rfl := List.mem_singleton.mp hmem
          refine (mem_of_isIpv4 hquad hc).imp_left fun hdigit => ?_
          simp [isHexDigit, hdigit]

/-! ## IPv6 addresses -/

structure IsHextets (name : List Char) : Prop where
  colons : 3 ≤ (fields ':' name).length
  groups : ∃ groups, hextetGroups (fields ':' name) = some groups ∧ groups.length ≤ 9 ∧
    areHextets groups = true

def IsZone (zone : Option (List Char)) : Prop := ∀ z ∈ zone, z ≠ [] ∧ '%' ∉ z

theorem isIpv6_iff :
    isIpv6 l = true ↔ IsHextets (cutFirst '%' l).1 ∧ IsZone (cutFirst '%' l).2 := by
  unfold isIpv6
  obtain ⟨name, zone⟩ := cutFirst '%' l
  simp only [Bool.and_eq_true, decide_eq_true_eq]
  constructor
  · rintro ⟨⟨hzone, hcolons⟩, hgroups⟩
    refine ⟨⟨hcolons, ?_⟩, ?_⟩
    · split at hgroups
      case h_1 => cases hgroups
      case h_2 groups hsome =>
        simp only [Bool.and_eq_true, decide_eq_true_eq] at hgroups
        exact ⟨groups, hsome, hgroups⟩
    · cases zone with
      | none => simp [IsZone]
      | some zone => simpa [IsZone] using hzone
  · rintro ⟨⟨hcolons, groups, hsome, hgroups⟩, hzone⟩
    refine ⟨⟨?_, hcolons⟩, ?_⟩
    · cases zone with
      | none => rfl
      | some zone => simpa [IsZone] using hzone
    · simpa only [hsome, Bool.and_eq_true, decide_eq_true_eq] using hgroups

namespace IsHextets

variable {name : List Char}

theorem colon_mem (h : IsHextets name) : ':' ∈ name :=
  mem_of_length_fields (Nat.lt_of_lt_of_le (by decide) h.colons)

private theorem of_mem (h : IsHextets name) (hc : c ∈ name) :
    c = ':' ∨ isHexDigit c = true ∨ c = '.' := by
  obtain ⟨groups, hsome, -, hhex⟩ := h.groups
  refine (exists_mem_fields_of_mem ':' hc).imp_right fun ⟨part, hpart, hmem⟩ => ?_
  exact mem_of_hextetGroups hsome hhex hpart hmem

theorem isRegular (h : IsHextets name) (hc : c ∈ name) : IsRegular c := by
  constructor <;> rintro rfl <;> exact absurd (h.of_mem hc) (by decide)

private theorem map_lowerChar (h : IsHextets name) : IsHextets (name.map lowerChar) := by
  obtain ⟨hcolons, groups, hsome, hlength, hhex⟩ := h
  constructor
  · rwa [fields_map lowerChar_eq_colon_iff, List.length_map]
  · refine ⟨groups.map (List.map lowerChar), ?_, ?_, ?_⟩
    · rw [fields_map lowerChar_eq_colon_iff, hextetGroups_map_lowerChar, hsome, Option.map_some]
    · rwa [List.length_map]
    · rwa [areHextets_map_lowerChar]

end IsHextets

/-! ## Addresses of a future version -/

private theorem isFutureAddress_iff :
    isFutureAddress l = true ↔ ∃ version address, l = 'v' :: (version ++ '.' :: address) ∧
      version ≠ [] ∧ (∀ c ∈ version, isHexDigit c = true) ∧ address ≠ [] ∧ '\n' ∉ address := by
  constructor
  · intro h
    unfold isFutureAddress at h
    split at h
    case h_2 => cases h
    case h_1 rest =>
      simp only [Bool.and_eq_true, Bool.not_eq_true', List.isEmpty_eq_false_iff] at h
      obtain ⟨hversion, h⟩ := h
      split at h
      case h_2 => cases h
      case h_1 address hrest =>
        refine ⟨rest.takeWhile isHexDigit, address, ?_, hversion, ?_, ?_⟩
        · rw [← hrest, List.takeWhile_append_dropWhile]
        · exact List.all_eq_true.mp List.all_takeWhile
        · simpa using h
  · rintro ⟨version, address, rfl, hversion, hhex, haddress, hfeed⟩
    have htake : (version ++ '.' :: address).takeWhile isHexDigit = version := by
      rw [List.takeWhile_append_of_pos hhex, List.takeWhile_cons_of_neg (by decide),
        List.append_nil]
    have hdrop : (version ++ '.' :: address).dropWhile isHexDigit = '.' :: address := by
      rw [List.dropWhile_append_of_pos hhex, List.dropWhile_cons_of_neg (by decide)]
    simp [isFutureAddress, htake, hdrop, hversion, haddress, hfeed]

/-! ## Between brackets -/

def IsAddress (host : List Char) : Prop := isFutureAddress host = true ∨ isIpv6 host = true

theorem checkBracketedHost_eq_ok_iff : checkBracketedHost l = .ok () ↔ IsAddress l := by
  have hv (h : isIpv6 l = true) : l.head? ≠ some 'v' := by
    intro hhead
    obtain ⟨rest, rfl⟩ := List.head?_eq_some_iff.mp hhead
    have hmem : 'v' ∈ (cutFirst '%' ('v' :: rest)).1 := by simp [cutFirst]
    exact absurd ((isIpv6_iff.mp h).1.of_mem hmem) (by decide)
  have hquad (h : isIpv6 l = true) : isIpv4 l = false := by
    refine Bool.eq_false_iff.mpr fun hipv4 => ?_
    have hcolon := (isIpv6_iff.mp h).1.colon_mem
    have hmem : ':' ∈ l := (List.takeWhile_prefix _).subset hcolon
    exact absurd (mem_of_isIpv4 hipv4 hmem) (by decide)
  unfold checkBracketedHost IsAddress
  constructor
  · intro h
    split at h
    · split at h
      · exact .inl ‹_›
      · cases h
    · split at h
      · cases h
      · split at h
        · exact .inr ‹_›
        · cases h
  · rintro (h | h)
    · obtain ⟨version, address, rfl, -⟩ := isFutureAddress_iff.mp h
      rw [if_pos List.head?_cons, if_pos h]
    · rw [if_neg (hv h), hquad h, if_neg Bool.false_ne_true, if_pos h]

/-! ## Hosts in lower case -/

private theorem isUnreached_percent : isUnreached '%' = true := by
  decide +kernel

private theorem normalHost_of_not_mem (h : '%' ∉ l) : normalHost l = toLower l := by
  rw [normalHost, cutFirst_word h]

private theorem normalHost_zone {name : List Char} (h : '%' ∉ name) (zone : List Char) :
    normalHost (name ++ '%' :: zone) = toLower name ++ '%' :: zone := by
  rw [normalHost, cutFirst_append h]

private theorem percent_not_mem_toLower {name : List Char} (h : '%' ∉ name) : '%' ∉ toLower name :=
  mt (mem_of_mem_lowerFrom isUnreached_percent) h

private theorem cutFirst_normalHost (l : List Char) :
    cutFirst '%' (normalHost l) = (toLower (cutFirst '%' l).1, (cutFirst '%' l).2) := by
  rcases cutFirst_cases '%' l with ⟨h, hcut⟩ | ⟨name, zone, rfl, h, hcut⟩
  · rw [normalHost_of_not_mem h, cutFirst_word (percent_not_mem_toLower h), hcut]
  · rw [normalHost_zone h, cutFirst_append (percent_not_mem_toLower h), hcut]

theorem normalHost_normalHost (l : List Char) : normalHost (normalHost l) = normalHost l := by
  rcases cutFirst_cases '%' l with ⟨h, -⟩ | ⟨name, zone, rfl, h, -⟩
  · rw [normalHost_of_not_mem h, normalHost_of_not_mem (percent_not_mem_toLower h), toLower_toLower]
  · rw [normalHost_zone h, normalHost_zone (percent_not_mem_toLower h), toLower_toLower]

private theorem normalHost_append {word : List Char} (hword : ∀ c ∈ word, IsRegular c)
    (hzone : '%' ∉ word)
    (rest : List Char) :
    ∃ rest', normalHost (word ++ rest) = word.map lowerChar ++ rest' ∧ (rest ≠ [] → rest' ≠ []) ∧
      ∀ d, isUnreached d = true → d ∈ rest' → d ∈ rest := by
  rcases cutFirst_cases '%' rest with ⟨h, -⟩ | ⟨name, zone, rfl, h, -⟩
  · have hmem : '%' ∉ word ++ rest := by simp [hzone, h]
    refine ⟨lowerFrom (word.reverse ++ []) rest, ?_, mt lowerFrom_eq_nil_iff.mp, ?_⟩
    · rw [normalHost_of_not_mem hmem, toLower, lowerFrom_append hword]
    · exact fun d => mem_of_mem_lowerFrom
  · have hmem : '%' ∉ word ++ name := by simp [hzone, h]
    refine ⟨lowerFrom (word.reverse ++ []) name ++ '%' :: zone, ?_, by simp, ?_⟩
    · rw [← List.append_assoc, normalHost_zone hmem, toLower, lowerFrom_append hword,
        List.append_assoc]
    · intro d hd hmem'
      rcases List.mem_append.mp hmem' with hname | hzone'
      · exact List.mem_append_left _ (mem_of_mem_lowerFrom hd hname)
      · exact List.mem_append_right _ hzone'

theorem mem_of_mem_normalHost (hd : isUnreached d = true) (h : d ∈ normalHost l) : d ∈ l := by
  have hword : ∀ c ∈ ([] : List Char), IsRegular c := by simp
  obtain ⟨rest, hrest, -, hmem⟩ := normalHost_append hword List.not_mem_nil l
  rw [List.nil_append, List.map_nil, List.nil_append] at hrest
  exact hmem d hd (hrest ▸ h)

private theorem isIpv6_normalHost (h : isIpv6 l = true) : isIpv6 (normalHost l) = true := by
  obtain ⟨hname, hzone⟩ := isIpv6_iff.mp h
  rw [isIpv6_iff, cutFirst_normalHost, toLower_eq_map fun c => hname.isRegular]
  exact ⟨hname.map_lowerChar, hzone⟩

private theorem isFutureAddress_normalHost (h : isFutureAddress l = true) :
    isFutureAddress (normalHost l) = true := by
  obtain ⟨version, address, rfl, hversion, hhex, haddress, hfeed⟩ := isFutureAddress_iff.mp h
  have hsplit : 'v' :: (version ++ '.' :: address) = ('v' :: version ++ ['.']) ++ address := by simp
  have hplain : ∀ c ∈ 'v' :: version ++ ['.'], c = 'v' ∨ c = '.' ∨ isHexDigit c = true := by
    intro c hc
    simp only [List.cons_append, List.mem_cons, List.mem_append, List.not_mem_nil, or_false] at hc
    rcases hc with hv | hmem | hdot
    · exact .inl hv
    · exact .inr (.inr (hhex c hmem))
    · exact .inr (.inl hdot)
  -- all up to the dot is lower-cased one by one, so the dot still ends the version
  have hregular : ∀ c ∈ 'v' :: version ++ ['.'], IsRegular c := by
    intro c hc
    constructor <;> rintro rfl <;> exact absurd (hplain _ hc) (by decide)
  have hpercent : '%' ∉ 'v' :: version ++ ['.'] := fun hc => absurd (hplain _ hc) (by decide)
  obtain ⟨rest, hlower, hrest, hmem⟩ := normalHost_append hregular hpercent address
  have hv : lowerChar 'v' = 'v' := by decide +kernel
  rw [hsplit, hlower, isFutureAddress_iff]
  refine ⟨version.map lowerChar, rest, ?_, by simpa using hversion, ?_, hrest haddress, ?_⟩
  · simp [hv, (lowerChar_eq_dot_iff '.').mpr rfl]
  · simpa [isHexDigit_lowerChar] using hhex
  · exact mt (hmem '\n' (by decide +kernel)) hfeed

theorem IsAddress.normalHost (h : IsAddress l) : IsAddress (normalHost l) :=
  h.imp isFutureAddress_normalHost isIpv6_normalHost

end TlsGate.Address
