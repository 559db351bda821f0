import TlsGate.Proofs.Address.Host
import TlsGate.Proofs.Except

/-!
Which texts are read as listen addresses. A text that is read is a host, as it is or between
brackets, a colon and the digits of a port. Nothing else can stand in it but the marks in front of
an empty query and an empty fragment, which no check can tell from a query and a fragment that are
not there.
-/

set_option autoImplicit false
set_option relaxedAutoImplicit false

namespace TlsGate.Address

open TlsGate.Text

section Reading

variable {l authority host after : List Char} {port : Nat}

/-! ## The parts of a reference -/

def isEnd (c : Char) : Bool := c = '/' || c = '?' || c = '#'

def emptyEndings : List (List Char) := [[], ['?'], ['#'], ['?', '#']]

private theorem ofChars_eq (l : List Char) :
    Reference.ofChars l =
      ⟨l.takeWhile (!isEnd ·), (cutFirst '?' (cutFirst '#' (l.dropWhile (!isEnd ·))).1).1,
        (cutFirst '?' (cutFirst '#' (l.dropWhile (!isEnd ·))).1).2.getD [],
        (cutFirst '#' (l.dropWhile (!isEnd ·))).2.getD []⟩ :=
  rfl

private theorem eq_of_getD_cutFirst_eq_nil {sep : Char} (h : (cutFirst sep l).2.getD [] = []) :
    l = (cutFirst sep l).1 ∨ l = (cutFirst sep l).1 ++ [sep] := by
  rcases cutFirst_cases sep l with ⟨-, hcut⟩ | ⟨before, after, hl, -, hcut⟩
  · exact .inl (by rw [hcut])
  · rw [hcut, Option.getD_some] at h
    rw [hcut]
    exact .inr (h ▸ hl)

private theorem mem_emptyEndings (hpath : (cutFirst '?' (cutFirst '#' l).1).1 = [])
    (hquery : (cutFirst '?' (cutFirst '#' l).1).2.getD [] = [])
    (hfragment : (cutFirst '#' l).2.getD [] = []) : l ∈ emptyEndings := by
  have hbefore : (cutFirst '#' l).1 = [] ∨ (cutFirst '#' l).1 = ['?'] := by
    have hcut := eq_of_getD_cutFirst_eq_nil hquery
    rwa [hpath] at hcut
  have hl := eq_of_getD_cutFirst_eq_nil hfragment
  unfold emptyEndings
  rcases hbefore with hbefore | hbefore <;> rw [hbefore] at hl <;> rcases hl with rfl | rfl <;> simp

private theorem ofChars_eq_iff :
    Reference.ofChars l = ⟨authority, [], [], []⟩ ↔
      (∀ c ∈ authority, isEnd c = false) ∧ ∃ ending ∈ emptyEndings, l = authority ++ ending := by
  rw [ofChars_eq]
  constructor
  · intro h
    obtain ⟨rfl, hpath, hquery, hfragment⟩ := Reference.mk.inj h
    refine ⟨fun c hc => ?_, l.dropWhile (!isEnd ·), mem_emptyEndings hpath hquery hfragment, ?_⟩
    · simpa using List.all_eq_true.mp List.all_takeWhile c hc
    · exact List.takeWhile_append_dropWhile.symm
  · rintro ⟨hauthority, ending, hending, rfl⟩
    have hpass : ∀ c ∈ authority, (!isEnd c) = true := fun c hc => by rw [hauthority c hc]; rfl
    rw [List.takeWhile_append_of_pos hpass, List.dropWhile_append_of_pos hpass]
    simp only [emptyEndings, List.mem_cons, List.not_mem_nil, or_false] at hending
    rcases hending with rfl | rfl | rfl | rfl <;> simp [isEnd, cutFirst]

/-- What stands in an authority that is a host and a port alone: no mark that ends it, none of user
info and no delimiter in disguise. -/
structure IsBare (authority : List Char) : Prop where
  ends : ∀ c ∈ authority, isEnd c = false
  at_not_mem : '@' ∉ authority
  undisguised : ∀ c ∈ authority, c ∉ disguisedDelimiters

/-! ## The port -/

structure IsPort (digits : List Char) (port : Nat) : Prop where
  nonempty : digits ≠ []
  digit : ∀ c ∈ digits, isDigit c = true
  short : digits.length ≤ maxDigits
  value : decimalValue digits = port
  in_range : port ≤ 65535

theorem IsPort.of_value (h : IsPort l port) : IsPort l (decimalValue l) :=
  h.value ▸ h

private theorem parsePort_eq_some_iff : parsePort l = .ok (some port) ↔ IsPort l port := by
  unfold parsePort
  constructor
  · intro h
    split at h
    case isTrue => cases h
    case isFalse hnonempty =>
      split at h
      case isTrue => cases h
      case isFalse hdigit =>
        split at h
        case isTrue => cases h
        case isFalse hshort =>
          simp only at h
          split at h
          case isTrue => cases h
          case isFalse hrange =>
            obtain rfl := Option.some.inj (Except.ok.inj h)
            refine ⟨by simpa using hnonempty, by simpa using hdigit, ?_, rfl, ?_⟩
            · exact Nat.le_of_not_lt hshort
            · exact Nat.le_of_not_lt hrange
  · rintro ⟨hnonempty, hdigit, hshort, rfl, hrange⟩
    rw [if_neg (by simpa using hnonempty), if_neg (by simpa using hdigit),
      if_neg (Nat.not_lt_of_le hshort)]
    exact if_neg (Nat.not_lt_of_le hrange)

/-! ## The host -/

private theorem hostAndPort_of_not_mem (hopen : '[' ∉ authority) :
    hostAndPort authority = ((cutFirst ':' authority).1, (cutFirst ':' authority).2.getD []) := by
  rw [hostAndPort, cutFirst_word hopen]

private theorem hostAndPort_enclosed (hclose : ']' ∉ host) (after : List Char) :
    hostAndPort ('[' :: (host ++ ']' :: after)) = (host, (cutFirst ':' after).2.getD []) := by
  rw [hostAndPort, cutFirst_cons]
  simp only [cutFirst_append hclose, Option.getD_some]

private theorem checkBrackets_of_not_mem (hopen : '[' ∉ authority) (hclose : ']' ∉ authority) :
    checkBrackets authority = .ok () := by
  simp [checkBrackets, hopen, hclose]

theorem checkBrackets_of_not_mem_close (hopen : '[' ∈ authority) (hclose : ']' ∉ authority) :
    checkBrackets authority = .error .brackets := by
  simp [checkBrackets, hopen, hclose]

private theorem checkBrackets_enclosed_iff (hat : '@' ∉ '[' :: (host ++ ']' :: after))
    (hclose : ']' ∉ host) :
    checkBrackets ('[' :: (host ++ ']' :: after)) = .ok () ↔
      IsAddress host ∧ (after = [] ∨ after.head? = some ':') := by
  have hmem : ('[' :: (host ++ ']' :: after)).contains '[' = true := by simp
  have hmem' : ('[' :: (host ++ ']' :: after)).contains ']' = true := by simp
  simp only [checkBrackets, hmem, hmem', cutLast_word hat, cutFirst_cons,
    cutFirst_append hclose, ← checkBracketedHost_eq_ok_iff]
  cases after with
  | nil => simp
  | cons c rest => by_cases hc : c = ':' <;> simp [hc]

private theorem of_checkBrackets (hat : '@' ∉ authority) (h : checkBrackets authority = .ok ()) :
    ('[' ∉ authority ∧ ']' ∉ authority) ∨
      ∃ host after, authority = '[' :: (host ++ ']' :: after) ∧ ']' ∉ host := by
  by_cases hopen : '[' ∈ authority
  · right
    have hclose : ']' ∈ authority := Decidable.byContradiction fun hclose => by
      rw [checkBrackets_of_not_mem_close hopen hclose] at h
      cases h
    obtain hnone | ⟨before, inside, rfl, -, hcut⟩ := cutFirst_cases '[' authority
    · exact absurd hopen hnone.1
    · simp only [checkBrackets, List.contains_iff_mem.mpr hopen, List.contains_iff_mem.mpr hclose,
        cutLast_word hat, hcut] at h
      -- the check asks that nothing stands in front of the opening bracket
      cases before with
      | cons c before => simp at h
      | nil =>
        have hmem : ']' ∈ inside := by simpa using hclose
        obtain hnone | ⟨host, after, rfl, hhost, -⟩ := cutFirst_cases ']' inside
        · exact absurd hmem hnone.1
        · exact ⟨host, after, rfl, hhost⟩
  · left
    refine ⟨hopen, fun hclose => ?_⟩
    simp [checkBrackets, hopen, hclose] at h

/-! ## The whole text -/

/-- A text as it is read: the characters that are dropped wherever they stand are not in it. -/
def kept (value : String) : List Char := value.toList.filter (!isDropped ·)

private theorem parse_eq_ok_iff {value : String} {a : ListenAddress} :
    parse value = .ok a ↔ ∃ authority port,
      IsBare authority ∧ (∃ ending ∈ emptyEndings, kept value = authority ++ ending) ∧
      checkBrackets authority = .ok () ∧ IsPort (hostAndPort authority).2 port ∧
      a = ⟨String.ofList (normalHost (hostAndPort authority).1), port⟩ := by
  unfold parse
  rw [← kept]
  constructor
  · generalize hreference : Reference.ofChars (kept value) = reference
    obtain ⟨authority, path, query, fragment⟩ := reference
    simp only [bind_eq_ok_iff, check_bind_eq_ok_iff]
    rintro ⟨_, hbrackets, hundisguised, port?, hport, h⟩
    cases port? with
    | none => cases h
    | some port =>
      simp only [check_bind_eq_ok_iff, isSome_cutLast_iff] at h
      obtain ⟨hparts, hat, h⟩ := h
      -- without user info to cut off, the host and the port are read from the whole authority
      rw [cutLast_word hat] at hport h
      obtain ⟨⟨rfl, rfl⟩, rfl⟩ : (path = [] ∧ query = []) ∧ fragment = [] := by simpa using hparts
      obtain ⟨hends, hending⟩ := ofChars_eq_iff.mp hreference
      exact ⟨authority, port, ⟨hends, hat, by simpa using hundisguised⟩, hending, hbrackets,
        parsePort_eq_some_iff.mp hport, (Except.ok.inj h).symm⟩
  · rintro ⟨authority, port, hbare, hending, hbrackets, hport, rfl⟩
    rw [ofChars_eq_iff.mpr ⟨hbare.ends, hending⟩]
    simp only [bind_eq_ok_iff, check_bind_eq_ok_iff]
    refine ⟨(), hbrackets, by simpa using hbare.undisguised, some port, ?_, ?_⟩
    · rw [cutLast_word hbare.at_not_mem]
      exact parsePort_eq_some_iff.mpr hport
    · simp only [check_bind_eq_ok_iff, cutLast_word hbare.at_not_mem]
      exact ⟨by simp, by simp, rfl⟩

end Reading

/-! ## Spellings -/

/-- A way to write a host and a port. -/
structure Spelling where
  host : List Char
  bracketed : Bool
  digits : List Char
  ending : List Char

namespace Spelling

def written (s : Spelling) : List Char := if s.bracketed then '[' :: (s.host ++ [']']) else s.host

def authority (s : Spelling) : List Char := s.written ++ ':' :: s.digits

def text (s : Spelling) : List Char := s.authority ++ s.ending

def port (s : Spelling) : Nat := decimalValue s.digits

def address (s : Spelling) : ListenAddress := ⟨String.ofList (normalHost s.host), s.port⟩

structure IsClean (s : Spelling) : Prop where
  host : ∀ c ∈ s.host, c ∉ ['/', '?', '#', '@', ']']
  undisguised : ∀ c ∈ s.host, c ∉ disguisedDelimiters
  port : IsPort s.digits s.port
  ending : s.ending ∈ emptyEndings

/-- What a spelling has to be to be read. Brackets stand around an IPv6 address or an address of a
future version, whose zone or text may have an opening bracket in it. -/
structure IsReadable (s : Spelling) : Prop extends IsClean s where
  plain : s.bracketed = false → '[' ∉ s.host ∧ ':' ∉ s.host
  enclosed : s.bracketed = true → IsAddress s.host

variable {s : Spelling}

theorem authority_plain (hb : s.bracketed = false) : s.authority = s.host ++ ':' :: s.digits := by
  simp [authority, written, hb]

private theorem authority_enclosed (hb : s.bracketed = true) :
    s.authority = '[' :: (s.host ++ ']' :: ':' :: s.digits) := by
  simp [authority, written, hb]

private theorem mem_authority {c : Char} (hc : c ∈ s.authority) :
    c ∈ s.host ∨ (s.bracketed = true ∧ c ∈ ['[', ']']) ∨ c = ':' ∨ c ∈ s.digits := by
  cases hb : s.bracketed with
  | false =>
    simp only [authority_plain hb, List.mem_append, List.mem_cons] at hc
    tauto
  | true =>
    simp only [authority_enclosed hb, List.mem_append, List.mem_cons] at hc
    simp only [List.mem_cons, List.not_mem_nil, or_false, true_and]
    tauto

theorem mem_authority_of_mem_host {c : Char} (hc : c ∈ s.host) : c ∈ s.authority := by
  cases hb : s.bracketed with
  | false => simp [authority_plain hb, hc]
  | true => simp [authority_enclosed hb, hc]

namespace IsClean

theorem not_mem_authority (h : s.IsClean) {d : Char} (hhost : d ∉ s.host)
    (hbracket : s.bracketed = true → d ∉ ['[', ']']) (hcolon : d ≠ ':')
    (hdigit : isDigit d = false) : d ∉ s.authority := by
  intro hd
  rcases mem_authority hd with hmem | ⟨hb, hmem⟩ | heq | hmem
  · exact hhost hmem
  · exact hbracket hb hmem
  · exact hcolon heq
  · exact absurd (h.port.digit d hmem) (by simp [hdigit])

private theorem isBare (h : s.IsClean) : IsBare s.authority where
  ends := by
    intro c hc
    refine Bool.eq_false_iff.mpr fun hend => ?_
    simp only [isEnd, Bool.or_eq_true, decide_eq_true_eq, or_assoc] at hend
    rcases hend with rfl | rfl | rfl
    all_goals
      exact h.not_mem_authority (fun hin => h.host _ hin (by decide)) (fun _ => by decide)
        (by decide) (by decide) hc
  at_not_mem :=
    h.not_mem_authority (fun hhost => h.host '@' hhost (by decide)) (fun _ => by decide)
      (by decide) (by decide)
  undisguised := by
    intro c hc hdisguised
    have hmarks : disguisedDelimiters.all
        (fun d => decide (d ∉ ['[', ']'] ∧ d ≠ ':' ∧ isDigit d = false)) = true := by decide
    obtain ⟨hbracket, hcolon, hdigit⟩ :=
      of_decide_eq_true (List.all_eq_true.mp hmarks c hdisguised)
    exact h.not_mem_authority (fun hin => h.undisguised c hin hdisguised) (fun _ => hbracket)
      hcolon hdigit hc

private theorem close_not_mem (h : s.IsClean) : ']' ∉ s.host :=
  fun hmem => h.host ']' hmem (by decide)

theorem close_not_mem_authority (h : s.IsClean) (hb : s.bracketed = false) : ']' ∉ s.authority :=
  h.not_mem_authority h.close_not_mem (fun hb' => absurd (hb ▸ hb') Bool.false_ne_true) (by decide)
    (by decide)

theorem ofChars_text (h : s.IsClean) : Reference.ofChars s.text = ⟨s.authority, [], [], []⟩ :=
  ofChars_eq_iff.mpr ⟨h.isBare.ends, s.ending, h.ending, rfl⟩

end IsClean

namespace IsReadable

private theorem open_not_mem_authority (h : s.IsReadable) (hb : s.bracketed = false) :
    '[' ∉ s.authority :=
  h.not_mem_authority (h.plain hb).1 (fun hb' => absurd (hb ▸ hb') Bool.false_ne_true) (by decide)
    (by decide)

private theorem checkBrackets_authority (h : s.IsReadable) : checkBrackets s.authority = .ok
    () := by
  cases hb : s.bracketed with
  | false =>
    exact checkBrackets_of_not_mem (h.open_not_mem_authority hb) (h.close_not_mem_authority hb)
  | true =>
    have hat := h.isBare.at_not_mem
    rw [authority_enclosed hb] at hat ⊢
    exact (checkBrackets_enclosed_iff hat h.close_not_mem).mpr ⟨h.enclosed hb, .inr rfl⟩

private theorem hostAndPort_authority (h : s.IsReadable) :
    hostAndPort s.authority = (s.host, s.digits) := by
  cases hb : s.bracketed with
  | false =>
    rw [hostAndPort_of_not_mem (h.open_not_mem_authority hb), authority_plain hb,
      cutFirst_append (h.plain hb).2, Option.getD_some]
  | true =>
    rw [authority_enclosed hb, hostAndPort_enclosed h.close_not_mem, cutFirst_cons,
      Option.getD_some]

theorem parse_eq_ok (h : s.IsReadable) {value : String} (htext : s.text = kept value) :
    parse value = .ok s.address := by
  refine parse_eq_ok_iff.mpr ⟨s.authority, s.port, h.isBare, ⟨s.ending, h.ending, htext.symm⟩,
    h.checkBrackets_authority, ?_, ?_⟩
  · rw [h.hostAndPort_authority]
    exact h.port
  · rw [h.hostAndPort_authority]
    rfl

end IsReadable

private theorem isClean_of_isBare (h : IsBare s.authority) (hclose : ']' ∉ s.host)
    (hport : IsPort s.digits s.port) (hending : s.ending ∈ emptyEndings) : s.IsClean where
  host := by
    intro c hc hmark
    have hend := h.ends c (mem_authority_of_mem_host hc)
    simp only [List.mem_cons, List.not_mem_nil, or_false] at hmark
    rcases hmark with rfl | rfl | rfl | rfl | rfl
    · cases hend
    · cases hend
    · cases hend
    · exact h.at_not_mem (mem_authority_of_mem_host hc)
    · exact hclose hc
  undisguised c hc := h.undisguised c (mem_authority_of_mem_host hc)
  port := hport
  ending := hending

private theorem exists_plain {auth ending : List Char} {port : Nat} (h : IsBare auth)
    (hopen : '[' ∉ auth)
    (hclose : ']' ∉ auth) (hport : IsPort (hostAndPort auth).2 port)
    (hending : ending ∈ emptyEndings) :
    ∃ s : Spelling, s.IsReadable ∧ s.authority = auth ∧ s.ending = ending ∧
      hostAndPort auth = (s.host, s.digits) := by
  rw [hostAndPort_of_not_mem hopen] at hport ⊢
  rcases cutFirst_cases ':' auth with ⟨-, hcut⟩ | ⟨host, digits, rfl, hcolon, hcut⟩
  · rw [hcut] at hport
    exact absurd rfl hport.nonempty
  · rw [hcut] at hport ⊢
    have hhost : ∀ c ∈ host, c ∈ host ++ ':' :: digits := fun c => List.mem_append_left _
    refine ⟨⟨host, false, digits, ending⟩, ?_, rfl, rfl, rfl⟩
    exact {
      toIsClean := isClean_of_isBare h (mt (hhost _) hclose) hport.of_value hending
      plain := fun _ => ⟨mt (hhost _) hopen, hcolon⟩
      enclosed := fun hb => by cases hb }

private theorem exists_enclosed {host after ending : List Char} {port : Nat}
    (h : IsBare ('[' :: (host ++ ']' :: after))) (hclose : ']' ∉ host)
    (hbrackets : checkBrackets ('[' :: (host ++ ']' :: after)) = .ok ())
    (hport : IsPort (hostAndPort ('[' :: (host ++ ']' :: after))).2 port)
    (hending : ending ∈ emptyEndings) :
    ∃ s : Spelling, s.IsReadable ∧ s.authority = '[' :: (host ++ ']' :: after) ∧
      s.ending = ending ∧ hostAndPort ('[' :: (host ++ ']' :: after)) = (s.host, s.digits) := by
  rw [hostAndPort_enclosed hclose] at hport ⊢
  obtain ⟨haddress, rfl | hafter⟩ := (checkBrackets_enclosed_iff h.at_not_mem hclose).mp hbrackets
  · exact absurd rfl hport.nonempty
  · obtain ⟨digits, rfl⟩ := List.head?_eq_some_iff.mp hafter
    rw [cutFirst_cons] at hport ⊢
    have hauthority := @authority_enclosed ⟨host, true, digits, ending⟩ rfl
    refine ⟨⟨host, true, digits, ending⟩, ?_, hauthority, rfl, rfl⟩
    exact {
      toIsClean := isClean_of_isBare (hauthority ▸ h) hclose hport.of_value hending
      plain := fun hb => by cases hb
      enclosed := fun _ => haddress }

private theorem exists_authority {auth ending : List Char} {port : Nat} (h : IsBare auth)
    (hbrackets : checkBrackets auth = .ok ()) (hport : IsPort (hostAndPort auth).2 port)
    (hending : ending ∈ emptyEndings) :
    ∃ s : Spelling, s.IsReadable ∧ s.authority = auth ∧ s.ending = ending ∧
      hostAndPort auth = (s.host, s.digits) := by
  rcases of_checkBrackets h.at_not_mem hbrackets with ⟨hopen, hclose⟩ | ⟨host, after, rfl, hclose⟩
  · exact exists_plain h hopen hclose hport hending
  · exact exists_enclosed h hclose hbrackets hport hending

end Spelling

theorem parse_eq_ok_iff_spelling {value : String} {a : ListenAddress} :
    parse value = .ok a ↔ ∃ s : Spelling, s.IsReadable ∧ s.text = kept value ∧ s.address = a := by
  constructor
  · intro h
    obtain ⟨authority, port, hbare, ⟨ending, hending, htext⟩, hbrackets, hport, rfl⟩ :=
      parse_eq_ok_iff.mp h
    obtain ⟨s, hs, rfl, rfl, hparts⟩ :=
      Spelling.exists_authority hbare hbrackets hport hending
    rw [hparts] at hport
    refine ⟨s, hs, htext.symm, ?_⟩
    rw [hparts, Spelling.address, Spelling.port, hport.value]
  · rintro ⟨s, hs, htext, rfl⟩
    exact hs.parse_eq_ok htext

/-- A text is read as an address exactly if it is a host, as it is or between brackets, a colon and
the digits of a port, with nothing more than the marks of an empty query and an empty fragment. All
other texts are refused. -/
theorem reads_spelled (value : String) :
    (∀ a, parse value = .ok a ↔
      ∃ s : Spelling, s.IsReadable ∧ s.text = kept value ∧ s.address = a) ∧
    ((∃ e, parse value = .error e) ↔ ∀ s : Spelling, s.IsReadable → s.text ≠ kept value) := by
  refine ⟨fun a => parse_eq_ok_iff_spelling, ?_⟩
  constructor
  · rintro ⟨e, he⟩ s hs htext
    rw [hs.parse_eq_ok htext] at he
    cases he
  · intro hnone
    cases h : parse value with
    | error e => exact ⟨e, rfl⟩
    | ok a =>
      obtain ⟨s, hs, htext, -⟩ := parse_eq_ok_iff_spelling.mp h
      exact absurd htext (hnone s hs)

/-- The mark of an empty query stands after the digits of a port, and the text is read. -/
theorem empty_query_passes :
    ¬ ∀ (value : String) (a : ListenAddress), parse value = .ok a →
      ∃ s : Spelling, s.digits ≠ [] ∧ (∀ c ∈ s.digits, isDigit c = true) ∧ s.port ≤ 65535 ∧
        s.ending = [] ∧ s.text = kept value ∧ s.address = a := by
  intro h
  have hread : parse "example.com:8080?" = .ok ⟨"example.com", 8080⟩ := rfl
  obtain ⟨s, hnonempty, hdigit, -, hending, htext, -⟩ := h _ _ hread
  -- with no ending the last character is a digit of the port, but it is the mark
  obtain ⟨front, last, hlast⟩ := (List.eq_nil_or_concat s.digits).resolve_left hnonempty
  have hwhole : s.text = (s.written ++ ':' :: front) ++ [last] := by
    simp [Spelling.text, Spelling.authority, hending, hlast]
  have hmark : (kept "example.com:8080?").getLast? = some '?' := rfl
  rw [← htext, hwhole, List.getLast?_concat] at hmark
  obtain rfl := Option.some.inj hmark
  exact absurd (hdigit '?' (by simp [hlast])) (by decide)

end TlsGate.Address
