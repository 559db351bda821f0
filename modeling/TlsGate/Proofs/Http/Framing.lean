import TlsGate.Http.Head
import TlsGate.Proofs.Except
import TlsGate.Proofs.Numeral
import TlsGate.Proofs.Split

/-!
The fields that say how a body is framed. The check of the framing keeps the other fields as they
are; of those that state a length it keeps one, in at most twenty decimal digits. Read as an integer
by the rules of the runtime, which admit much more than digits and can fail, such a length is the
number that its digits write.
-/

set_option autoImplicit false
set_option relaxedAutoImplicit false

namespace TlsGate

open TlsGate.Text

namespace Http

def isFramingName (name : Bytes) : Bool := name == contentLength || name == transferEncoding

/-! ## The check of the framing, field by field -/

inductive Framed (length : Option Bytes) (coded : Bool) (f : Field) (fs : List Field) :
    List Field → Prop
  | stated {word : Bytes} {rest : List Field} (hname : f.1 = contentLength) (hnone : length = none)
      (hword : parseLength f.2 = .ok word) (hrest : checkFraming (some word) coded fs = .ok rest) :
      Framed length coded f fs ((f.1, word) :: rest)
  | repeated {word : Bytes} {rest : List Field} (hname : f.1 = contentLength)
      (hsome : length = some word) (hword : parseLength f.2 = .ok word)
      (hrest : checkFraming length coded fs = .ok rest) : Framed length coded f fs rest
  | coded {rest : List Field} (hname : f.1 = transferEncoding) (hnew : coded = false)
      (hchunked : Bytes.toLower f.2 = chunkedCoding)
      (hrest : checkFraming length true fs = .ok rest) :
      Framed length coded f fs ((f.1, Bytes.toLower f.2) :: rest)
  | kept {rest : List Field} (hlength : f.1 ≠ contentLength) (hcoding : f.1 ≠ transferEncoding)
      (hrest : checkFraming length coded fs = .ok rest) : Framed length coded f fs (f :: rest)

private theorem framed_of_checkFraming {length : Option Bytes} {coded : Bool} {f : Field}
    {fs checked : List Field} (h : checkFraming length coded (f :: fs) = .ok checked) :
    Framed length coded f fs checked := by
  obtain ⟨fieldName, value⟩ := f
  rw [checkFraming] at h
  split at h
  · rename_i hname
    obtain ⟨stated, hstated, h⟩ := ok_of_bind_eq_ok h
    split at h
    · obtain ⟨rest, hrest, h⟩ := ok_of_bind_eq_ok h
      cases h
      exact .stated hname rfl hstated hrest
    · split at h
      · cases h
      · rename_i hsame
        obtain rfl := Decidable.not_not.1 hsame
        exact .repeated hname rfl hstated h
  · rename_i hlength
    split at h
    · rename_i hname
      cases coded with
      | true => cases h
      | false =>
        by_cases hvalue : Bytes.toLower value = chunkedCoding
        · rw [if_neg Bool.false_ne_true, if_neg (not_not_intro hvalue)] at h
          obtain ⟨rest, hrest, h⟩ := ok_of_bind_eq_ok h
          cases h
          exact .coded hname rfl hvalue hrest
        · rw [if_neg Bool.false_ne_true, if_pos hvalue] at h
          cases h
    · rename_i hcoding
      obtain ⟨rest, hrest, h⟩ := ok_of_bind_eq_ok h
      cases h
      exact .kept hlength hcoding hrest

private theorem checkFraming_cons {length : Option Bytes} {coded : Bool} {f : Field}
    {fs : List Field}
    (hf : isFramingName f.1 = false) :
    checkFraming length coded (f :: fs) = (checkFraming length coded fs).map (f :: ·) := by
  obtain ⟨name, value⟩ := f
  simp only [isFramingName, Bool.or_eq_false_iff, beq_eq_false_iff_ne] at hf
  rw [checkFraming, if_neg hf.1, if_neg hf.2]
  cases checkFraming length coded fs <;> rfl

theorem checkFraming_of_none {fs : List Field} (h : fs.filter (isFramingName ·.1) = [])
    (length : Option Bytes) (coded : Bool) : checkFraming length coded fs = .ok fs := by
  induction fs with
  | nil => rfl
  | cons f fs ih =>
    cases hf : isFramingName f.1 with
    | true => simp [hf] at h
    | false =>
      rw [List.filter_cons_of_neg (by simp [hf])] at h
      rw [checkFraming_cons hf, ih h]
      rfl

theorem checkFraming_of_one {fs : List Field} {f : Field}
    (h : fs.filter (isFramingName ·.1) = [f])
    (hf : ∀ rest, rest.filter (isFramingName ·.1) = [] →
      checkFraming none false (f :: rest) = .ok (f :: rest)) :
    checkFraming none false fs = .ok fs := by
  induction fs with
  | nil => simp at h
  | cons g fs ih =>
    cases hg : isFramingName g.1 with
    | true =>
      rw [List.filter_cons_of_pos (by simp [hg])] at h
      simp only [List.cons.injEq] at h
      obtain ⟨rfl, hrest⟩ := h
      exact hf fs hrest
    | false =>
      rw [List.filter_cons_of_neg (by simp [hg])] at h
      rw [checkFraming_cons hg, ih h]
      rfl

theorem filter_framing {name : Bytes} (hname : isFramingName name = true) (fs : List Field) :
    fs.filter (·.1 == name) = (fs.filter (isFramingName ·.1)).filter (·.1 == name) := by
  rw [List.filter_filter]
  refine List.filter_congr fun f _ => ?_
  by_cases hf : f.1 = name
  · simp [hf, hname]
  · simp [hf]

theorem elements_framing {name : Bytes} (hname : isFramingName name = true) (fs : List Field) :
    elements name fs = elements name (fs.filter (isFramingName ·.1)) := by
  rw [elements, elements, ← filter_framing hname]

end Http

/-! ## Lengths as they are written -/

namespace Bytes

def isSpace (b : UInt8) : Bool := b == 32 || (9 ≤ b && b ≤ 13)

def splitSign : Bytes → Bool × Bytes
  | 45 :: rest => (true, rest)
  | 43 :: rest => (false, rest)
  | rest => (false, rest)

/-- The integer that bytes write: white space around it is dropped, a sign may stand in front, and
single underscores may stand between the digits, of which there are at most 4300. -/
def integer? (text : Bytes) : Option Int :=
  let (negative, word) := splitSign (trim isSpace text)
  let groups := fields 95 word
  let digits := groups.flatten
  if groups.any List.isEmpty || !digits.all isDigit || 4300 < digits.length then none
  else some (if negative then -(decimalValue digits : Int) else decimalValue digits)

structure IsNumber (word : Bytes) : Prop where
  ne_nil : word ≠ []
  digits : ∀ x ∈ word, isDigit x = true

structure IsLength (word : Bytes) : Prop extends IsNumber word where
  short : word.length ≤ 20

theorem isNumber_digits (n : Nat) : (digits 10 n).IsNumber :=
  ⟨digits_ne_nil (by decide) (by decide) n, fun _ => isDigit_of_mem⟩

theorem isLength_digits {n : Nat} (h : (digits 10 n).length ≤ 20) : (digits 10 n).IsLength :=
  ⟨isNumber_digits n, h⟩

private theorem notSpace_of_isDigit :
    ∀ b, isDigit b = true → isSpace b = false ∧ b ≠ 45 ∧ b ≠ 43 ∧ b ≠ 95 :=
  forall_byte (by decide +kernel)

theorem IsLength.integer? {word : Bytes} (h : word.IsLength) :
    word.integer? = some (decimalValue word : Int) := by
  have hbyte (x : UInt8) (hx : x ∈ word) := notSpace_of_isDigit x (h.digits x hx)
  have htrim : trim isSpace word = word := trim_eq_self fun x hx => (hbyte x hx).1
  have hfields : fields 95 word = [word] := by
    refine fields_word ?_
    intro hmem
    exact (hbyte 95 hmem).2.2.2 rfl
  have hall : word.all isDigit = true := List.all_eq_true.2 h.digits
  have hempty : word.isEmpty = false := List.isEmpty_eq_false_iff.2 h.ne_nil
  have hshort : ¬ 4300 < word.length := by
    have hle := h.short
    omega
  have hsign : splitSign word = (false, word) := by
    unfold splitSign
    split
    · exact absurd rfl (hbyte 45 List.mem_cons_self).2.1
    · exact absurd rfl (hbyte 43 List.mem_cons_self).2.2.1
    · rfl
  simp only [Bytes.integer?, htrim, hsign, hfields]
  simp [hempty, hall, hshort]

end Bytes

namespace Http

private theorem digit_facts : ∀ b, Bytes.isDigit b = true →
    isFieldByte b = true ∧ isBlank b = false ∧ Bytes.lowerByte b = b ∧ b ≠ 44 :=
  Bytes.forall_byte (by decide +kernel)

end Http

namespace Bytes.IsNumber

open Http

variable {word : Bytes} (h : word.IsNumber)
include h

theorem isEmpty : word.isEmpty = false := List.isEmpty_eq_false_iff.2 h.ne_nil

theorem toLower : Bytes.toLower word = word := by
  have hself : ∀ x ∈ word, lowerByte x = id x := fun x hx => (digit_facts x (h.digits x hx)).2.2.1
  rw [Bytes.toLower, List.map_congr_left hself, List.map_id]

private theorem fields_eq : (fields 44 word).map (trim Http.isBlank) = [word] := by
  have hcomma : 44 ∉ word := fun hmem => (digit_facts 44 (h.digits 44 hmem)).2.2.2 rfl
  have hblank : ∀ x ∈ word, Http.isBlank x = false :=
    fun x hx => (digit_facts x (h.digits x hx)).2.1
  rw [fields_word hcomma, List.map_singleton, trim_eq_self hblank]

theorem elements : elements contentLength [(contentLength, word)] = [word] := by
  simp [Http.elements, h.toLower, h.fields_eq, h.isEmpty]

theorem isFieldValue : isFieldValue word = true := by
  simp only [Http.isFieldValue, Bool.and_eq_true, List.all_eq_true, Bool.or_eq_true, beq_iff_eq]
  constructor
  · intro x hx
    exact .inl (digit_facts x (h.digits x hx)).1
  · exact trim_eq_self fun x hx => (digit_facts x (h.digits x hx)).2.1

end Bytes.IsNumber

theorem Bytes.IsLength.parseLength {word : Bytes} (h : word.IsLength) :
    Http.parseLength word = .ok word := by
  have hall : word.all isDigit = true := List.all_eq_true.2 h.digits
  have hlong : ¬ 20 < word.length := by
    have hshort := h.short
    omega
  simp [Http.parseLength, h.fields_eq, h.isEmpty, hall, hlong]

namespace Http

/-! ## What the check keeps -/

theorem parseLength_isLength {value word : Bytes} (h : parseLength value = .ok word) :
    word.IsLength := by
  unfold parseLength at h
  split at h
  · cases h
  · rename_i first others _
    split at h
    · cases h
    · split at h
      · cases h
      · rename_i hbad
        obtain rfl : first = word := Except.ok.inj h
        simp only [Bool.or_eq_true, Bool.not_eq_true', decide_eq_true_eq, not_or,
          Bool.not_eq_true, Bool.not_eq_false, Nat.not_lt] at hbad
        obtain ⟨⟨hempty, hall⟩, hlong⟩ := hbad
        exact ⟨⟨List.isEmpty_eq_false_iff.1 hempty, List.all_eq_true.1 hall⟩, hlong⟩

theorem parseLength_of_isNumber {value word : Bytes} (hvalue : value.IsNumber)
    (h : parseLength value = .ok word) : word = value := by
  simp only [parseLength, hvalue.fields_eq, List.all_nil, Bool.not_true, Bool.false_eq_true,
    if_false] at h
  split at h
  · cases h
  · exact (Except.ok.inj h).symm

private theorem checkFraming_isLength {length : Option Bytes} {coded : Bool}
    {fs checked : List Field}
    (h : checkFraming length coded fs = .ok checked) :
    ∀ f ∈ checked, f.1 = contentLength → f.2.IsLength := by
  -- on the fields; the length that has been seen and whether a coding was seen do not matter
  induction fs generalizing length coded checked with
  | nil =>
    obtain rfl : [] = checked := Except.ok.inj h
    simp
  | cons f fs ih =>
    intro g hg hname
    cases framed_of_checkFraming h with
    | stated _ _ hword hrest =>
      rcases List.mem_cons.1 hg with rfl | hg
      · exact parseLength_isLength hword
      · exact ih hrest g hg hname
    | repeated _ _ _ hrest => exact ih hrest g hg hname
    | coded hcoding _ _ hrest =>
      rcases List.mem_cons.1 hg with rfl | hg
      · have hne : transferEncoding ≠ contentLength := by decide
        exact absurd (hcoding.symm.trans hname) hne
      · exact ih hrest g hg hname
    | kept hlength _ hrest =>
      rcases List.mem_cons.1 hg with rfl | hg
      · exact absurd hname hlength
      · exact ih hrest g hg hname

theorem mem_checkFraming {length : Option Bytes} {coded : Bool} {fs checked : List Field}
    (h : checkFraming length coded fs = .ok checked) :
    ∀ f ∈ checked, ∃ g ∈ fs, g.1 = f.1 ∧ (f.2 = g.2 ∨ f.2.IsLength ∨ f.2 = chunkedCoding) := by
  induction fs generalizing length coded checked with
  | nil =>
    obtain rfl : [] = checked := Except.ok.inj h
    simp
  | cons g fs ih =>
    have hskip {length : Option Bytes} {coded : Bool} {rest : List Field}
        (hrest : checkFraming length coded fs = .ok rest) {f : Field} (hf : f ∈ rest) :
        ∃ g' ∈ g :: fs, g'.1 = f.1 ∧ (f.2 = g'.2 ∨ f.2.IsLength ∨ f.2 = chunkedCoding) := by
      obtain ⟨g', hg', hfacts⟩ := ih hrest f hf
      exact ⟨g', List.mem_cons_of_mem _ hg', hfacts⟩
    intro f hf
    cases framed_of_checkFraming h with
    | stated _ _ hword hrest =>
      rcases List.mem_cons.1 hf with rfl | hf
      · exact ⟨g, List.mem_cons_self, rfl, .inr (.inl (parseLength_isLength hword))⟩
      · exact hskip hrest hf
    | repeated _ _ _ hrest => exact hskip hrest hf
    | coded _ _ hchunked hrest =>
      rcases List.mem_cons.1 hf with rfl | hf
      · exact ⟨g, List.mem_cons_self, rfl, .inr (.inr hchunked)⟩
      · exact hskip hrest hf
    | kept _ _ hrest =>
      rcases List.mem_cons.1 hf with rfl | hf
      · exact ⟨f, List.mem_cons_self, rfl, .inl rfl⟩
      · exact hskip hrest hf

theorem filter_not_framing {length : Option Bytes} {coded : Bool} {fs checked : List Field}
    (h : checkFraming length coded fs = .ok checked) :
    checked.filter (!isFramingName ·.1) = fs.filter (!isFramingName ·.1) := by
  induction fs generalizing length coded checked with
  | nil =>
    obtain rfl : [] = checked := Except.ok.inj h
    rfl
  | cons f fs ih =>
    have hskip {name : Bytes} (hname : isFramingName name = true) (value : Bytes)
        (rest : List Field) : ((name, value) :: rest).filter (!isFramingName ·.1) =
          rest.filter (!isFramingName ·.1) :=
      List.filter_cons_of_neg (by simp [hname])
    cases framed_of_checkFraming h with
    | stated hname _ _ hrest =>
      have hframing : isFramingName f.1 = true := by simp [isFramingName, hname]
      rw [hskip hframing, hskip hframing f.2, ih hrest]
    | repeated hname _ _ hrest =>
      have hframing : isFramingName f.1 = true := by simp [isFramingName, hname]
      rw [hskip hframing f.2, ih hrest]
    | coded hname _ _ hrest =>
      have hframing : isFramingName f.1 = true := by simp [isFramingName, hname]
      rw [hskip hframing, hskip hframing f.2, ih hrest]
    | kept _ _ hrest => rw [List.filter_cons, List.filter_cons, ih hrest]

private theorem filter_length_of_some {word : Bytes} {coded : Bool} {fs checked : List Field}
    (h : checkFraming (some word) coded fs = .ok checked) :
    checked.filter (·.1 == contentLength) = [] := by
  induction fs generalizing coded checked with
  | nil =>
    obtain rfl : [] = checked := Except.ok.inj h
    rfl
  | cons f fs ih =>
    cases framed_of_checkFraming h with
    | stated _ hnone => cases hnone
    | repeated _ _ _ hrest => exact ih hrest
    | coded hname _ _ hrest =>
      have hne : transferEncoding ≠ contentLength := by decide
      rw [List.filter_cons_of_neg (by simp [hname, hne])]
      exact ih hrest
    | kept hlength _ hrest =>
      rw [List.filter_cons_of_neg (by simp [hlength])]
      exact ih hrest

theorem filter_length_of_none {coded : Bool} {fs checked : List Field}
    (h : checkFraming none coded fs = .ok checked) (hsome : ∃ f ∈ fs, f.1 = contentLength) :
    ∃ f ∈ fs, f.1 = contentLength ∧ ∃ word, parseLength f.2 = .ok word ∧
      checked.filter (·.1 == contentLength) = [(contentLength, word)] := by
  induction fs generalizing coded checked with
  | nil => simp at hsome
  | cons f fs ih =>
    have hskip {coded : Bool} {rest : List Field} (hname : f.1 ≠ contentLength)
        (hrest : checkFraming none coded fs = .ok rest) :
        ∃ g ∈ f :: fs, g.1 = contentLength ∧ ∃ word, parseLength g.2 = .ok word ∧
          rest.filter (·.1 == contentLength) = [(contentLength, word)] := by
      obtain ⟨g, hg, hlength⟩ := hsome
      have hother : g ∈ fs := by
        rcases List.mem_cons.1 hg with rfl | hg
        · exact absurd hlength hname
        · exact hg
      obtain ⟨g', hg', hfacts⟩ := ih hrest ⟨g, hother, hlength⟩
      exact ⟨g', List.mem_cons_of_mem _ hg', hfacts⟩
    cases framed_of_checkFraming h with
    | @stated word _ hname _ hword hrest =>
      refine ⟨f, List.mem_cons_self, hname, word, hword, ?_⟩
      rw [List.filter_cons_of_pos (by simp [hname]), filter_length_of_some hrest, hname]
    | repeated _ hnone => cases hnone
    | coded hname _ _ hrest =>
      have hne : f.1 ≠ contentLength := by
        rw [hname]
        decide
      rw [List.filter_cons_of_neg (by simp [hne])]
      exact hskip hne hrest
    | kept hlength _ hrest =>
      rw [List.filter_cons_of_neg (by simp [hlength])]
      exact hskip hlength hrest

private theorem Head.checkFraming_of_parse {lines : List Bytes} {head : Head}
    (h : Head.parse lines = .ok head) :
    ∃ fs, checkFraming none false fs = .ok head.fields := by
  cases lines with
  | nil => cases h
  | cons first others =>
    simp only [Head.parse] at h
    split at h
    · split at h
      · split at h
        · rename_i fs _
          obtain ⟨checked, hchecked, h⟩ := ok_of_bind_eq_ok h
          split at h
          · cases h
          · split at h
            · cases h
            · obtain rfl := Except.ok.inj h
              exact ⟨fs, hchecked⟩
        · cases h
      · cases h
    · cases h

theorem Head.isLength_of_parse {lines : List Bytes} {head : Head}
    (h : Head.parse lines = .ok head) :
    ∀ f ∈ head.fields, f.1 = contentLength → f.2.IsLength := by
  obtain ⟨fs, hfs⟩ := Head.checkFraming_of_parse h
  exact checkFraming_isLength hfs

end Http

end TlsGate
