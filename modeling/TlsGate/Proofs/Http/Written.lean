import TlsGate.Proofs.Http.Coding
import TlsGate.Proofs.Http.Reply

/-!
Requests as a client writes them: a request line, one line for each field, a blank line, and the
body in its coding. Reading a written request gives the request, with the names of its fields in
lower case, and leaves what follows it.
-/

set_option autoImplicit false
set_option relaxedAutoImplicit false

namespace TlsGate.Http

open TlsGate.Text

namespace Request

def lowered (r : Request) : Request := { r with fields := r.fields.map lowerName }

def line (r : Request) : Bytes :=
  Bytes.ofString r.method ++ 32 :: (Bytes.ofString r.target ++ 32 :: Bytes.ofString r.version)

/-- Whether a request lets the connection live: its version is 1.1, and no element of its Connection
fields is `close`. -/
def keepsAlive (r : Request) : Bool :=
  r.version == "HTTP/1.1" && !(elements connectionName r.fields).contains closeOption

def peer (r : Request) : Peer where
  method := some (Bytes.ofString r.method)
  modern := r.version == "HTTP/1.1"
  keepsAlive := r.keepsAlive

theorem modern_of_keepsAlive {r : Request} (h : r.peer.keepsAlive = true) :
    r.peer.modern = true := by
  simp only [peer, keepsAlive, Bool.and_eq_true] at h ⊢
  exact h.1

end Request

def fieldText (f : Field) : Bytes := f.1 ++ 58 :: 32 :: f.2

/-- A request and the coding that a client writes its body in. -/
structure Written where
  request : Request
  coding : Coding
  deriving DecidableEq, Repr

namespace Written

def lines (w : Written) : List Bytes := w.request.line :: w.request.fields.map fieldText

def head (w : Written) : Bytes := w.lines.flatMap (· ++ [13, 10]) ++ [13, 10]

def bytes (w : Written) : Bytes := w.head ++ w.coding.bytes w.request.body

/-- A request that the grammar admits, with a head that is not too long, a body within the limit,
and the framing fields that belong to its coding. -/
structure WellFormed (limit : Int) (w : Written) : Prop where
  method : isToken (Bytes.ofString w.request.method) = true
  target : Bytes.ofString w.request.target ≠ []
  visible : (Bytes.ofString w.request.target).all isTargetByte = true
  version : w.request.version = "HTTP/1.0" ∨ w.request.version = "HTTP/1.1"
  names : ∀ f ∈ w.request.fields, isToken f.1 = true
  values : ∀ f ∈ w.request.fields, isFieldValue f.2 = true
  host : (w.request.lowered.fields.filter (·.1 == hostName)).length = 1
  framing : w.request.lowered.fields.filter (isFramingName ·.1) = w.coding.fields w.request.body
  short : w.head.length ≤ maxIncomplete
  coded : w.coding.Admits w.request.body
  body : (w.request.body.length : Int) ≤ limit

instance (limit : Int) (w : Written) : Decidable (w.WellFormed limit) :=
  decidable_of_iff
    ((isToken (Bytes.ofString w.request.method) = true ∧ Bytes.ofString w.request.target ≠ [] ∧
      (Bytes.ofString w.request.target).all isTargetByte = true) ∧
      (w.request.version = "HTTP/1.0" ∨ w.request.version = "HTTP/1.1") ∧
      ((∀ f ∈ w.request.fields, isToken f.1 = true) ∧
        ∀ f ∈ w.request.fields, isFieldValue f.2 = true) ∧
      (w.request.lowered.fields.filter (·.1 == hostName)).length = 1 ∧
      w.request.lowered.fields.filter (isFramingName ·.1) = w.coding.fields w.request.body ∧
      w.head.length ≤ maxIncomplete ∧ w.coding.Admits w.request.body ∧
      (w.request.body.length : Int) ≤ limit)
    ⟨fun ⟨⟨hm, ht, hb⟩, hv, ⟨hn, hf⟩, hh, hg, hs, hc, hl⟩ =>
        ⟨hm, ht, hb, hv, hn, hf, hh, hg, hs, hc, hl⟩,
      fun ⟨hm, ht, hb, hv, hn, hf, hh, hg, hs, hc, hl⟩ =>
        ⟨⟨hm, ht, hb⟩, hv, ⟨hn, hf⟩, hh, hg, hs, hc, hl⟩⟩

end Written

/-! ## Lines -/

theorem not_mem_of_isToken {word : Bytes} {b : UInt8} (h : isToken word = true)
    (hb : isTokenByte b = false) : b ∉ word := by
  intro hmem
  simp only [isToken, Bool.and_eq_true, List.all_eq_true] at h
  rw [h.2 b hmem] at hb
  cases hb

private theorem ne_nil_of_isToken {word : Bytes} (h : isToken word = true) : word ≠ [] := by
  rintro rfl
  cases h

theorem not_mem_of_isFieldValue {value : Bytes} {b : UInt8} (h : isFieldValue value = true)
    (hb : (isFieldByte b || isBlank b) = false) : b ∉ value := by
  intro hmem
  simp only [isFieldValue, Bool.and_eq_true, List.all_eq_true] at h
  rw [h.1 b hmem] at hb
  cases hb

private theorem parseField?_fieldText {f : Field} (hname : isToken f.1 = true)
    (hvalue : isFieldValue f.2 = true) : parseField? (fieldText f) = some (lowerName f) := by
  have hcut : cutFirst 58 (fieldText f) = (f.1, some (32 :: f.2)) :=
    cutFirst_append (not_mem_of_isToken hname (by decide)) (32 :: f.2)
  have htrim : trim isBlank (32 :: f.2) = f.2 := by
    simp only [isFieldValue, Bool.and_eq_true, beq_iff_eq] at hvalue
    rw [trim_cons (by decide), hvalue.2]
  simp only [parseField?, hcut, htrim, hname, hvalue, Bool.and_self, if_true]
  rfl

theorem fieldText_head? {f : Field} (hname : isToken f.1 = true) :
    ((fieldText f).head?.map isBlank).getD false = false := by
  obtain ⟨b, name, heq⟩ := List.exists_cons_of_ne_nil (ne_nil_of_isToken hname)
  have hblank : ∀ b, isTokenByte b = true → isBlank b = false := by
    intro b hb
    simp only [isBlank, Bool.or_eq_false_iff, beq_eq_false_iff_ne]
    refine ⟨?_, ?_⟩ <;> rintro rfl <;> revert hb <;> decide
  have htoken : isTokenByte b = true := by
    simp only [isToken, Bool.and_eq_true, List.all_eq_true] at hname
    exact hname.2 b (heq ▸ List.mem_cons_self)
  rw [fieldText, heq]
  simp [hblank b htoken]

theorem fieldText_line {f : Field} (hname : isToken f.1 = true) (hvalue : isFieldValue f.2 = true) :
    10 ∉ fieldText f ∧ fieldText f ≠ [] := by
  have hname' := not_mem_of_isToken hname (by decide : isTokenByte 10 = false)
  have hvalue' := not_mem_of_isFieldValue hvalue
    (by decide : (isFieldByte 10 || isBlank 10) = false)
  refine ⟨?_, ?_⟩
  · simp [fieldText, hname', hvalue']
  · simp [fieldText]

theorem joinFolded?_eq_self {lines : List Bytes}
    (h : ∀ line ∈ lines, (line.head?.map isBlank).getD false = false) :
    joinFolded? lines = some lines := by
  have hgo (last : Bytes) {l : List Bytes}
      (hl : ∀ line ∈ l, (line.head?.map isBlank).getD false = false) :
      joinFolded?.go last l = last :: l := by
    induction l generalizing last with
    | nil => rfl
    | cons line l ih =>
      rw [joinFolded?.go, hl line List.mem_cons_self, if_neg Bool.false_ne_true,
        ih line fun x hx => hl x (List.mem_cons_of_mem _ hx)]
  cases lines with
  | nil => rfl
  | cons line lines =>
    rw [joinFolded?, h line List.mem_cons_self, if_neg Bool.false_ne_true,
      hgo line fun x hx => h x (List.mem_cons_of_mem _ hx)]

theorem mapM_parseField? {fs : List Field} (hnames : ∀ f ∈ fs, isToken f.1 = true)
    (hvalues : ∀ f ∈ fs, isFieldValue f.2 = true) :
    (fs.map fieldText).mapM parseField? = some (fs.map lowerName) := by
  induction fs with
  | nil => rfl
  | cons f fs ih =>
    have hrest := ih (fun x hx => hnames x (List.mem_cons_of_mem _ hx))
      fun x hx => hvalues x (List.mem_cons_of_mem _ hx)
    rw [List.map_cons, List.mapM_cons, hrest,
      parseField?_fieldText (hnames f List.mem_cons_self) (hvalues f List.mem_cons_self)]
    rfl

/-! ## Framing fields -/

theorem checkFraming_coding {fs : List Field} {coding : Coding} {body : Bytes}
    (h : fs.filter (isFramingName ·.1) = coding.fields body) (hcoded : coding.Admits body) :
    checkFraming none false fs = .ok fs := by
  cases coding with
  | bare => exact checkFraming_of_none h none false
  | counted =>
    refine checkFraming_of_one h fun rest hrest => ?_
    simp only [checkFraming, if_true, (Bytes.isLength_digits hcoded).parseLength,
      checkFraming_of_none hrest]
    rfl
  | chunked chunks =>
    refine checkFraming_of_one h fun rest hrest => ?_
    have hne : transferEncoding ≠ contentLength := by decide
    have hlower : Bytes.toLower chunkedCoding = chunkedCoding := by decide
    simp only [checkFraming, if_neg hne, if_true, hlower, checkFraming_of_none hrest]
    rfl

theorem framingOf_coding {fs : List Field} {coding : Coding} {body : Bytes}
    (h : fs.filter (isFramingName ·.1) = coding.fields body) :
    framingOf fs = coding.framing body := by
  have hcoding : elements transferEncoding fs = elements transferEncoding (coding.fields body) := by
    rw [elements_framing (by decide), h]
  have hlength : elements contentLength fs = elements contentLength (coding.fields body) := by
    rw [elements_framing (by decide), h]
  rw [framingOf, hcoding, hlength]
  cases coding with
  | bare => rfl
  | counted =>
    have hnone : elements transferEncoding [(contentLength, Bytes.digits 10 body.length)] = [] := by
      have hne : contentLength ≠ transferEncoding := by decide
      simp [elements, hne]
    simp only [Coding.fields, hnone, (Bytes.isNumber_digits _).elements, List.isEmpty_nil,
      Bool.not_true, Bool.false_eq_true, if_false, Bytes.decimalValue_digits, Coding.framing]
  | chunked chunks =>
    have hone :
        elements transferEncoding [(transferEncoding, chunkedCoding)] = [chunkedCoding] := by
      decide
    simp only [Coding.fields, hone]
    rfl

private theorem not_isTooLong_coding {limit : Int} (line : RequestLine) {fs : List Field}
    {coding : Coding}
    {body : Bytes} (h : fs.filter (isFramingName ·.1) = coding.fields body)
    (hbody : (body.length : Int) ≤ limit) : ¬ (Head.mk line fs).isTooLong limit := by
  rintro ⟨n, hn, hlimit⟩
  rw [Head.statedLength?, ← List.head?_filter, filter_framing (by decide), h] at hn
  cases coding with
  | bare => simp [Coding.fields] at hn
  | counted =>
    simp only [Coding.fields, List.filter_cons, beq_self_eq_true, if_true, List.head?_cons,
      Option.map_some, Bytes.decimalValue_digits, Option.some.injEq] at hn
    omega
  | chunked chunks =>
    have hne : transferEncoding ≠ contentLength := by decide
    simp [Coding.fields, hne] at hn

/-! ## Heads -/

def versionDigits (r : Request) : Bytes :=
  if r.version == "HTTP/1.1" then [49, 46, 49] else [49, 46, 48]

private theorem requestLine_parse {limit : Int} {w : Written} (h : w.WellFormed limit) :
    RequestLine.parse? w.request.line =
      some ⟨Bytes.ofString w.request.method, Bytes.ofString w.request.target,
        versionDigits w.request⟩ := by
  have hmethod : 32 ∉ Bytes.ofString w.request.method := not_mem_of_isToken h.method (by decide)
  have htarget : 32 ∉ Bytes.ofString w.request.target := by
    intro hmem
    have := List.all_eq_true.1 h.visible 32 hmem
    revert this
    decide
  have hempty : (Bytes.ofString w.request.target).isEmpty = false :=
    List.isEmpty_eq_false_iff.2 h.target
  have hwords : fields 32 w.request.line =
      [Bytes.ofString w.request.method, Bytes.ofString w.request.target,
        Bytes.ofString w.request.version] := by
    rw [Request.line, fields_append hmethod, fields_append htarget]
    rcases h.version with hv | hv <;> rw [hv, fields_word (by decide)]
  rw [RequestLine.parse?, hwords]
  rcases h.version with hv | hv
  · have hdigits : Bytes.ofString "HTTP/1.0" = [72, 84, 84, 80, 47, 49, 46, 48] := by decide
    rw [hv, hdigits]
    simp [h.method, hempty, h.visible, versionDigits, hv, Bytes.isDigit]
  · have hdigits : Bytes.ofString "HTTP/1.1" = [72, 84, 84, 80, 47, 49, 46, 49] := by decide
    rw [hv, hdigits]
    simp [h.method, hempty, h.visible, versionDigits, hv, Bytes.isDigit]

namespace Written

/-- The head that a written request starts with. -/
def parsed (w : Written) : Head where
  line := ⟨Bytes.ofString w.request.method, Bytes.ofString w.request.target,
    versionDigits w.request⟩
  fields := w.request.lowered.fields

theorem parsed_peer (w : Written) : w.parsed.peer = w.request.lowered.peer := by
  simp only [Head.peer, Head.keepsAlive, Head.isModern, Request.peer, Request.keepsAlive, parsed,
    versionDigits, Request.lowered]
  cases w.request.version == "HTTP/1.1" <;> rfl

theorem parsed_request {limit : Int} {w : Written} (h : w.WellFormed limit) :
    w.parsed.request w.request.body = w.request.lowered := by
  have hversion : "HTTP/" ++ (Bytes.toString? (versionDigits w.request)).getD "" =
      w.request.version := by
    have hold : Bytes.ofString "1.0" = [49, 46, 48] := by decide
    have hnew : Bytes.ofString "1.1" = [49, 46, 49] := by decide
    rcases h.version with hv | hv <;> simp only [versionDigits, hv]
    · rw [if_neg (by decide), ← hold, Bytes.toString?_ofString]
      decide
    · rw [if_pos (by decide), ← hnew, Bytes.toString?_ofString]
      decide
  simp only [Head.request, parsed, Bytes.toString?_ofString, Option.getD_some, hversion]
  rfl

variable {limit : Int} {w : Written}

theorem parse_lines (h : w.WellFormed limit) : Head.parse w.lines = .ok w.parsed := by
  have hfold : joinFolded? (w.request.fields.map fieldText) =
      some (w.request.fields.map fieldText) := by
    refine joinFolded?_eq_self fun line hline => ?_
    obtain ⟨f, hf, rfl⟩ := List.mem_map.1 hline
    exact fieldText_head? (h.names f hf)
  have hframing := checkFraming_coding h.framing h.coded
  have hhosts : ¬ (w.request.lowered.fields.filter (·.1 == hostName)).length = 0 := by
    rw [h.host]
    decide
  have hone : ¬ 1 < (w.request.lowered.fields.filter (·.1 == hostName)).length := by
    rw [h.host]
    decide
  simp only [lines, Head.parse, requestLine_parse h, hfold, mapM_parseField? h.names h.values]
  change (checkFraming none false w.request.lowered.fields >>= fun fs => _) = _
  rw [hframing]
  simp only [bind, Except.bind]
  rw [if_neg fun hand => hhosts hand.2, if_neg hone]
  rfl

private theorem lines_wellFormed (h : w.WellFormed limit) : ∀ line ∈ w.lines, 10 ∉ line ∧ line ≠
    [] := by
  intro line hline
  rcases List.mem_cons.1 hline with rfl | hline
  · have hmethod := not_mem_of_isToken h.method (by decide : isTokenByte 10 = false)
    have htarget : 10 ∉ Bytes.ofString w.request.target := by
      intro hmem
      have := List.all_eq_true.1 h.visible 10 hmem
      revert this
      decide
    have hversion : 10 ∉ Bytes.ofString w.request.version := by
      rcases h.version with hv | hv <;> rw [hv] <;> decide
    refine ⟨?_, ?_⟩
    · simp [Request.line, hmethod, htarget, hversion]
    · simp [Request.line]
  · obtain ⟨f, hf, rfl⟩ := List.mem_map.1 hline
    exact fieldText_line (h.names f hf) (h.values f hf)

theorem takeLines_head (h : w.WellFormed limit) (rest : Bytes) :
    takeLines (w.head ++ rest) = some (w.lines, rest) := by
  have hlines := takeLines_flatMap (lines_wellFormed h) rest
  simpa [head] using hlines

theorem readHead_bytes (h : w.WellFormed limit) (rest : Bytes) (closed : Bool) :
    readHead limit ⟨w.bytes ++ rest, closed⟩ = .request w.parsed w.request.body ⟨rest, closed⟩ := by
  have hlines : takeLines (w.bytes ++ rest) =
      some (w.lines, w.coding.bytes w.request.body ++ rest) := by
    rw [bytes, List.append_assoc]
    exact takeLines_head h _
  have hlong := not_isTooLong_coding w.parsed.line h.framing h.body
  have hreads := Coding.reads h.coded rest
  have hbody : ((0 + w.request.body.length : Nat) : Int) ≤ limit := by
    have := h.body
    omega
  rw [readHead_of_ok (i := ⟨w.bytes ++ rest, closed⟩) hlines (parse_lines h) hlong]
  rw [← framingOf_coding h.framing] at hreads
  exact readBody_of_reads hreads hbody

theorem fits_bytes (h : w.WellFormed limit) {rest : Bytes} (hfit : Place.head.Fits rest) :
    Place.head.Fits (w.bytes ++ rest) := by
  have hlines : takeLines (w.bytes ++ rest) =
      some (w.lines, w.coding.bytes w.request.body ++ rest) := by
    rw [bytes, List.append_assoc]
    exact takeLines_head h _
  have hreads := Coding.reads h.coded rest
  rw [← framingOf_coding h.framing] at hreads
  refine .of_advance ?_ fun q last ha => ?_
  · have hle := h.short
    rw [Place.partLength, hlines, foundLength]
    simp only [Option.elim_some, bytes, List.length_append]
    omega
  · rw [Place.advance_head hlines (parse_lines h)] at ha
    cases ha
    exact Place.fits_of_reads hreads hfit

end Written

end TlsGate.Http
