import TlsGate.Proofs.Http.Resuming
import TlsGate.Proofs.Numeral

/-!
Bodies as a client writes them: with a stated length, or in chunks of any sizes. Reading what was
written gives the body, leaves what follows it, and never waits for a part that is too long.
-/

set_option autoImplicit false
set_option relaxedAutoImplicit false

namespace TlsGate.Http

open TlsGate.Text

/-! ## Decoders that come to the end of a body -/

/-- From a buffer a decoder reads a body and leaves the rest; no part is too long on the way. -/
inductive Decoder.Reads : Decoder → Bytes → Bytes → Bytes → Prop
  | complete {d : Decoder} {input rest : Bytes} (h : d.step input = .complete rest)
      (hpart : (Place.body d).partLength input ≤ maxIncomplete) : Reads d input [] rest
  | piece {d next : Decoder} {input data rest body last : Bytes}
      (h : d.step input = .piece data rest next) (hr : Reads next rest body last) :
      Reads d input (data ++ body) last
  | passed {d next : Decoder} {input rest body last : Bytes}
      (h : d.step input = .passed rest next)
      (hpart : (Place.body d).partLength input ≤ maxIncomplete) (hr : Reads next rest body last) :
      Reads d input body last

theorem readBody_of_reads {limit : Int} {head : Head} {d : Decoder} {ps : List Bytes} {n : Nat}
    {input body rest : Bytes} {closed : Bool} (h : d.Reads input body rest)
    (hlimit : ((n + body.length : Nat) : Int) ≤ limit) :
    readBody limit head d ps n ⟨input, closed⟩ =
      .request head (ps.reverse.flatten ++ body) ⟨rest, closed⟩ := by
  induction h generalizing ps n with
  | complete h _ => rw [readBody_of_complete (i := ⟨_, closed⟩) h, List.append_nil]
  | @piece d next input data rest body last h _ ih =>
    rw [List.length_append] at hlimit
    have hpiece : ¬ limit < ((n + data.length : Nat) : Int) := by omega
    rw [readBody_of_piece (i := ⟨_, closed⟩) h, if_neg hpiece, ih (by omega)]
    simp
  | passed h _ _ ih => rw [readBody_of_passed (i := ⟨_, closed⟩) h, ih hlimit]

theorem Place.fits_of_reads {d : Decoder} {input body rest : Bytes} (h : d.Reads input body rest)
    (hfit : Place.head.Fits rest) : (Place.body d).Fits input := by
  induction h with
  | complete h hpart =>
    refine .of_advance hpart fun q last ha => ?_
    rw [Place.advance_of_complete h] at ha
    cases ha
    exact hfit
  | piece h _ ih => exact Place.fits_of_piece h (ih hfit)
  | passed h hpart _ ih =>
    refine .of_advance hpart fun q last ha => ?_
    rw [Place.advance_of_passed h] at ha
    cases ha
    exact ih hfit

/-! ## A stated length -/

private theorem reads_counted (body rest : Bytes) :
    (Decoder.counted body.length).Reads (body ++ rest) body rest := by
  cases body with
  | nil => exact .complete rfl (Nat.zero_le _)
  | cons b body =>
    have hstep : (Decoder.counted (body.length + 1)).step (b :: body ++ rest) =
        .piece (b :: body) rest (.counted 0) := by
      have hnext : body.length - (body ++ rest).length = 0 := by
        rw [List.length_append]
        omega
      simp only [Decoder.step, List.cons_append, hnext, List.take_left, List.drop_left]
    have hr := Decoder.Reads.piece hstep (.complete rfl (Nat.zero_le _))
    rwa [List.append_nil] at hr

/-! ## Chunks -/

structure Chunk where
  data : Bytes
  extension : Bytes := []
  deriving DecidableEq, Repr

namespace Chunk

def line (c : Chunk) : Bytes := Bytes.digits 16 c.data.length ++ c.extension

def bytes (c : Chunk) : Bytes := c.line ++ 13 :: 10 :: c.data ++ [13, 10]

/-- A chunk that the grammar admits, with a size line that is not too long. -/
structure WellFormed (c : Chunk) : Prop where
  data : c.data ≠ []
  digits : (Bytes.digits 16 c.data.length).length ≤ 20
  extension : c.extension = [] ∨ c.extension.head? = some 59
  oneLine : 10 ∉ c.extension
  line : c.line.length + 2 ≤ maxIncomplete

instance (c : Chunk) : Decidable c.WellFormed :=
  decidable_of_iff
    (c.data ≠ [] ∧ (Bytes.digits 16 c.data.length).length ≤ 20 ∧
      (c.extension = [] ∨ c.extension.head? = some 59) ∧ 10 ∉ c.extension ∧
      c.line.length + 2 ≤ maxIncomplete)
    ⟨fun ⟨hdata, hdigits, hext, hone, hline⟩ => ⟨hdata, hdigits, hext, hone, hline⟩,
      fun ⟨hdata, hdigits, hext, hone, hline⟩ => ⟨hdata, hdigits, hext, hone, hline⟩⟩

end Chunk

private theorem takeLine_append {line : Bytes} (h : 10 ∉ line) (passed rest : Bytes) :
    takeLine passed (line ++ 13 :: 10 :: rest) = some (passed.reverse ++ line, rest) := by
  induction line generalizing passed with
  | nil => simp [takeLine]
  | cons b line ih =>
    simp only [List.mem_cons, not_or] at h
    rw [List.cons_append, takeLine]
    · rw [ih h.2]
      simp
    · intro after _ hafter
      cases line with
      | nil => simp at hafter
      | cons c line =>
        simp only [List.cons_append, List.cons.injEq] at hafter
        exact h.2 (hafter.1 ▸ List.mem_cons_self)

private theorem not_mem_digits (n : Nat) : (10 : UInt8) ∉ Bytes.digits 16 n := by
  intro h
  have hfeed := Bytes.isSome_hexValue?_of_mem h
  revert hfeed
  decide

private theorem parseChunkSize?_line {n : Nat} {extension : Bytes}
    (hdigits : (Bytes.digits 16 n).length ≤ 20)
    (hextension : extension = [] ∨ extension.head? = some 59) (hfeed : 10 ∉ extension) :
    parseChunkSize? (Bytes.digits 16 n ++ extension) = some n := by
  have hcases := hextension.imp_right List.head?_eq_some_iff.1
  have hall : ∀ x ∈ Bytes.digits 16 n, (Bytes.hexValue? x).isSome = true :=
    fun _ hx => Bytes.isSome_hexValue?_of_mem hx
  have hspan : ((Bytes.digits 16 n ++ extension).takeWhile fun b => (Bytes.hexValue? b).isSome) =
      Bytes.digits 16 n := by
    rw [List.takeWhile_append_of_pos hall]
    rcases hcases with rfl | ⟨tail, rfl⟩
    · exact List.append_nil _
    · have hsemicolon : Bytes.hexValue? 59 = none := by decide
      simp [hsemicolon]
  have hempty : (Bytes.digits 16 n).isEmpty = false :=
    List.isEmpty_eq_false_iff.2 (Bytes.digits_ne_nil (by decide) (by decide) n)
  simp only [parseChunkSize?, hspan, List.drop_left, hempty, Bytes.hexNumber_digits]
  rcases hcases with rfl | ⟨tail, rfl⟩
  · simp [hdigits]
  · have htail : 10 ∉ tail := fun h => hfeed (List.mem_cons_of_mem _ h)
    have hblank : isBlank 59 = false := by decide
    simp [hblank, hdigits, htail]

private theorem Chunk.WellFormed.not_mem_line {c : Chunk} (hc : c.WellFormed) : 10 ∉ c.line := by
  intro h
  rcases List.mem_append.1 h with h | h
  · exact not_mem_digits _ h
  · exact hc.oneLine h

private theorem reads_chunk {c : Chunk} (hc : c.WellFormed) {input body rest : Bytes}
    (h : Decoder.size.Reads input body rest) :
    Decoder.size.Reads (c.bytes ++ input) (c.data ++ body) rest := by
  obtain ⟨b, tail, hdata⟩ := List.exists_cons_of_ne_nil hc.data
  have hbytes : c.bytes ++ input = c.line ++ 13 :: 10 :: (c.data ++ 13 :: 10 :: input) := by
    simp [Chunk.bytes]
  have hline := takeLine_append hc.not_mem_line [] (c.data ++ 13 :: 10 :: input)
  have hsize : parseChunkSize? c.line = some (tail.length + 1) := by
    have hsize := parseChunkSize?_line hc.digits hc.extension hc.oneLine
    rwa [← Chunk.line, hdata, List.length_cons] at hsize
  have hpassed : Decoder.size.step (c.line ++ 13 :: 10 :: (c.data ++ 13 :: 10 :: input)) =
      .passed (c.data ++ 13 :: 10 :: input) (.chunk tail.length) := by
    simp only [Decoder.step, hline, List.reverse_nil, List.nil_append, hsize]
  have hpiece : (Decoder.chunk tail.length).step (c.data ++ 13 :: 10 :: input) =
      .piece c.data (13 :: 10 :: input) .chunkEnd := by
    have hlong : tail.length ≤ (tail ++ 13 :: 10 :: input).length := by
      rw [List.length_append]
      omega
    simp only [hdata, List.cons_append, Decoder.step, List.take_left, List.drop_left,
      if_pos hlong]
  have hend : Decoder.chunkEnd.step (13 :: 10 :: input) = .passed input .size := rfl
  rw [hbytes]
  refine .passed hpassed ?_ (.piece hpiece (.passed hend (Nat.zero_le _) h))
  have hle := hc.line
  simp only [Place.partLength, foundLength, hline, Option.elim_some, List.length_append,
    List.length_cons]
  omega

def lastChunk : Bytes := Bytes.ofString "0\r\n\r\n"

private theorem reads_lastChunk (rest : Bytes) : Decoder.size.Reads (lastChunk ++ rest)
    [] rest := by
  have hlast : lastChunk ++ rest = [48] ++ 13 :: 10 :: 13 :: 10 :: rest := by
    have : lastChunk = [48, 13, 10, 13, 10] := by decide
    rw [this]
    rfl
  have hline : takeLine [] ([48] ++ 13 :: 10 :: 13 :: 10 :: rest) = some ([48], 13 :: 10 :: rest) :=
    takeLine_append (by decide) [] (13 :: 10 :: rest)
  have hlines : takeLines (13 :: 10 :: rest) = some ([], rest) := takeLines_blank rest
  have hpassed : Decoder.size.step ([48] ++ 13 :: 10 :: 13 :: 10 :: rest) =
      .passed (13 :: 10 :: rest) .trailers := by
    have hsize : parseChunkSize? [48] = some 0 := by decide
    simp only [Decoder.step, hline, hsize]
  have hcomplete : Decoder.trailers.step (13 :: 10 :: rest) = .complete rest := by
    have hnone : Decoder.checkTrailers [] = .ok () := rfl
    simp only [Decoder.step, hlines, hnone]
  rw [hlast]
  refine .passed hpassed ?_ (.complete hcomplete ?_)
  · simp only [Place.partLength, foundLength, hline, Option.elim_some, List.length_append,
      List.length_cons,
      List.length_nil, maxIncomplete]
    omega
  · simp only [Place.partLength, foundLength, hlines, Option.elim_some, List.length_cons,
      maxIncomplete]
    omega

private theorem reads_chunks {chunks : List Chunk} (hc : ∀ c ∈ chunks, c.WellFormed)
    (rest : Bytes) :
    Decoder.size.Reads (chunks.flatMap Chunk.bytes ++ (lastChunk ++ rest))
      (chunks.flatMap Chunk.data) rest := by
  induction chunks with
  | nil => exact reads_lastChunk rest
  | cons c chunks ih =>
    have htail := ih fun c' hc' => hc c' (List.mem_cons_of_mem _ hc')
    have hr := reads_chunk (hc c List.mem_cons_self) htail
    simpa only [List.flatMap_cons, List.append_assoc] using hr

/-! ## Codings -/

/-- How a client writes the body of a request. -/
inductive Coding where
  | bare
  | counted
  | chunked (chunks : List Chunk)
  deriving DecidableEq, Repr

namespace Coding

def fields (body : Bytes) : Coding → List Field
  | bare => []
  | counted => [(contentLength, Bytes.digits 10 body.length)]
  | chunked _ => [(transferEncoding, chunkedCoding)]

def bytes (body : Bytes) : Coding → Bytes
  | bare => []
  | counted => body
  | chunked chunks => chunks.flatMap Chunk.bytes ++ lastChunk

def Admits (body : Bytes) : Coding → Prop
  | bare => body = []
  | counted => (Bytes.digits 10 body.length).length ≤ 20
  | chunked chunks => chunks.flatMap Chunk.data = body ∧ ∀ c ∈ chunks, c.WellFormed

instance (coding : Coding) (body : Bytes) : Decidable (coding.Admits body) :=
  match coding with
  | bare => inferInstanceAs (Decidable (body = []))
  | counted => inferInstanceAs (Decidable ((Bytes.digits 10 body.length).length ≤ 20))
  | chunked chunks =>
    inferInstanceAs (Decidable (chunks.flatMap Chunk.data = body ∧ ∀ c ∈ chunks, c.WellFormed))

def framing (body : Bytes) : Coding → Framing
  | bare => .length 0
  | counted => .length body.length
  | chunked _ => .chunked

theorem reads {coding : Coding} {body : Bytes} (h : coding.Admits body) (rest : Bytes) :
    (Decoder.start (coding.framing body)).Reads (coding.bytes body ++ rest) body rest := by
  cases coding with
  | bare =>
    simp only [Admits] at h
    subst h
    exact reads_counted [] rest
  | counted => exact reads_counted body rest
  | chunked chunks =>
    obtain ⟨rfl, hc⟩ := h
    simp only [bytes, List.append_assoc]
    exact reads_chunks hc rest

end Coding

end TlsGate.Http
