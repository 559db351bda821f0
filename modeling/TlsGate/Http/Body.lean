import TlsGate.Http.Head

/-!
Incremental reading of heads, bodies and trailers from a buffer that holds what has been received
so far. One step of a decoder takes bytes off the front of the buffer, or asks for more.
-/

set_option autoImplicit false
set_option relaxedAutoImplicit false

namespace TlsGate.Http

open TlsGate.Text

def stripReturn (line : Bytes) : Bytes :=
  if line.getLast? = some 13 then line.dropLast else line

/-- The lines up to the first blank one, and what follows it; `none` if there is no blank line. -/
def takeLines (buffer : Bytes) : Option (List Bytes × Bytes) :=
  match h : (cutFirst 10 buffer).2 with
  | none => none
  | some rest =>
    let line := stripReturn (cutFirst 10 buffer).1
    if line = [] then some ([], rest)
    else (takeLines rest).map fun found => (line :: found.1, found.2)
termination_by buffer.length
decreasing_by exact cutFirst_length h

/-- What stands before the first line end of carriage return and line feed, and after it. The first
argument is what has been passed already, the nearest byte first. -/
def takeLine : (passed : Bytes) → (buffer : Bytes) → Option (Bytes × Bytes)
  | _, [] => none
  | passed, b :: rest =>
    match b, rest with
    | 13, 10 :: rest => some (passed.reverse, rest)
    | b, rest => takeLine (b :: passed) rest

theorem takeLines_length {buffer rest : Bytes} {lines : List Bytes}
    (h : takeLines buffer = some (lines, rest)) : rest.length < buffer.length := by
  fun_induction takeLines buffer generalizing lines rest with
  | case1 => simp at h
  | case2 buffer after hafter =>
    simp only [Option.some.injEq, Prod.mk.injEq] at h
    exact h.2 ▸ cutFirst_length hafter
  | case3 buffer after hafter =>
    rename_i ih
    simp only [Option.map_eq_some_iff, Prod.mk.injEq] at h
    obtain ⟨found, hfound, -, rfl⟩ := h
    exact Nat.lt_trans (ih hfound) (cutFirst_length hafter)

private theorem takeLine_length {passed buffer line rest : Bytes}
    (h : takeLine passed buffer = some (line, rest)) : rest.length < buffer.length := by
  fun_induction takeLine passed buffer with
  | case1 => simp at h
  | case2 passed rest' =>
    simp only [Option.some.injEq, Prod.mk.injEq] at h
    simp only [← h.2, List.length_cons]
    omega
  | case3 passed b rest' _ ih => exact Nat.lt_succ_of_lt (ih h)

inductive Decoder where
  /-- So many bytes of a body with a stated length are missing. -/
  | counted (missing : Nat)
  | size
  /-- Of a chunk one byte and so many others are missing. -/
  | chunk (others : Nat)
  | chunkEnd
  | chunkFeed
  | trailers
  deriving DecidableEq, Repr

namespace Decoder

def start : Framing → Decoder
  | .length n => .counted n
  | .chunked => .size

inductive Step where
  | more
  | piece (data rest : Bytes) (next : Decoder)
  | passed (rest : Bytes) (next : Decoder)
  | complete (rest : Bytes)
  | broken (fault : Fault)
  deriving DecidableEq, Repr

def checkTrailers (lines : List Bytes) : Except Fault Unit := do
  let some unfolded := joinFolded? lines | throw .continuation
  let some fs := unfolded.mapM parseField? | throw .fieldLine
  let _ ← checkFraming none false fs

/-- One step of reading a body from a buffer. -/
def step : Decoder → (buffer : Bytes) → Step
  | counted 0, buffer => .complete buffer
  | counted (missing + 1), buffer =>
    match buffer with
    | [] => .more
    | b :: rest =>
      .piece (b :: rest.take missing) (rest.drop missing) (.counted (missing - rest.length))
  | size, buffer =>
    match takeLine [] buffer with
    | none => .more
    | some (line, rest) =>
      match parseChunkSize? line with
      | none => .broken .chunkSize
      | some 0 => .passed rest .trailers
      | some (n + 1) => .passed rest (.chunk n)
  | chunk others, buffer =>
    match buffer with
    | [] => .more
    | b :: rest =>
      .piece (b :: rest.take others) (rest.drop others)
        (if others ≤ rest.length then .chunkEnd else .chunk (others - rest.length - 1))
  | chunkEnd, buffer =>
    match buffer with
    | [] => .more
    | [13] => .passed [] .chunkFeed
    | 13 :: 10 :: rest => .passed rest .size
    | _ => .broken .chunkEnd
  | chunkFeed, buffer =>
    match buffer with
    | [] => .more
    | 10 :: rest => .passed rest .size
    | _ => .broken .chunkEnd
  | trailers, buffer =>
    match takeLines buffer with
    | none => .more
    | some (lines, rest) =>
      match checkTrailers lines with
      | .ok _ => .complete rest
      | .error fault => .broken fault

theorem step_piece_length {d next : Decoder} {buffer data rest : Bytes}
    (h : d.step buffer = .piece data rest next) : rest.length < buffer.length := by
  fun_cases step d buffer <;> simp_all only [step, Step.piece.injEq, reduceCtorEq]
  all_goals simp only [← h.2.1, List.length_drop, List.length_cons]; omega

theorem step_passed_length {d next : Decoder} {buffer rest : Bytes}
    (h : d.step buffer = .passed rest next) : rest.length < buffer.length := by
  fun_cases step d buffer <;> simp_all only [step, Step.passed.injEq, reduceCtorEq]
  case case6 hline => exact takeLine_length hline
  case case7 hline => exact takeLine_length hline
  all_goals grind

end Decoder

end TlsGate.Http
