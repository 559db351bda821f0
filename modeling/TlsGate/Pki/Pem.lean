import TlsGate.Base64
import TlsGate.Text.Blank

/-!
Armoured blocks: binary data in base64 between a BEGIN line and an END line of one label, perhaps
after headers and an empty line. A file may have several blocks with any text around them; a block
that is damaged spoils the whole file.
-/

set_option autoImplicit false
set_option relaxedAutoImplicit false

namespace TlsGate.Pki.Pem

open TlsGate.Text

def beginMark : Bytes := Bytes.ofString "-----BEGIN "

def endMark : Bytes := Bytes.ofString "-----END "

def dashes : Bytes := Bytes.ofString "-----"

/-- How many bytes stand up to the end of a mark. The search for `pending`, the part of the mark
that is still to come, starts afresh after a byte that does not fit. -/
def reach (mark : Bytes) : (pending input : Bytes) → (passed : Nat) → Option Nat
  | [], _, passed => some passed
  | _ :: _, [], _ => none
  | m :: pending, b :: rest, passed =>
    reach mark (if b = m then pending else mark) rest (passed + 1)

def cutAt (mark input : Bytes) : Option (Bytes × Bytes) :=
  (reach mark mark input 0).map fun n => (input.take (n - mark.length), input.drop n)

def isGap (b : UInt8) : Bool := b == 32 || b == 9 || b == 10 || b == 13

structure Frame where
  opening : Bytes
  body : Bytes
  closing : Bytes
  deriving DecidableEq, Repr

def frame? (input : Bytes) : Option (Frame × Bytes) := do
  let (_, rest) ← cutAt beginMark input
  let (opening, rest) ← cutAt dashes rest
  let (body, rest) ← cutAt endMark (rest.dropWhile isGap)
  let (closing, rest) ← cutAt dashes rest
  return (⟨opening, body, closing⟩, rest)

private theorem reach_le {mark pending input : Bytes} {passed n : Nat}
    (h : reach mark pending input passed = some n) : passed ≤ n ∧ n ≤ passed + input.length := by
  fun_induction reach mark pending input passed with
  | case1 => simp_all
  | case2 => simp at h
  | case3 m pending b rest passed ih =>
    have := ih h
    simp only [List.length_cons]
    omega

private theorem cutAt_length {mark input before rest : Bytes}
    (h : cutAt mark input = some (before, rest)) :
    rest.length ≤ input.length := by
  simp only [cutAt, Option.map_eq_some_iff, Prod.mk.injEq] at h
  obtain ⟨n, _, _, rfl⟩ := h
  simp

private theorem reach_pos {mark pending input : Bytes} {passed n : Nat} (hp : pending ≠ [])
    (h : reach mark pending input passed = some n) : passed < n := by
  cases pending with
  | nil => exact absurd rfl hp
  | cons m pending =>
    cases input with
    | nil => simp [reach] at h
    | cons b rest =>
      simp only [reach] at h
      have := (reach_le h).1
      omega

private theorem cutAt_length_lt {mark input before rest : Bytes} (hm : mark ≠ [])
    (h : cutAt mark input = some (before, rest)) : rest.length < input.length := by
  simp only [cutAt, Option.map_eq_some_iff, Prod.mk.injEq] at h
  obtain ⟨n, hn, _, rfl⟩ := h
  have hpos := reach_pos hm hn
  have hle := (reach_le hn).2
  simp only [List.length_drop]
  omega

private theorem frame?_length {input rest : Bytes} {f : Frame} (h : frame? input = some (f, rest)) :
    rest.length < input.length := by
  simp only [frame?, Option.bind_eq_bind, Option.bind_eq_some_iff, Prod.exists] at h
  obtain ⟨_, r₁, h₁, _, r₂, h₂, _, r₃, h₃, _, r₄, h₄, h⟩ := h
  cases h
  have l₁ := cutAt_length_lt (by decide) h₁
  have l₂ := cutAt_length h₂
  have l₃ := cutAt_length h₃
  have l₄ := cutAt_length h₄
  have := (List.dropWhile_suffix (p := isGap) (l := r₂)).length_le
  omega

def frames (input : Bytes) : List Frame :=
  match _h : frame? input with
  | none => []
  | some (f, rest) => f :: frames rest
termination_by input.length
decreasing_by exact frame?_length (by assumption)

structure Block where
  label : String
  headers : List (String × String) := []
  contents : Bytes
  deriving DecidableEq, Repr

def Block.header? (b : Block) (name : String) : Option String :=
  (b.headers.find? (·.1 == name)).map Prod.snd

/-- The headers of a body and its data; an empty line stands between them. -/
def splitBody (body : Bytes) : Bytes × Bytes :=
  match cutAt [10, 10] body with
  | some parts => parts
  | none => (cutAt [13, 10, 13, 10] body).getD ([], body)

def lines (l : List Char) : List (List Char) :=
  let parts := (fields '\n' l).map fun line =>
    if line.getLast? = some '\r' then line.dropLast else line
  if parts.getLast? = some [] then parts.dropLast else parts

def headerOfLine (line : List Char) : Option (String × String) :=
  match cutFirst ':' line with
  | (name, some value) =>
    some (String.ofList (trim isBlank name), String.ofList (trim isBlank value))
  | (_, none) => none

def dataOf (text : List Char) : Option Bytes :=
  Base64.decode (Bytes.ofString (String.ofList (text.filter fun c => !isBlank c)))

def Frame.block? (f : Frame) : Option Block := do
  let opening ← Bytes.toString? f.opening
  let closing ← Bytes.toString? f.closing
  if opening.isEmpty || closing.isEmpty || opening != closing then none
  let (headers, data) := splitBody f.body
  let data ← dataOf (← Bytes.toString? data).toList
  let headers ← (lines (← Bytes.toString? headers).toList).mapM headerOfLine
  return ⟨opening, headers, data⟩

def blocks (input : Bytes) : Option (List Block) := (frames input).mapM Frame.block?

def encode (label : String) (contents : Bytes) : Bytes :=
  beginMark ++ Bytes.ofString label ++ dashes ++ [10] ++
    (Bytes.pieces 63 (Base64.encode contents)).flatMap (· ++ [10]) ++
    endMark ++ Bytes.ofString label ++ dashes ++ [10]

end TlsGate.Pki.Pem
