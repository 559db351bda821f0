import TlsGate.Bytes

/-!
The distinguished encoding of values as bytes: every value is a tag, a length and a content, and
has one encoding only. The readers refuse every other one.
-/

set_option autoImplicit false
set_option relaxedAutoImplicit false

namespace TlsGate.Pki.Der

structure Element where
  tag : Bytes
  content : Bytes
  encoded : Bytes
  deriving DecidableEq, Repr

def tagNumber : Bytes → Option (Bytes × Bytes)
  | [] => none
  | b :: rest =>
    if b < 128 then some ([b], rest)
    else (tagNumber rest).map fun (number, rest) => (b :: number, rest)

/-- The tag at the front. A number below 31 stands in the first byte. -/
def tag? : Bytes → Option (Bytes × Bytes)
  | [] => none
  | b :: rest =>
    if b % 32 ≠ 31 then some ([b], rest)
    else match tagNumber rest with
      | none => none
      | some (number, rest) =>
        if number.head? = some 128 || (number.length = 1 && number.all (· < 31)) then none
        else some (b :: number, rest)

def number (b : Bytes) : Nat := b.foldl (fun n x => 256 * n + x.toNat) 0

def length? : Bytes → Option (Nat × Bytes)
  | [] => none
  | b :: rest =>
    if b < 128 then some (b.toNat, rest)
    else
      let count := b.toNat - 128
      let n := number (rest.take count)
      if count = 0 || 4 < count || rest.length < count || rest.head? = some 0 || n < 128 then none
      else some (n, rest.drop count)

def element? (input : Bytes) : Option (Element × Bytes) :=
  match tag? input with
  | none => none
  | some (tag, rest) =>
    match length? rest with
    | none => none
    | some (length, rest) =>
      if rest.length < length then none
      else
        let after := rest.drop length
        some (⟨tag, rest.take length, input.take (input.length - after.length)⟩, after)

private theorem tagNumber_length {input number rest : Bytes}
    (h : tagNumber input = some (number, rest)) : rest.length < input.length := by
  induction input generalizing number rest with
  | nil => simp [tagNumber] at h
  | cons x input ih =>
    unfold tagNumber at h
    split at h
    · cases h; simp
    · simp only [Option.map_eq_some_iff, Prod.mk.injEq, Prod.exists] at h
      obtain ⟨_, _, h, _, rfl⟩ := h
      have := ih h
      simp only [List.length_cons]
      omega

private theorem tag?_length {input tag rest : Bytes} (h : tag? input = some (tag, rest)) :
    rest.length < input.length := by
  unfold tag? at h
  split at h
  · simp at h
  · split at h
    · cases h; simp
    · split at h
      · simp at h
      · rename_i number_eq
        have := tagNumber_length number_eq
        split at h
        · simp at h
        · cases h
          simp only [List.length_cons]
          omega

private theorem length?_length {input rest : Bytes} {n : Nat}
    (h : length? input = some (n, rest)) : rest.length ≤ input.length := by
  unfold length? at h
  split at h
  · simp at h
  · split at h
    · cases h; simp
    · simp only at h
      split at h
      · simp at h
      · simp only [Option.some.injEq, Prod.mk.injEq] at h
        rw [← h.2, List.length_drop, List.length_cons]
        omega

private theorem element?_length {input rest : Bytes} {e : Element}
    (h : element? input = some (e, rest)) :
    rest.length < input.length := by
  unfold element? at h
  split at h
  · simp at h
  · rename_i tag_eq
    have := tag?_length tag_eq
    split at h
    · simp at h
    · rename_i length_eq
      have := length?_length length_eq
      split at h
      · simp at h
      · simp only [Option.some.injEq, Prod.mk.injEq] at h
        rw [← h.2, List.length_drop]
        omega

def elements? (input : Bytes) : Option (List Element) :=
  if input.isEmpty then some []
  else match _h : element? input with
    | none => none
    | some (e, rest) => (elements? rest).map (e :: ·)
termination_by input.length
decreasing_by exact element?_length (by assumption)

def single? (input : Bytes) : Option Element :=
  match element? input with
  | some (e, []) => some e
  | _ => none

namespace Tag

def boolean : Bytes := [0x01]
def integer : Bytes := [0x02]
def bitString : Bytes := [0x03]
def octetString : Bytes := [0x04]
def null : Bytes := [0x05]
def objectId : Bytes := [0x06]
def utf8Text : Bytes := [0x0C]
def printableText : Bytes := [0x13]
def teletexText : Bytes := [0x14]
def ia5Text : Bytes := [0x16]
def utcTime : Bytes := [0x17]
def generalizedTime : Bytes := [0x18]
def visibleText : Bytes := [0x1A]
def universalText : Bytes := [0x1C]
def bmpText : Bytes := [0x1E]
def sequence : Bytes := [0x30]
def set : Bytes := [0x31]

def context (n : UInt8) : Bytes := [0x80 + n]

def wrapped (n : UInt8) : Bytes := [0xA0 + n]

end Tag

namespace Element

def content? (tag : Bytes) (e : Element) : Option Bytes :=
  if e.tag = tag then some e.content else none

def inside? (e : Element) (tag : Bytes := Tag.sequence) : Option (List Element) := do
  elements? (← e.content? tag)

def integerBytes? (e : Element) : Option Bytes := do
  match ← e.content? Tag.integer with
  | [] => none
  | [b] => some [b]
  | a :: b :: rest =>
    if (a = 0 && b < 128) || (a = 255 && 128 ≤ b) then none else some (a :: b :: rest)

def natural? (e : Element) : Option Nat := do
  let b ← e.integerBytes?
  if b.head?.any (128 ≤ ·) then none else some (number b)

/-- The bits of a bit string, whose count must be a multiple of eight unless `unused` bits may be
left over; these are zero. -/
def bits? (e : Element) (tag : Bytes := Tag.bitString) : Option Bytes := do
  match ← e.content? tag with
  | [] => none
  | unused :: rest =>
    if 7 < unused then none
    else match rest.getLast? with
      | none => if unused = 0 then some [] else none
      | some last => if last.toNat % Nat.pow 2 unused.toNat = 0 then some rest else none

def boolean? (e : Element) : Option Bool := do
  match ← e.content? Tag.boolean with
  | [0] => some false
  | [255] => some true
  | _ => none

/-- Whether bytes are arcs of seven bits a byte, each in as few bytes as can be; `first` says that
an arc begins here. -/
def areArcs (first : Bool) : Bytes → Bool
  | [] => first
  | b :: rest => !(first && b = 128) && areArcs (b < 128) rest

def objectId? (e : Element) : Option Bytes := do
  let b ← e.content? Tag.objectId
  if b.isEmpty || !areArcs true b then none else some b

end Element

end TlsGate.Pki.Der
