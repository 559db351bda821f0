import TlsGate.Pki.PrivateKey
import TlsGate.Pki.TrustPool

/-!
Armoured blocks as TLS engines read them from files: line by line. The lines of a block have to
begin at their margins, and a damaged block hides everything behind it.
-/

set_option autoImplicit false
set_option relaxedAutoImplicit false

namespace TlsGate.Pki.PemLines

/-- The most bytes that are read at once; a longer line comes in several parts. -/
def partSize : Nat := 254

def part (file : Bytes) : Bytes × Bool :=
  let line := file.takeWhile (· ≠ 10)
  if line.length < partSize then (line, false)
  else (file.take partSize, true)

def tidy (part : Bytes) : Bytes :=
  ((part.takeWhile (· ≠ 0)).reverse.dropWhile fun b => b ≤ 32 || 128 ≤ b).reverse

/-- One part of a line: its tidy bytes, whether it has a colon, and whether the line goes on. -/
structure Part where
  text : Bytes
  hasColon : Bool
  goesOn : Bool
  deriving DecidableEq, Repr

/-- The parts of a file; reading ends at a part that begins with a zero byte. -/
def parts (file : Bytes) : List Part :=
  if file.isEmpty || file.head? = some 0 then []
  else
    let (text, goesOn) := part file
    ⟨tidy text, (text.takeWhile (· ≠ 0)).contains 58, goesOn⟩ ::
      parts (file.drop (if goesOn then partSize else text.length + 1))
termination_by file.length
decreasing_by
  rename_i h
  have hpos : 0 < file.length := by
    cases file with
    | nil => simp at h
    | cons => simp
  simp only [List.length_drop, partSize]
  split <;> omega

def withoutMark (text : Bytes) : Bytes :=
  if [239, 187, 191].isPrefixOf text then text.drop 3 else text

def label? (line : Bytes) : Option Bytes :=
  if Pem.beginMark.isPrefixOf line && Pem.dashes.isSuffixOf (line.drop Pem.beginMark.length) then
    some ((line.drop Pem.beginMark.length).dropLast.dropLast.dropLast.dropLast.dropLast)
  else none

/-- Skips to the next BEGIN line. A byte order mark may stand where the search begins. -/
def opening? : (isFirst : Bool) → List Part → Option (Bytes × List Part)
  | _, [] => none
  | isFirst, p :: rest =>
    match label? (if isFirst then withoutMark p.text else p.text) with
    | some label => some (label, rest)
    | none => opening? false rest

inductive Progress where
  | unknown
  | headers
  | data
  deriving DecidableEq, Repr

structure Body where
  progress : Progress := .unknown
  taken : List Bytes := []
  before : List Bytes := []
  short : Bool := false
  cutBefore : Bool := false

/-- Reads a body up to the END line with a label; nothing if the block is damaged. -/
def body? (label : Bytes) (b : Body) : List Part → Option (Bytes × List Part)
  | [] => none
  | p :: rest =>
    let progress := if b.progress = .unknown && p.hasColon then .headers else b.progress
    if p.text.isEmpty then
      if b.cutBefore then body? label { b with progress := progress, cutBefore := p.goesOn } rest
      else if progress = .data then none
      else
        body? label { b with
          progress := .data, before := b.taken, taken := [], cutBefore := p.goesOn } rest
    else if Pem.endMark.isPrefixOf p.text then
      if p.text = Pem.endMark ++ label ++ Pem.dashes then
        if progress = .headers then some ([], rest) else some (b.taken.reverse.flatten, rest)
      else none
    else if b.short then none
    else if progress = .data && 64 < p.text.length then none
    else
      body? label { b with
        progress := progress
        taken := p.text :: b.taken
        short := progress = .data && p.text.length < 64
        cutBefore := p.goesOn } rest

/-- What the reading of a file comes to: blocks, and whether it ended at a damaged one. -/
structure Reading where
  blocks : List (Bytes × Bytes) := []
  damaged : Bool := false
  deriving DecidableEq, Repr

def blocks : (fuel : Nat) → List Part → Reading
  | 0, _ => {}
  | fuel + 1, parts =>
    match opening? true parts with
    | none => {}
    | some (label, rest) =>
      match body? label {} rest with
      | none => { damaged := true }
      | some (data, rest) =>
        match Base64.decode (data.filter fun b => b ≠ 32 && b ≠ 9 && b ≠ 10 && b ≠ 13) with
        | none => { damaged := true }
        | some contents =>
          let more := blocks fuel rest
          { more with blocks := (label, contents) :: more.blocks }

def read (file : Bytes) : Reading :=
  let parts := parts file
  blocks (parts.length + 1) parts

def readsName (n : Name) : Bool :=
  n.groups.all fun group => group.all fun a =>
    if a.value.tag = Der.Tag.utf8Text then (Bytes.toString? a.value.content).isSome
    else [3, 7, 8, 9, 11, 13, 14, 15, 48, 18, 19, 20, 22, 28, 29, 30].any fun t => a.value.tag = [t]

def readsCertificate (c : Certificate) : Bool := readsName c.issuer && readsName c.subject

def certificate? (contents : Bytes) : Option Certificate :=
  match Certificate.read? contents with
  | some c => if readsCertificate c then some c else none
  | none => none

def chain? (file : Bytes) : Option (Certificate × List Certificate) :=
  let reading := read file
  let found := reading.blocks.filter fun b =>
    Certificate.labels.any fun label => Bytes.ofString label = b.1
  if reading.damaged then none
  else match found.mapM fun b => certificate? b.2 with
    | some (leaf :: others) => some (leaf, others)
    | _ => none

def key? (file : Bytes) : Option PrivateKey := do
  let (label, contents) ← (read file).blocks.find? fun b =>
    PrivateKey.labels.any fun label => Bytes.ofString label = b.1
  (PrivateKey.ofBlock ⟨← Bytes.toString? label, [], contents⟩).toOption

end TlsGate.Pki.PemLines

namespace TlsGate.Pki

@[reducible] def KeyLibrary.standard : KeyLibrary where
  publicKey := PublicKey.ofInfo
  privateKey := PrivateKey.ofPem
  engineKey? := PemLines.key?
  takes key := key.canSign && key.isStrong

end TlsGate.Pki
