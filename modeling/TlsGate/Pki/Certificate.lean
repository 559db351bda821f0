import TlsGate.Calendar
import TlsGate.Pki.KeyLibrary

/-!
Certificates: who vouches for whose key, from when to when, and what the key may be used for. A
certificate keeps its encoding, and two certificates are equal if their encodings are.
-/

set_option autoImplicit false
set_option relaxedAutoImplicit false

namespace TlsGate.Pki

open Der

structure Attribute where
  id : Bytes
  value : Element
  deriving DecidableEq, Repr

structure Name where
  encoded : Bytes
  groups : List (List Attribute)
  deriving DecidableEq, Repr

structure Extension where
  id : Bytes
  critical : Bool
  value : Bytes
  deriving DecidableEq, Repr

structure Certificate where
  encoded : Bytes
  signed : Bytes
  version : Nat
  serial : Bytes
  issuer : Name
  notBefore : Moment
  notAfter : Moment
  subject : Name
  keyAlgorithm : Algorithm
  key : Bytes
  extensions : List Extension
  signatureAlgorithm : Algorithm
  signature : Bytes
  deriving DecidableEq, Repr

inductive CertificateFault where
  | malformed
  | version
  deriving DecidableEq, Repr

namespace Name

def valueFits (e : Element) : Bool :=
  if e.tag = Tag.universalText then e.content.length % 4 == 0
  else if e.tag = Tag.bmpText then e.content.length % 2 == 0
  else true

def attribute? (e : Element) : Option Attribute := do
  match ← e.inside? with
  | [id, value] =>
    let id ← id.objectId?
    if valueFits value then some ⟨id, value⟩ else none
  | _ => none

def inOrder : List Element → Bool
  | a :: b :: rest => Bytes.lessOrEqual a.encoded b.encoded && inOrder (b :: rest)
  | _ => true

/-- Reads a name; the attributes of a group are in the order of their encodings. -/
def ofElement? (e : Element) : Option Name := do
  let groups ← (← e.inside?).mapM fun group => do
    let attributes ← group.inside? Tag.set
    if inOrder attributes then attributes.mapM attribute? else none
  return ⟨e.encoded, groups⟩

end Name

namespace Certificate

def twoDigits? (a b : UInt8) : Option Nat :=
  if Bytes.isDigit a && Bytes.isDigit b then some (Bytes.decimalValue [a, b]) else none

/-- Reads a time in universal time, with a year of two or of four digits. A year of two digits is
one of 1950 to 2049. -/
def time? (e : Element) : Option Moment := do
  let (year, rest) ← match e.content with
    | a :: b :: rest =>
      if e.tag = Tag.utcTime then do
        let y ← twoDigits? a b
        some (if 50 ≤ y then 1900 + y else 2000 + y, rest)
      else if e.tag = Tag.generalizedTime then
        match rest with
        | c :: d :: rest => do some (100 * (← twoDigits? a b) + (← twoDigits? c d), rest)
        | _ => none
      else none
    | _ => none
  match rest with
  | [m₁, m₂, d₁, d₂, h₁, h₂, i₁, i₂, s₁, s₂, 90] =>
    let moment : Moment :=
      ⟨⟨year, ← twoDigits? m₁ m₂, ← twoDigits? d₁ d₂⟩, ← twoDigits? h₁ h₂, ← twoDigits? i₁ i₂,
        ← twoDigits? s₁ s₂, 0, none⟩
    if moment.isValid then some moment else none
  | _ => none

/-- Reads an extension; that it is critical is written only if it is. -/
def extension? (e : Element) : Option Extension := do
  match ← e.inside? with
  | [id, value] => return ⟨← id.objectId?, false, ← value.content? Tag.octetString⟩
  | [id, critical, value] =>
    let id ← id.objectId?
    if (← critical.boolean?) then return ⟨id, true, ← value.content? Tag.octetString⟩ else none
  | _ => none

def takeTagged (tag : Bytes) : List Element → Option Element × List Element
  | e :: rest => if e.tag = tag then (some e, rest) else (none, e :: rest)
  | [] => (none, [])

def version? : Option Element → Option Nat
  | none => some 0
  | some e => do
    match ← e.inside? (Tag.wrapped 0) with
    | [n] =>
      let n ← n.natural?
      if n = 0 || 255 < n then none else some n
    | _ => none

def rest? (fields : List Element) : Option (List Extension) := do
  let (issuerNumber, fields) := takeTagged (Tag.context 1) fields
  let (subjectNumber, fields) := takeTagged (Tag.context 2) fields
  let (extensions, fields) := takeTagged (Tag.wrapped 3) fields
  let numbersFit := (issuerNumber.all fun e => (e.bits? (Tag.context 1)).isSome) &&
    subjectNumber.all fun e => (e.bits? (Tag.context 2)).isSome
  if !numbersFit || !fields.isEmpty then none
  else match extensions with
    | none => some []
    | some e => do
      match ← e.inside? (Tag.wrapped 3) with
      | [list] => (← list.inside?).mapM extension?
      | _ => none

def read? (der : Bytes) : Option Certificate := do
  match ← (← single? der).inside? with
  | [signed, signatureAlgorithm, signature] =>
    let (version, fields) := takeTagged (Tag.wrapped 0) (← signed.inside?)
    match fields with
    | serial :: inner :: issuer :: validity :: subject :: key :: more =>
      let _ ← Algorithm.ofElement? inner
      match ← validity.inside?, ← key.inside? with
      | [notBefore, notAfter], [keyAlgorithm, key] =>
        return {
          encoded := der
          signed := signed.encoded
          version := ← version? version
          serial := ← serial.integerBytes?
          issuer := ← Name.ofElement? issuer
          notBefore := ← time? notBefore
          notAfter := ← time? notAfter
          subject := ← Name.ofElement? subject
          keyAlgorithm := ← Algorithm.ofElement? keyAlgorithm
          key := ← key.bits?
          extensions := ← rest? more
          signatureAlgorithm := ← Algorithm.ofElement? signatureAlgorithm
          signature := ← signature.bits? }
      | _, _ => none
    | _ => none
  | _ => none

/-- Reads a certificate; the known versions are the first and the third. -/
def ofDer (der : Bytes) : Except CertificateFault Certificate :=
  match read? der with
  | none => .error .malformed
  | some c => if c.version = 0 || c.version = 2 then .ok c else .error .version

def publicKey [KeyLibrary] (c : Certificate) : Except KeyFault PublicKey :=
  KeyLibrary.publicKey c.keyAlgorithm c.key

def extension (c : Certificate) (id : Bytes) : Option Extension := c.extensions.find? (·.id == id)

def holdsAt (c : Certificate) (now : Moment) : Bool :=
  c.notBefore.seconds ≤ now.seconds && now.seconds ≤ c.notAfter.seconds

end Certificate

end TlsGate.Pki
