import TlsGate.Pki.Certificate

/-!
What the extensions of a certificate say about its use: whether it may issue others, what its key
is for, and which key issued it.
-/

set_option autoImplicit false
set_option relaxedAutoImplicit false

namespace TlsGate.Pki

open Der

/-- The statements of the extensions; an absent one restricts nothing. -/
structure Constraints where
  /-- Whether the certificate may issue others, and how many of them may follow each other. -/
  authority? : Option (Bool × Option Nat) := none
  keyUsage? : Option Bytes := none
  extendedUsage? : Option (List Bytes) := none
  subjectKey? : Option Bytes := none
  issuerKey? : Option Bytes := none
  deriving DecidableEq, Repr

namespace Constraints

def authorityOf? (value : Bytes) : Option (Bool × Option Nat) := do
  match ← (← single? value).inside? with
  | [] => some (false, none)
  | [a] => match a.boolean? with
    | some ca => some (ca, none)
    | none => return (false, some (← a.natural?))
  | [a, n] => return (← a.boolean?, some (← n.natural?))
  | _ => none

def issuerKeyOf? (value : Bytes) : Option (Option Bytes) := do
  let fields ← (← single? value).inside?
  return (fields.find? (·.tag == Tag.context 0)).map (·.content)

/-- The extensions that a chain keeps to: those that are read here, alternative names, policies and
their mappings, and places of revocation lists. Constraints on names and on policies are not among
them. -/
def enforced : List Bytes :=
  [ObjectId.keyUsage, ObjectId.basicConstraints, ObjectId.extendedKeyUsage,
    ObjectId.subjectKeyId, ObjectId.authorityKeyId] ++
    [[17], [31], [32], [33]].map ([0x55, 0x1D] ++ ·)

def addExtension (c : Constraints) (e : Extension) : Option Constraints := do
  if e.id = ObjectId.basicConstraints then
    return { c with authority? := some (← authorityOf? e.value) }
  else if e.id = ObjectId.keyUsage then
    return { c with keyUsage? := some (← (← single? e.value).bits?) }
  else if e.id = ObjectId.extendedKeyUsage then
    let usages ← (← (← single? e.value).inside?).mapM Element.objectId?
    return { c with extendedUsage? := some usages }
  else if e.id = ObjectId.subjectKeyId then
    return { c with subjectKey? := some (← (← single? e.value).content? Tag.octetString) }
  else if e.id = ObjectId.authorityKeyId then
    return { c with issuerKey? := ← issuerKeyOf? e.value }
  else some c

/-- The statements of all extensions; nothing if one of them cannot be read. -/
def ofCertificate? (c : Certificate) : Option Constraints := c.extensions.foldlM addExtension {}

/-- Whether a key may be used for one of the purposes in a mask; keys without a statement may be
used for all. -/
def allowsUse (c : Constraints) (mask : Nat) : Bool :=
  c.keyUsage?.all fun bits => (bits.head?.getD 0).toNat &&& mask != 0

def signing : Nat := 0x80

def agreement : Nat := 0x08

def issuing : Nat := 0x04

/-- Whether a certificate is one of an authority. One of the first version without extensions is if
it is its own issuer, and one that states a use of its key is if that use is issuing. -/
def isAuthority (c : Certificate) (k : Constraints) : Bool :=
  k.allowsUse issuing &&
    match k.authority? with
    | some (ca, _) => ca
    | none => k.keyUsage?.isSome || (c.version == 0 && c.issuer.encoded == c.subject.encoded)

end Constraints

namespace Certificate

def isAuthority (c : Certificate) : Bool :=
  (Constraints.ofCertificate? c).any (Constraints.isAuthority c)

def isEnforced (c : Certificate) : Bool :=
  c.extensions.all fun e => !e.critical || Constraints.enforced.contains e.id

end Certificate

end TlsGate.Pki
