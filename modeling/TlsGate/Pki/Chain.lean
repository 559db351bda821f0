import TlsGate.Pki.Constraints
import TlsGate.Text.Blank

/-!
Whether a certificate of a client can be traced to a trusted root. The chain goes from the
certificate through its issuers to a root that is trusted; each certificate has to hold now, to
allow its use, and to carry a valid signature of the next one.
-/

set_option autoImplicit false
set_option relaxedAutoImplicit false

namespace TlsGate.Pki

namespace Name

def wideText (unit : Nat) (b : Bytes) : List Nat :=
  (Bytes.pieces (unit - 1) b).map Der.number

def text? (value : Der.Element) : Option (List Nat) :=
  if value.tag = Der.Tag.utf8Text then
    (Bytes.toString? value.content).map fun s => s.toList.map Char.toNat
  else if [Der.Tag.printableText, Der.Tag.teletexText, Der.Tag.ia5Text,
      Der.Tag.visibleText].contains value.tag then some (value.content.map UInt8.toNat)
  else if value.tag = Der.Tag.bmpText then some (wideText 2 value.content)
  else if value.tag = Der.Tag.universalText then some (wideText 4 value.content)
  else none

def isGap (n : Nat) : Bool := n == 32 || (9 ≤ n && n ≤ 13)

def squeezed : List Nat → List Nat
  | a :: b :: rest =>
    if isGap a && isGap b then squeezed (b :: rest)
    else (if isGap a then 32 else a) :: squeezed (b :: rest)
  | l => l

/-- A text in the form in which names are compared: no blanks at the ends, one blank in place of
several, and small letters of ASCII. -/
def comparable (l : List Nat) : List Nat :=
  (squeezed (Text.trim isGap l)).map fun n => if 65 ≤ n && n ≤ 90 then n + 32 else n

def alike (a b : Attribute) : Bool :=
  a.id == b.id &&
    match text? a.value, text? b.value with
    | some s, some t => comparable s == comparable t
    | none, none => a.value == b.value
    | _, _ => false

def agree {α : Type} (r : α → α → Bool) : List α → List α → Bool
  | [], [] => true
  | a :: as, b :: bs => r a b && agree r as bs
  | _, _ => false

def same (a b : Name) : Bool := agree (agree alike) a.groups b.groups

end Name

namespace Certificate

variable [KeyLibrary]

def fitsKeyOf (c issuer : Certificate) : Bool :=
  match issuer.publicKey with
  | .ok key => key.signsBy c.signatureAlgorithm.id
  | .error _ => false

def namesIssuer (c issuer : Certificate) : Bool :=
  c.issuer.same issuer.subject && c.fitsKeyOf issuer &&
    match Constraints.ofCertificate? c, Constraints.ofCertificate? issuer with
    | some a, some b =>
      (match a.issuerKey?, b.subjectKey? with
        | some wanted, some found => wanted == found
        | _, _ => true) && b.allowsUse Constraints.issuing
    | _, _ => false

def isRoot (c : Certificate) : Bool :=
  c.issuer.same c.subject && c.fitsKeyOf c &&
    match Constraints.ofCertificate? c with
    | some k => (match k.issuerKey?, k.subjectKey? with
      | some wanted, some found => wanted == found
      | _, _ => true)
    | none => true

def isSignedBy (c issuer : Certificate) : Bool :=
  match issuer.publicKey with
  | .ok key => key.verifies c.signatureAlgorithm.id c.signed c.signature
  | .error _ => false

def hasStrongKey (c : Certificate) : Bool :=
  match c.publicKey with
  | .ok key => key.isStrong
  | .error _ => false

end Certificate

namespace Chain

variable [KeyLibrary]

def issuer? (now : Moment) (candidates : List Certificate) (c : Certificate) : Option Certificate :=
  let issuers := candidates.filter c.namesIssuer
  (issuers.find? (·.holdsAt now)).or issuers.head?

/-- The chain from a certificate to a trusted root. An issuer is looked for among the trusted
certificates first, then among those that the client sent. -/
def path? (now : Moment) (roots offered : List Certificate) : (fuel : Nat) → Certificate →
    Option (List Certificate)
  | 0, _ => none
  | fuel + 1, c =>
    if c.isRoot then (if roots.contains c then some [c] else none)
    else
      match (issuer? now roots c).or (issuer? now offered c) with
      | some issuer => (path? now roots offered fuel issuer).map (c :: ·)
      | none => none

/-- Whether a certificate may stand at a place of a chain: as the client's own at place zero, or as
the issuer of the certificates before it. -/
def isFit (place : Nat) (c : Certificate) : Bool :=
  c.isEnforced && match Constraints.ofCertificate? c with
  | none => false
  | some k =>
    (k.extendedUsage?.all fun usages => usages.contains ObjectId.clientAuthUsage) &&
      if place = 0 then k.allowsUse (Constraints.signing + Constraints.agreement)
      else
        k.isAuthority c &&
          match k.authority? with
          | some (_, some most) => place - 1 ≤ most
          | _ => true

def isSigned : List Certificate → Bool
  | c :: issuer :: rest => c.isSignedBy issuer && isSigned (issuer :: rest)
  | _ => true

/-- The verdicts on what a client sent, its own certificate first: whether there is a chain to a
root, and of each certificate in it whether it holds, fits its place and has a strong key, and
whether all signatures are valid. -/
def verdicts (now : Moment) (roots : List Certificate) (own : Certificate)
    (offered : List Certificate) : List Bool :=
  match path? now roots offered (roots.length + offered.length + 2) own with
  | none => [false]
  | some chain =>
    (chain.mapIdx fun place c => c.holdsAt now && isFit place c && c.hasStrongKey) ++
      [isSigned chain]

end Chain

end TlsGate.Pki
