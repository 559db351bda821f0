import TlsGate.Pki.Pem
import TlsGate.Pki.PublicKey

/-!
Private keys: how they are read from armoured blocks of several forms, and the public keys that
belong to them.
-/

set_option autoImplicit false
set_option relaxedAutoImplicit false

namespace TlsGate.Pki

open Crypto Der

inductive PrivateKey where
  | rsa (modulus exponent secret : Nat)
  | ec (curve : Curve) (secret x y : Nat)
  | dsa (modulus order generator secret : Nat)
  | ed25519 (seed : Bytes)
  | x25519 (secret : Bytes)
  | other (secret encoded : Bytes)
  deriving DecidableEq, Repr

inductive PrivateKeyFault where
  | damaged
  | absent
  | encrypted
  | malformed
  deriving DecidableEq, Repr

namespace PrivateKeyFault

def message : PrivateKeyFault → String
  | damaged => "a block of the file is damaged"
  | absent => "the file has no private key"
  | encrypted => "the key is encrypted"
  | malformed => "the key is malformed"

end PrivateKeyFault

namespace PrivateKey

def publicKey : PrivateKey → PublicKey
  | rsa n e _ => .rsa n e
  | ec curve _ x y => .ec curve x y
  | dsa p q g x => .dsa p q g (powMod g x p)
  | ed25519 seed => .ed25519 (Edwards.publicOf seed)
  | x25519 secret => .x25519 (Edwards.agreementPublicOf secret)
  | other _ encoded => .other encoded

def passesFermat (p : Nat) : Bool := p % 2 == 1 && powMod 2 (p - 1) p == 1

/-- Reads a key with a modulus of two primes: version, modulus, exponents, primes, and the numbers
that speed up the use of the key. -/
def rsa? (e : Element) : Option PrivateKey := do
  match ← (← e.inside?).mapM Element.natural? with
  | [version, n, e, d, p, q, dp, dq, qi] =>
    let fits := version == 0 && p * q == n && passesFermat p && passesFermat q &&
      e * d % (p - 1) == 1 && e * d % (q - 1) == 1 && d % (p - 1) == dp && d % (q - 1) == dq &&
      q * qi % p == 1
    if fits then some (.rsa n e d) else none
  | _ => none

def ec? (outer : Option Curve) (e : Element) : Option PrivateKey := do
  match ← e.inside? with
  | version :: secret :: fields =>
    let secret ← secret.content? Tag.octetString
    let (inner, fields) ← match fields with
      | f :: rest =>
        if f.tag = Tag.wrapped 0 then
          match ← f.inside? (Tag.wrapped 0) with
          | [id] => some (some (← Curve.ofId? (← id.objectId?)), rest)
          | _ => none
        else some (none, f :: rest)
      | [] => some (none, [])
    let curve ← match outer, inner with
      | some a, some b => if a = b then some a else none
      | a, b => a.or b
    let n := number secret
    let (x, y) ← match fields with
      | [] => curve.publicOf? n
      | [f] =>
        if f.tag = Tag.wrapped 1 then
          match ← f.inside? (Tag.wrapped 1) with
          | [point] => curve.decode? (← point.bits?)
          | _ => none
        else none
      | _ => none
    if version.natural? = some 1 then some (.ec curve n x y) else none
  | _ => none

def dsa? (e : Element) : Option PrivateKey := do
  match ← (← e.inside?).mapM Element.natural? with
  | [version, p, q, g, _, x] => if version = 0 then some (.dsa p q g x) else none
  | _ => none

def raw? (make : Bytes → PrivateKey) (b : Bytes) : Option PrivateKey := do
  let key ← (← single? b).content? Tag.octetString
  if key.length = 32 then some (make key) else none

def tagged? (e : Element) : Option PrivateKey := do
  match ← e.inside? with
  | version :: algorithm :: key :: attributes =>
    let a ← Algorithm.ofElement? algorithm
    let key ← key.content? Tag.octetString
    let attributesFit := match attributes with
      | [] => true
      | [e] => e.tag == Tag.wrapped 0 && (elements? e.content).isSome
      | _ => false
    if version.natural? ≠ some 0 || !attributesFit then none
    else if a.id = ObjectId.rsa then rsa? (← single? key)
    else if a.id = ObjectId.ec then
      ec? (some (← (a.parameters?.bind Element.objectId?).bind Curve.ofId?)) (← single? key)
    else if a.id = ObjectId.dsa then
      let (p, q, g) ← a.parameters?.bind Algorithm.subgroup?
      return .dsa p q g (← (← single? key).natural?)
    else if a.id = ObjectId.ed25519 then raw? .ed25519 key
    else if a.id = ObjectId.x25519 then raw? .x25519 key
    else none
  | _ => none

def labels : List String :=
  ["PRIVATE KEY", "ENCRYPTED PRIVATE KEY", "RSA PRIVATE KEY", "EC PRIVATE KEY", "DSA PRIVATE KEY"]

def ofBlock (b : Pem.Block) : Except PrivateKeyFault PrivateKey :=
  if (b.header? "Proc-Type").isSome || b.label = "ENCRYPTED PRIVATE KEY" then .error .encrypted
  else
    let key := do
      let e ← single? b.contents
      match b.label with
      | "PRIVATE KEY" => tagged? e
      | "RSA PRIVATE KEY" => rsa? e
      | "EC PRIVATE KEY" => ec? none e
      | "DSA PRIVATE KEY" => dsa? e
      | _ => none
    match key with
    | some k => .ok k
    | none => .error .malformed

def ofPem (file : Bytes) : Except PrivateKeyFault PrivateKey :=
  match Pem.blocks file with
  | none => .error .damaged
  | some blocks =>
    match blocks.find? (labels.contains ·.label) with
    | none => .error .absent
    | some b => ofBlock b

end PrivateKey

end TlsGate.Pki
