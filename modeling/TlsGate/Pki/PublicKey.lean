import TlsGate.Crypto.Curve
import TlsGate.Crypto.Edwards
import TlsGate.Pki.Algorithm

/-!
Public keys: how they are read from a certificate, how strong they are, and which signatures they
verify.
-/

set_option autoImplicit false
set_option relaxedAutoImplicit false

namespace TlsGate.Pki

open Crypto Der

/-- A public key. Two keys are the same if they have the same numbers, however they were written. -/
inductive PublicKey where
  | rsa (modulus exponent : Nat)
  | ec (curve : Curve) (x y : Nat)
  | dsa (modulus order generator key : Nat)
  | ed25519 (key : Bytes)
  | x25519 (key : Bytes)
  | other (encoded : Bytes)
  deriving DecidableEq, Repr

/-- What is wrong with the key of a certificate that is otherwise well formed. -/
inductive KeyFault where
  | unsupported
  | invalid
  deriving DecidableEq, Repr

namespace PublicKey

def pair? (e : Element) : Option (Nat × Nat) := do
  match ← e.inside? with
  | [a, b] => return (← a.natural?, ← b.natural?)
  | _ => none

def checked (key : Option PublicKey) : Except KeyFault PublicKey :=
  match key with
  | some k => .ok k
  | none => .error .invalid

def ofRaw (size : Nat) (make : Bytes → PublicKey) (b : Bytes) : Except KeyFault PublicKey :=
  if b.length = size then .ok (make b) else .error .invalid

def ofInfo (a : Algorithm) (key : Bytes) : Except KeyFault PublicKey :=
  if a.id = ObjectId.rsa ∨ a.id = ObjectId.rsaPss then
    checked do
      let (n, e) ← pair? (← single? key)
      return .rsa n e
  else if a.id = ObjectId.ec then
    match (a.parameters?.bind Element.objectId?).bind Curve.ofId? with
    | none => .error .unsupported
    | some curve => checked ((curve.decode? key).map fun (x, y) => .ec curve x y)
  else if a.id = ObjectId.dsa then
    checked do
      let (p, q, g) ← a.parameters?.bind Algorithm.subgroup?
      return .dsa p q g (← (← single? key).natural?)
  else if a.id = ObjectId.ed25519 then ofRaw 32 .ed25519 key
  else if a.id = ObjectId.x25519 then ofRaw 32 .x25519 key
  else if a.id = ObjectId.ed448 then ofRaw 57 .other key
  else if a.id = ObjectId.x448 then ofRaw 56 .other key
  else .error .unsupported

def isStrong : PublicKey → Bool
  | rsa n _ => 2048 ≤ n.log2 + 1
  | ec curve _ _ => 224 ≤ curve.order.log2 + 1
  | dsa p q _ _ => 2048 ≤ p.log2 + 1 && 224 ≤ q.log2 + 1
  | _ => true

def canSign : PublicKey → Bool
  | x25519 _ => false
  | _ => true

/-- The digest of a signature algorithm, its object identifier, and whether the algorithm is one of
elliptic curves. -/
def digestOf? (id : Bytes) : Option (Digest × Bytes × Bool) :=
  if id = ObjectId.rsaSha224 then some (.sha224, ObjectId.sha224, false)
  else if id = ObjectId.rsaSha256 then some (.sha256, ObjectId.sha256, false)
  else if id = ObjectId.rsaSha384 then some (.sha384, ObjectId.sha384, false)
  else if id = ObjectId.rsaSha512 then some (.sha512, ObjectId.sha512, false)
  else if id = ObjectId.ecdsaSha224 then some (.sha224, ObjectId.sha224, true)
  else if id = ObjectId.ecdsaSha256 then some (.sha256, ObjectId.sha256, true)
  else if id = ObjectId.ecdsaSha384 then some (.sha384, ObjectId.sha384, true)
  else if id = ObjectId.ecdsaSha512 then some (.sha512, ObjectId.sha512, true)
  else none

def digestInfo (id digest : Bytes) : Bytes :=
  let algorithm := Tag.objectId ++ [id.length.toUInt8] ++ id ++ [5, 0]
  let body := Tag.sequence ++ [algorithm.length.toUInt8] ++ algorithm ++
    Tag.octetString ++ [digest.length.toUInt8] ++ digest
  Tag.sequence ++ [body.length.toUInt8] ++ body

def signsBy (algorithm : Bytes) : PublicKey → Bool
  | rsa .. => ObjectId.rsaSignatures.isPrefixOf algorithm
  | ec .. => ObjectId.ecdsaSignatures.isPrefixOf algorithm
  | ed25519 _ => algorithm == ObjectId.ed25519
  | _ => false

def verifies (key : PublicKey) (algorithm message signature : Bytes) : Bool :=
  match key with
  | rsa n e =>
    match digestOf? algorithm with
    | some (digest, id, false) =>
      let size := (n.log2 + 8) / 8
      let info := digestInfo id (digest.digest message)
      let wanted := 0 :: 1 :: List.replicate (size - 3 - info.length) 255 ++ 0 :: info
      signature.length == size && wanted.length == size &&
        powMod (number signature) e n == number wanted
    | _ => false
  | ec curve x y =>
    match digestOf? algorithm, (single? signature).bind pair? with
    | some (digest, _, true), some (r, s) => curve.verifies x y (digest.digest message) r s
    | _, _ => false
  | ed25519 key => algorithm == ObjectId.ed25519 && Edwards.verifies key message signature
  | _ => false

end PublicKey

end TlsGate.Pki
