import TlsGate.Pki.Der
import TlsGate.Pki.ObjectId

/-!
Algorithm identifiers: an object identifier with parameters, whose form depends on it.
-/

set_option autoImplicit false
set_option relaxedAutoImplicit false

namespace TlsGate.Pki

open Der

structure Algorithm where
  id : Bytes
  parameters? : Option Element := none
  deriving DecidableEq, Repr

namespace Algorithm

def bare : List Bytes := [ObjectId.x25519, ObjectId.x448, ObjectId.ed25519, ObjectId.ed448]

def perhapsNull : List Bytes :=
  [ObjectId.rsa, ObjectId.rsaSha224, ObjectId.rsaSha256, ObjectId.rsaSha384, ObjectId.rsaSha512,
    ObjectId.ecdsaSha224, ObjectId.ecdsaSha256, ObjectId.ecdsaSha384, ObjectId.ecdsaSha512]

def isNull (e : Element) : Bool := e.tag == Tag.null && e.content.isEmpty

/-- The three numbers of the parameters of a signature algorithm in a subgroup: the modulus, the
order of the subgroup, and a generator. -/
def subgroup? (e : Element) : Option (Nat × Nat × Nat) := do
  match ← e.inside? with
  | [p, q, g] => return (← p.natural?, ← q.natural?, ← g.natural?)
  | _ => none

def parametersFit (a : Algorithm) : Bool :=
  if bare.contains a.id then a.parameters?.isNone
  else if perhapsNull.contains a.id then a.parameters?.all isNull
  else if a.id = ObjectId.ec then
    a.parameters?.any fun e => e.objectId?.isSome || isNull e || e.tag == Tag.sequence
  else if a.id = ObjectId.dsa then a.parameters?.any fun e => (subgroup? e).isSome
  else true

def ofElement? (e : Element) : Option Algorithm := do
  let a ← match ← e.inside? with
    | [id] => (id.objectId?).map fun id => (⟨id, none⟩ : Algorithm)
    | [id, parameters] => (id.objectId?).map fun id => ⟨id, some parameters⟩
    | _ => none
  if a.parametersFit then some a else none

end Algorithm

end TlsGate.Pki
