import TlsGate.Bytes

/-!
Object identifiers that certificates and keys use, as the bytes of their arcs.
-/

set_option autoImplicit false
set_option relaxedAutoImplicit false

namespace TlsGate.Pki.ObjectId

/-- An arc in seven bits a byte; all bytes but the last have the high bit set. -/
def arc (n : Nat) : Bytes := more (n / 128) [(n % 128).toUInt8]
where
  more (n : Nat) (rest : Bytes) : Bytes :=
    if n = 0 then rest else more (n / 128) ((n % 128 + 128).toUInt8 :: rest)
  termination_by n
  decreasing_by omega

def ofArcs : List Nat → Bytes
  | first :: second :: rest => arc (40 * first + second) ++ rest.flatMap arc
  | _ => []

/-! ## Keys -/

def rsa : Bytes := ofArcs [1, 2, 840, 113549, 1, 1, 1]
def rsaPss : Bytes := ofArcs [1, 2, 840, 113549, 1, 1, 10]
def ec : Bytes := ofArcs [1, 2, 840, 10045, 2, 1]
def dsa : Bytes := ofArcs [1, 2, 840, 10040, 4, 1]
def x25519 : Bytes := ofArcs [1, 3, 101, 110]
def x448 : Bytes := ofArcs [1, 3, 101, 111]
def ed25519 : Bytes := ofArcs [1, 3, 101, 112]
def ed448 : Bytes := ofArcs [1, 3, 101, 113]

/-! ## Signatures -/

def rsaSignatures : Bytes := ofArcs [1, 2, 840, 113549, 1, 1]

def ecdsaSignatures : Bytes := ofArcs [1, 2, 840, 10045, 4]

def rsaSha256 : Bytes := ofArcs [1, 2, 840, 113549, 1, 1, 11]
def rsaSha384 : Bytes := ofArcs [1, 2, 840, 113549, 1, 1, 12]
def rsaSha512 : Bytes := ofArcs [1, 2, 840, 113549, 1, 1, 13]
def rsaSha224 : Bytes := ofArcs [1, 2, 840, 113549, 1, 1, 14]
def ecdsaSha224 : Bytes := ofArcs [1, 2, 840, 10045, 4, 3, 1]
def ecdsaSha256 : Bytes := ofArcs [1, 2, 840, 10045, 4, 3, 2]
def ecdsaSha384 : Bytes := ofArcs [1, 2, 840, 10045, 4, 3, 3]
def ecdsaSha512 : Bytes := ofArcs [1, 2, 840, 10045, 4, 3, 4]

/-! ## Digests -/

def sha256 : Bytes := ofArcs [2, 16, 840, 1, 101, 3, 4, 2, 1]
def sha384 : Bytes := ofArcs [2, 16, 840, 1, 101, 3, 4, 2, 2]
def sha512 : Bytes := ofArcs [2, 16, 840, 1, 101, 3, 4, 2, 3]
def sha224 : Bytes := ofArcs [2, 16, 840, 1, 101, 3, 4, 2, 4]

/-! ## Extensions and usages -/

def subjectKeyId : Bytes := ofArcs [2, 5, 29, 14]
def keyUsage : Bytes := ofArcs [2, 5, 29, 15]
def basicConstraints : Bytes := ofArcs [2, 5, 29, 19]
def authorityKeyId : Bytes := ofArcs [2, 5, 29, 35]
def extendedKeyUsage : Bytes := ofArcs [2, 5, 29, 37]
def clientAuthUsage : Bytes := ofArcs [1, 3, 6, 1, 5, 5, 7, 3, 2]

end TlsGate.Pki.ObjectId
