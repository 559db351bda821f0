import TlsGate.Crypto.Digest

/-!
Elliptic curves in the short form over a prime field, and signatures made with them. A point is
kept as three numbers while it is computed with, so that only one inverse is needed in the end.
-/

set_option autoImplicit false
set_option relaxedAutoImplicit false

namespace TlsGate.Crypto

/-- The curve `y² = x³ + a x + b` modulo a prime, with a base point of prime order. -/
structure Curve where
  id : Bytes
  prime : Nat
  a : Nat
  b : Nat
  order : Nat
  baseX : Nat
  baseY : Nat
  deriving DecidableEq, Repr

/-- A point as `x / z²` and `y / z³`; the point at infinity has `z = 0`. -/
structure Point where
  x : Nat
  y : Nat
  z : Nat
  deriving DecidableEq, Repr

namespace Curve

def p192 : Curve where
  id := [0x2A, 0x86, 0x48, 0xCE, 0x3D, 0x03, 0x01, 0x01]
  prime := Nat.pow 2 192 - Nat.pow 2 64 - 1
  a := Nat.pow 2 192 - Nat.pow 2 64 - 1 - 3
  b := 0x64210519E59C80E70FA7E9AB72243049FEB8DEECC146B9B1
  order := 0xFFFFFFFFFFFFFFFFFFFFFFFF99DEF836146BC9B1B4D22831
  baseX := 0x188DA80EB03090F67CBF20EB43A18800F4FF0AFD82FF1012
  baseY := 0x7192B95FFC8DA78631011ED6B24CDD573F977A11E794811

def p224 : Curve where
  id := [0x2B, 0x81, 0x04, 0x00, 0x21]
  prime := Nat.pow 2 224 - Nat.pow 2 96 + 1
  a := Nat.pow 2 224 - Nat.pow 2 96 + 1 - 3
  b := 0xB4050A850C04B3ABF54132565044B0B7D7BFD8BA270B39432355FFB4
  order := 0xFFFFFFFFFFFFFFFFFFFFFFFFFFFF16A2E0B8F03E13DD29455C5C2A3D
  baseX := 0xB70E0CBD6BB4BF7F321390B94A03C1D356C21122343280D6115C1D21
  baseY := 0xBD376388B5F723FB4C22DFE6CD4375A05A07476444D5819985007E34

def p256 : Curve where
  id := [0x2A, 0x86, 0x48, 0xCE, 0x3D, 0x03, 0x01, 0x07]
  prime := Nat.pow 2 256 - Nat.pow 2 224 + Nat.pow 2 192 + Nat.pow 2 96 - 1
  a := Nat.pow 2 256 - Nat.pow 2 224 + Nat.pow 2 192 + Nat.pow 2 96 - 1 - 3
  b := 0x5AC635D8AA3A93E7B3EBBD55769886BC651D06B0CC53B0F63BCE3C3E27D2604B
  order := 0xFFFFFFFF00000000FFFFFFFFFFFFFFFFBCE6FAADA7179E84F3B9CAC2FC632551
  baseX := 0x6B17D1F2E12C4247F8BCE6E563A440F277037D812DEB33A0F4A13945D898C296
  baseY := 0x4FE342E2FE1A7F9B8EE7EB4A7C0F9E162BCE33576B315ECECBB6406837BF51F5

def p384 : Curve where
  id := [0x2B, 0x81, 0x04, 0x00, 0x22]
  prime := Nat.pow 2 384 - Nat.pow 2 128 - Nat.pow 2 96 + Nat.pow 2 32 - 1
  a := Nat.pow 2 384 - Nat.pow 2 128 - Nat.pow 2 96 + Nat.pow 2 32 - 1 - 3
  b := 0xB3312FA7E23EE7E4 * Nat.pow 2 320 +
    0x988E056BE3F82D19181D9C6EFE8141120314088F5013875AC656398D8A2ED19D2A85C8EDD3EC2AEF
  order := 0xFFFFFFFFFFFFFFFF * Nat.pow 2 320 +
    0xFFFFFFFFFFFFFFFFFFFFFFFFFFFFFFFFC7634D81F4372DDF581A0DB248B0A77AECEC196ACCC52973
  baseX := 0xAA87CA22BE8B0537 * Nat.pow 2 320 +
    0x8EB1C71EF320AD746E1D3B628BA79B9859F741E082542A385502F25DBF55296C3A545E3872760AB7
  baseY := 0x3617DE4A96262C6F * Nat.pow 2 320 +
    0x5D9E98BF9292DC29F8F41DBD289A147CE9DA3113B5F0B8C00A60B1CE1D7E819D7A431D7C90EA0E5F

def p521 : Curve where
  id := [0x2B, 0x81, 0x04, 0x00, 0x23]
  prime := Nat.pow 2 521 - 1
  a := Nat.pow 2 521 - 1 - 3
  b := 0x51953EB9618E1C9A1F929A21A0B68540EEA2DA725B99B315F3 * Nat.pow 2 320 +
    0xB8B489918EF109E156193951EC7E937B1652C0BD3BB1BF073573DF883D2C34F1EF451FD46B503F00
  order := 0x1FFFFFFFFFFFFFFFFFFFFFFFFFFFFFFFFFFFFFFFFFFFFFFFFFF * Nat.pow 2 320 +
    0xFFFFFFFFFFFFFFFA51868783BF2F966B7FCC0148F709A5D03BB5C9B8899C47AEBB6FB71E91386409
  baseX := 0xC6858E06B70404E9CD9E3ECB662395B4429C648139053FB521 * Nat.pow 2 320 +
    0xF828AF606B4D3DBAA14B5E77EFE75928FE1DC127A2FFA8DE3348B3C1856A429BF97E7E31C2E5BD66
  baseY := 0x11839296A789A3BC0045C8A5FB42C7D1BD998F54449579B4468 * Nat.pow 2 320 +
    0x17AFBD17273E662C97EE72995EF42640C550B9013FAD0761353C7086A272C24088BE94769FD16650

def k256 : Curve where
  id := [0x2B, 0x81, 0x04, 0x00, 0x0A]
  prime := Nat.pow 2 256 - Nat.pow 2 32 - 977
  a := 0
  b := 0x7
  order := 0xFFFFFFFFFFFFFFFFFFFFFFFFFFFFFFFEBAAEDCE6AF48A03BBFD25E8CD0364141
  baseX := 0x79BE667EF9DCBBAC55A06295CE870B07029BFCDB2DCE28D959F2815B16F81798
  baseY := 0x483ADA7726A3C4655DA4FBFC0E1108A8FD17B448A68554199C47D08FFB10D4B8

def b256 : Curve where
  id := [0x2B, 0x24, 0x03, 0x03, 0x02, 0x08, 0x01, 0x01, 0x07]
  prime := 0xA9FB57DBA1EEA9BC3E660A909D838D726E3BF623D52620282013481D1F6E5377
  a := 0x7D5A0975FC2C3057EEF67530417AFFE7FB8055C126DC5C6CE94A4B44F330B5D9
  b := 0x26DC5C6CE94A4B44F330B5D9BBD77CBF958416295CF7E1CE6BCCDC18FF8C07B6
  order := 0xA9FB57DBA1EEA9BC3E660A909D838D718C397AA3B561A6F7901E0E82974856A7
  baseX := 0x8BD2AEB9CB7E57CB2C4B482FFC81B7AFB9DE27E1E3BD23C23A4453BD9ACE3262
  baseY := 0x547EF835C3DAC4FD97F8461A14611DC9C27745132DED8E545C1D54C72F046997

def b384 : Curve where
  id := [0x2B, 0x24, 0x03, 0x03, 0x02, 0x08, 0x01, 0x01, 0x0B]
  prime := 0x8CB91E82A3386D28 * Nat.pow 2 320 +
    0xF5D6F7E50E641DF152F7109ED5456B412B1DA197FB71123ACD3A729901D1A71874700133107EC53
  a := 0x7BC382C63D8C150C * Nat.pow 2 320 +
    0x3C72080ACE05AFA0C2BEA28E4FB22787139165EFBA91F90F8AA5814A503AD4EB04A8C7DD22CE2826
  b := 0x4A8C7DD22CE2826 * Nat.pow 2 320 +
    0x8B39B55416F0447C2FB77DE107DCD2A62E880EA53EEB62D57CB4390295DBC9943AB78696FA504C11
  order := 0x8CB91E82A3386D28 * Nat.pow 2 320 +
    0xF5D6F7E50E641DF152F7109ED5456B31F166E6CAC0425A7CF3AB6AF6B7FC3103B883202E9046565
  baseX := 0x1D1C64F068CF45FF * Nat.pow 2 320 +
    0xA2A63A81B7C13F6B8847A3E77EF14FE3DB7FCAFE0CBD10E8E826E03436D646AAEF87B2E247D4AF1E
  baseY := 0x8ABE1D7520F9C2A4 * Nat.pow 2 320 +
    0x5CB1EB8E95CFD55262B70B29FEEC5864E19C054FF99129280E4646217791811142820341263C5315

def b512 : Curve where
  id := [0x2B, 0x24, 0x03, 0x03, 0x02, 0x08, 0x01, 0x01, 0x0D]
  prime := 0xAADD9DB8DBE9C48B3FD4E6AE33C9FC07CB308DB3B3C9D20E * Nat.pow 2 320 +
    0xD6639CCA703308717D4D9B009BC66842AECDA12AE6A380E62881FF2F2D82C68528AA6056583A48F3
  a := 0x7830A3318B603B89E2327145AC234CC594CBDD8D3DF91610 * Nat.pow 2 320 +
    0xA83441CAEA9863BC2DED5D5AA8253AA10A2EF1C98B9AC8B57F1117A72BF2C7B9E7C1AC4D77FC94CA
  b := 0x3DF91610A83441CAEA9863BC2DED5D5AA8253AA10A2EF1C9 * Nat.pow 2 320 +
    0x8B9AC8B57F1117A72BF2C7B9E7C1AC4D77FC94CADC083E67984050B75EBAE5DD2809BD638016F723
  order := 0xAADD9DB8DBE9C48B3FD4E6AE33C9FC07CB308DB3B3C9D20E * Nat.pow 2 320 +
    0xD6639CCA70330870553E5C414CA92619418661197FAC10471DB1D381085DDADDB58796829CA90069
  baseX := 0x81AEE4BDD82ED9645A21322E9C4C6A9385ED9F70B5D916C1 * Nat.pow 2 320 +
    0xB43B62EEF4D0098EFF3B1F78E2D0D48D50D1687B93B97D5F7C6D5047406A5E688B352209BCB9F822
  baseY := 0x7DDE385D566332ECC0EABFA9CF7822FDF209F70024A57B1A * Nat.pow 2 320 +
    0xA000C55B881F8111B2DCDE494A5F485E5BCA4BD88A2763AED1CA2B2FA8F0540678CD1E0F3AD80892

def all : List Curve := [p192, p224, p256, p384, p521, k256, b256, b384, b512]

def ofId? (id : Bytes) : Option Curve := all.find? (·.id == id)

def width (c : Curve) : Nat := (c.prime.log2 + 8) / 8

def contains (c : Curve) (x y : Nat) : Bool :=
  x < c.prime && y < c.prime && y * y % c.prime == ((x * x + c.a) * x + c.b) % c.prime

def base (c : Curve) : Point := ⟨c.baseX, c.baseY, 1⟩

def double (c : Curve) (q : Point) : Point :=
  let p := c.prime
  if q.z = 0 || q.y = 0 then ⟨1, 1, 0⟩
  else
    let yy := q.y * q.y % p
    let s := 4 * q.x * yy % p
    let zz := q.z * q.z % p
    let m := (3 * q.x * q.x + c.a * (zz * zz % p)) % p
    let x := subMod (m * m) (2 * s) p
    ⟨x, subMod (m * subMod s x p) (8 * yy * yy) p, 2 * q.y * q.z % p⟩

def add (c : Curve) (q r : Point) : Point :=
  let p := c.prime
  if q.z = 0 then r
  else if r.z = 0 then q
  else
    let qq := q.z * q.z % p
    let rr := r.z * r.z % p
    let u := q.x * rr % p
    let v := r.x * qq % p
    let s := q.y * rr * r.z % p
    let t := r.y * qq * q.z % p
    if u = v then (if s = t then c.double q else ⟨1, 1, 0⟩)
    else
      let h := subMod v u p
      let k := subMod t s p
      let hh := h * h % p
      let hhh := h * hh % p
      let w := u * hh % p
      let x := subMod (k * k) (hhh + 2 * w) p
      ⟨x, subMod (k * subMod w x p) (s * hhh) p, h * q.z * r.z % p⟩

def multiply (c : Curve) (n : Nat) (q : Point) : Point :=
  if n = 0 then ⟨1, 1, 0⟩
  else
    let rest := multiply c (n / 2) (c.double q)
    if n % 2 = 1 then c.add q rest else rest
termination_by n
decreasing_by omega

def coordinates? (c : Curve) (q : Point) : Option (Nat × Nat) :=
  if q.z % c.prime = 0 then none
  else
    let i := inverse q.z c.prime
    let ii := i * i % c.prime
    some (q.x * ii % c.prime, q.y * ii * i % c.prime)

def squareRoot? (c : Curve) (n : Nat) : Option Nat :=
  let r := powMod n ((c.prime + 1) / 4) c.prime
  if r * r % c.prime = n % c.prime then some r else none

def decode? (c : Curve) : Bytes → Option (Nat × Nat)
  | [] => none
  | form :: rest =>
    let value (b : Bytes) : Nat := b.foldl (fun n x => 256 * n + x.toNat) 0
    let x := value (rest.take c.width)
    if form = 4 then
      let y := value (rest.drop c.width)
      if rest.length = 2 * c.width && c.contains x y then some (x, y) else none
    else if (form = 2 || form = 3) && rest.length = c.width && x < c.prime then do
      let y ← c.squareRoot? (((x * x + c.a) * x + c.b) % c.prime)
      let y := if y % 2 = form.toNat % 2 then y else c.prime - y
      if c.contains x y then some (x, y) else none
    else none

def publicOf? (c : Curve) (n : Nat) : Option (Nat × Nat) := c.coordinates? (c.multiply n c.base)

def digestNumber (c : Curve) (digest : Bytes) : Nat :=
  let n := digest.foldl (fun n x => 256 * n + x.toNat) 0
  n >>> (8 * digest.length - (c.order.log2 + 1))

def verifies (c : Curve) (x y : Nat) (digest : Bytes) (r s : Nat) : Bool :=
  if r = 0 || s = 0 || c.order ≤ r || c.order ≤ s then false
  else
    let w := inverse s c.order
    let u := c.digestNumber digest * w % c.order
    let v := r * w % c.order
    let sum := c.add (c.multiply u c.base) (c.multiply v ⟨x, y, 1⟩)
    match c.coordinates? sum with
    | some (x, _) => x % c.order == r
    | none => false

end Curve

end TlsGate.Crypto
