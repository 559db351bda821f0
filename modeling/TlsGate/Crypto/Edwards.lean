import TlsGate.Crypto.Digest

/-!
The curve over the prime `2 ^ 255 - 19` in its two forms: the twisted Edwards form for signatures
and the Montgomery form for key agreement.
-/

set_option autoImplicit false
set_option relaxedAutoImplicit false

namespace TlsGate.Crypto.Edwards

def prime : Nat := Nat.pow 2 255 - 19

def order : Nat := Nat.pow 2 252 + 27742317777372353535851937790883648493

def coefficient : Nat := subMod 0 (121665 * inverse 121666 prime) prime

def number (b : Bytes) : Nat := b.foldr (fun x n => 256 * n + x.toNat) 0

def bytes : (size n : Nat) → Bytes
  | 0, _ => []
  | size + 1, n => (n % 256).toUInt8 :: bytes size (n / 256)

/-- A point as `x / z`, `y / z`, with `t = x y / z`. -/
structure Point where
  x : Nat
  y : Nat
  z : Nat
  t : Nat

def add (q r : Point) : Point :=
  let a := subMod q.y q.x prime * subMod r.y r.x prime % prime
  let b := (q.y + q.x) * (r.y + r.x) % prime
  let c := 2 * q.t * coefficient % prime * r.t % prime
  let d := 2 * q.z * r.z % prime
  let e := subMod b a prime
  let f := subMod d c prime
  let g := (d + c) % prime
  let h := (b + a) % prime
  ⟨e * f % prime, g * h % prime, f * g % prime, e * h % prime⟩

def multiply (n : Nat) (q : Point) : Point :=
  if n = 0 then ⟨0, 1, 1, 0⟩
  else
    let rest := multiply (n / 2) (add q q)
    if n % 2 = 1 then add q rest else rest
termination_by n
decreasing_by omega

def recover? (y : Nat) (odd : Bool) : Option Nat :=
  let yy := y * y % prime
  let square := subMod yy 1 prime * inverse (coefficient * yy + 1) prime % prime
  let x := powMod square ((prime + 3) / 8) prime
  let x := if x * x % prime = square then x
    else x * powMod 2 ((prime - 1) / 4) prime % prime
  if x * x % prime ≠ square then none
  else if x = 0 && odd then none
  else some (if (x % 2 == 1) == odd then x else prime - x)

def decode? (b : Bytes) : Option Point := do
  let n := number b
  let y := n % Nat.pow 2 255
  if b.length ≠ 32 || prime ≤ y then none
  else
    let x ← recover? y (n ≥ Nat.pow 2 255)
    some ⟨x, y, 1, x * y % prime⟩

def encode (q : Point) : Bytes :=
  let i := inverse q.z prime
  bytes 32 (q.y * i % prime + (q.x * i % prime % 2) * Nat.pow 2 255)

def base : Point :=
  let y := 4 * inverse 5 prime % prime
  let x := (recover? y false).getD 0
  ⟨x, y, 1, x * y % prime⟩

def clamp (b : Bytes) : Nat := number (b.take 32) % Nat.pow 2 254 / 8 * 8 + Nat.pow 2 254

def publicOf (seed : Bytes) : Bytes := encode (multiply (clamp (Digest.sha512.digest seed)) base)

def verifies (key message signature : Bytes) : Bool :=
  let first := signature.take 32
  let s := number (signature.drop 32)
  match decode? key with
  | none => false
  | some a =>
    let k := number (Digest.sha512.digest (first ++ key ++ message)) % order
    let minus : Point := ⟨subMod 0 a.x prime, a.y, 1, subMod 0 a.t prime⟩
    signature.length == 64 && s < order &&
      encode (add (multiply s base) (multiply k minus)) == first

/-- One step of the ladder on the Montgomery form: twice a point, and its sum with another point,
where both differ by the point with coordinate `u`. -/
def rung (u : Nat) (q r : Nat × Nat) : (Nat × Nat) × (Nat × Nat) :=
  let a := (q.1 + q.2) % prime
  let b := subMod q.1 q.2 prime
  let aa := a * a % prime
  let bb := b * b % prime
  let e := subMod aa bb prime
  let da := subMod r.1 r.2 prime * a % prime
  let cb := (r.1 + r.2) * b % prime
  let sum := (da + cb) % prime
  let difference := subMod da cb prime
  ((aa * bb % prime, e * (aa + 121665 * e) % prime),
    (sum * sum % prime, u * (difference * difference) % prime))

def ladder (u n : Nat) : (Nat × Nat) × (Nat × Nat) :=
  if n = 0 then ((1, 0), (u, 1))
  else
    let (q, r) := ladder u (n / 2)
    if n % 2 = 0 then rung u q r
    else
      let (r, q) := rung u r q
      (q, r)
termination_by n
decreasing_by omega

def agreementPublicOf (key : Bytes) : Bytes :=
  let (x, z) := (ladder 9 (clamp key)).1
  bytes 32 (x * inverse z prime % prime)

end TlsGate.Crypto.Edwards
