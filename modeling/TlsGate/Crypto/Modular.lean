/-!
Arithmetic of residues: powers, inverses modulo a prime, integer roots.
-/

set_option autoImplicit false
set_option relaxedAutoImplicit false

namespace TlsGate.Crypto

def powMod (base exponent modulus : Nat) : Nat :=
  if exponent = 0 then 1 % modulus
  else
    let half := powMod (base * base % modulus) (exponent / 2) modulus
    if exponent % 2 = 1 then base * half % modulus else half
termination_by exponent
decreasing_by omega

private theorem square_pow_mod (base k modulus : Nat) :
    Nat.pow (base * base % modulus) k % modulus = Nat.pow base (2 * k) % modulus := by
  change (base * base % modulus) ^ k % modulus = base ^ (2 * k) % modulus
  rw [← Nat.pow_mod, Nat.pow_mul, Nat.pow_two]

private theorem powMod_eq (base exponent modulus : Nat) :
    powMod base exponent modulus = Nat.pow base exponent % modulus := by
  fun_induction powMod base exponent modulus with
  | case1 => simp
  | case2 base exponent hpos half hodd ih =>
    have he : Nat.pow base exponent = base * Nat.pow base (2 * (exponent / 2)) := by
      change base ^ exponent = base * base ^ (2 * (exponent / 2))
      rw [← Nat.pow_succ']
      congr 1
      omega
    have hhalf : half = Nat.pow base (2 * (exponent / 2)) % modulus :=
      ih.trans (square_pow_mod ..)
    rw [he, hhalf, Nat.mul_mod_mod]
  | case3 base exponent hpos half hodd ih =>
    have he : 2 * (exponent / 2) = exponent := by omega
    exact ih.trans ((square_pow_mod ..).trans (by rw [he]))

def subMod (a b modulus : Nat) : Nat := (a + (modulus - b % modulus)) % modulus

def inverse (a prime : Nat) : Nat := powMod a (prime - 2) prime

def rootFrom (power n : Nat) : (bits found : Nat) → Nat
  | 0, found => found
  | bits + 1, found =>
    let next := found + Nat.pow 2 bits
    rootFrom power n bits (if Nat.pow next power ≤ n then next else found)

def root (power n : Nat) : Nat := rootFrom power n 80 0

def isPrime (n : Nat) : Bool := 2 ≤ n && (List.range n).all fun d => d < 2 || n % d != 0

def smallPrimes : List Nat := (List.range 410).filter isPrime

def rootFraction (power bits n : Nat) : Nat :=
  root power (n * Nat.pow 2 (power * bits)) % Nat.pow 2 bits

end TlsGate.Crypto
