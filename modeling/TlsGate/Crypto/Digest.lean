import TlsGate.Bytes
import TlsGate.Crypto.Modular

/-!
The SHA-2 digests of byte sequences. The members of the family work alike on words of 32 or 64
bits; their constants are the fractions of roots of the first primes.
-/

set_option autoImplicit false
set_option relaxedAutoImplicit false

namespace TlsGate.Crypto

structure Digest where
  wordBits : Nat
  rounds : Nat
  sums : (Nat × Nat × Nat) × (Nat × Nat × Nat)
  spreads : (Nat × Nat × Nat) × (Nat × Nat × Nat)
  start : List Nat
  size : Nat

namespace Digest

def constants (d : Digest) : List Nat :=
  (smallPrimes.take d.rounds).map fun p => rootFraction 3 64 p / Nat.pow 2 (64 - d.wordBits)

def turn (d : Digest) (n x : Nat) : Nat :=
  (x >>> n ||| x <<< (d.wordBits - n)) % Nat.pow 2 d.wordBits

def bigSum (d : Digest) (r : Nat × Nat × Nat) (x : Nat) : Nat :=
  d.turn r.1 x ^^^ d.turn r.2.1 x ^^^ d.turn r.2.2 x

def smallSum (d : Digest) (r : Nat × Nat × Nat) (x : Nat) : Nat :=
  d.turn r.1 x ^^^ d.turn r.2.1 x ^^^ x >>> r.2.2

def bigEndian : (size n : Nat) → Bytes
  | 0, _ => []
  | size + 1, n => bigEndian size (n / 256) ++ [(n % 256).toUInt8]

def padded (d : Digest) (message : Bytes) : Bytes :=
  let word := d.wordBits / 8
  let block := 16 * word
  let zeros := (block - (message.length + 1 + 2 * word) % block) % block
  message ++ 128 :: List.replicate zeros 0 ++ bigEndian (2 * word) (8 * message.length)

def words (d : Digest) (b : Bytes) : List Nat :=
  (Bytes.pieces (d.wordBits / 8 - 1) b).map fun w => w.foldl (fun n x => 256 * n + x.toNat) 0

/-- The words of all rounds of a block, the last first; each new word mixes four earlier ones. -/
def schedule (d : Digest) : (more : Nat) → (made : List Nat) → List Nat
  | 0, made => made
  | more + 1, made =>
    let at' (i : Nat) : Nat := made.getD i 0
    let next := (d.smallSum d.spreads.2 (at' 1) + at' 6 + d.smallSum d.spreads.1 (at' 14) + at' 15)
      % Nat.pow 2 d.wordBits
    schedule d more (next :: made)

def round (d : Digest) (state : List Nat) (step : Nat × Nat) : List Nat :=
  match state with
  | [a, b, c, e, f, g, h, i] =>
    let choice := (f &&& g) ^^^ ((Nat.pow 2 d.wordBits - 1 - f) &&& h)
    let majority := (a &&& b) ^^^ (a &&& c) ^^^ (b &&& c)
    let first := i + d.bigSum d.sums.2 f + choice + step.1 + step.2
    let second := d.bigSum d.sums.1 a + majority
    [(first + second) % Nat.pow 2 d.wordBits, a, b, c, (e + first) % Nat.pow 2 d.wordBits, f, g,
      h]
  | other => other

def compress (d : Digest) (constants : List Nat) (state block : List Nat) : List Nat :=
  let steps := constants.zip (d.schedule (d.rounds - 16) block.reverse).reverse
  (state.zip (steps.foldl d.round state)).map fun (x, y) => (x + y) % Nat.pow 2 d.wordBits

def blocksOf : List Nat → List (List Nat)
  | [] => []
  | w :: rest => (w :: rest.take 15) :: blocksOf (rest.drop 15)
termination_by l => l.length
decreasing_by simp only [List.length_drop, List.length_cons]; omega

def digest (d : Digest) (message : Bytes) : Bytes :=
  let constants := d.constants
  let last := (blocksOf (d.words (d.padded message))).foldl (d.compress constants) d.start
  (last.flatMap (bigEndian (d.wordBits / 8))).take d.size

def sha256 : Digest where
  wordBits := 32
  rounds := 64
  sums := ((2, 13, 22), (6, 11, 25))
  spreads := ((7, 18, 3), (17, 19, 10))
  start := (smallPrimes.take 8).map fun p => rootFraction 2 64 p / Nat.pow 2 32
  size := 32

def sha224 : Digest :=
  { sha256 with
    start := ((smallPrimes.drop 8).take 8).map fun p => rootFraction 2 64 p % Nat.pow 2 32
    size := 28 }

def sha512 : Digest where
  wordBits := 64
  rounds := 80
  sums := ((28, 34, 39), (14, 18, 41))
  spreads := ((1, 8, 7), (19, 61, 6))
  start := (smallPrimes.take 8).map (rootFraction 2 64)
  size := 64

def sha384 : Digest :=
  { sha512 with
    start := ((smallPrimes.drop 8).take 8).map (rootFraction 2 64)
    size := 48 }

end Digest

end TlsGate.Crypto
