/-!
Floating point numbers of 64 bits as exact values: rounding to the nearest number, ties to the even
one; the shortest decimal digits that read back; and the text form of a number, which is positional
for decimal exponents from minus four to fifteen and always shows that the number is not an integer.
-/

set_option autoImplicit false
set_option relaxedAutoImplicit false

namespace TlsGate

/-- A floating point number. A finite one is `mantissa * 2 ^ exponent`, where the mantissa has at
most 53 bits and the exponent is at least -1074. -/
inductive Double where
  | nan
  | infinite (negative : Bool)
  | finite (negative : Bool) (mantissa : Nat) (exponent : Int)
  deriving DecidableEq, Repr

namespace Double

def roundDiv (num den : Nat) : Nat :=
  let q := num / den
  let twice := 2 * (num % den)
  if twice < den then q
  else if den < twice then q + 1
  else q + q % 2

def scaled (num den : Nat) (power : Int) : Nat × Nat :=
  if 0 ≤ power then (num * Nat.pow 2 power.toNat, den) else (num, den * Nat.pow 2 (-power).toNat)

def ofQuotient (negative : Bool) (num den : Nat) : Double :=
  if num = 0 then .finite negative 0 (-1074)
  else
    -- the exponent that gives 53 bits, found from the sizes and mended by one
    let guess : Int := (num.log2 : Int) - (den.log2 : Int) - 53
    let (n, d) := scaled num den (-guess)
    let exponent := max (if Nat.pow 2 53 * d ≤ n then guess + 1 else guess) (-1074)
    let (n, d) := scaled num den (-exponent)
    let m := roundDiv n d
    let (m, exponent) := if m = Nat.pow 2 53 then (Nat.pow 2 52, exponent + 1) else (m, exponent)
    if 971 < exponent then .infinite negative else .finite negative m exponent

def ofDecimal (negative : Bool) (digits : Nat) (power : Int) : Double :=
  if digits = 0 then ofQuotient negative 0 1
  else if 400 < power then .infinite negative
  else if power + (Nat.log2 digits : Int) < -1200 then ofQuotient negative 0 1
  else if 0 ≤ power then ofQuotient negative (digits * Nat.pow 10 power.toNat) 1
  else ofQuotient negative digits (Nat.pow 10 (-power).toNat)

def ofNat (n : Nat) : Double := ofQuotient false n 1

/-- The nearest number to `numerator * 2 ^ exponent`; a zero has the given sign. -/
def ofScaled (zeroSign : Bool) (numerator : Int) (exponent : Int) : Double :=
  let (n, d) := scaled numerator.natAbs 1 exponent
  ofQuotient (if numerator = 0 then zeroSign else numerator < 0) n d

def signedMantissa (negative : Bool) (m : Nat) : Int := if negative then -(m : Int) else m

def add : Double → Double → Double
  | nan, _ => nan
  | _, nan => nan
  | infinite a, infinite b => if a = b then infinite a else nan
  | infinite a, _ => infinite a
  | _, infinite b => infinite b
  | finite a m e, finite b n f =>
    let low := min e f
    let left := signedMantissa a m * Int.pow 2 (e - low).toNat
    let right := signedMantissa b n * Int.pow 2 (f - low).toNat
    ofScaled (a && b) (left + right) low

def mul : Double → Double → Double
  | nan, _ => nan
  | _, nan => nan
  | infinite a, infinite b => infinite (a ^^ b)
  | infinite a, finite b n _ => if n = 0 then nan else infinite (a ^^ b)
  | finite a m _, infinite b => if m = 0 then nan else infinite (a ^^ b)
  | finite a m e, finite b n f =>
    ofScaled (a ^^ b) (signedMantissa a m * signedMantissa b n) (e + f)

def neg : Double → Double
  | nan => nan
  | infinite a => infinite !a
  | finite a m e => finite (!a) m e

def quotient (m : Nat) (e : Int) : Nat × Nat := scaled m 1 e

def readsBack (m : Nat) (e : Int) (digits : Nat) (power : Int) : Bool :=
  ofDecimal false digits power == .finite false m e

/-- The fewest digits, from `count` of them on, that read back as the value; of two candidates with
so many digits the nearer one. The result is the digits and their power of ten. -/
def shortestFrom (m : Nat) (e : Int) (magnitude : Int) : (fuel count : Nat) → Nat × Int
  | 0, count => (0, magnitude - count)
  | fuel + 1, count =>
    let power := magnitude - count
    let (n, d) := quotient m e
    let (n, d) :=
      if 0 ≤ power then (n, d * Nat.pow 10 power.toNat) else (n * Nat.pow 10 (-power).toNat, d)
    let low := n / d
    let lowFits := readsBack m e low power
    let highFits := readsBack m e (low + 1) power
    if lowFits && highFits then (roundDiv n d, power)
    else if lowFits then (low, power)
    else if highFits then (low + 1, power)
    else shortestFrom m e magnitude fuel (count + 1)

def magnitude (num den : Nat) : Int :=
  if den ≤ num then (Nat.toDigits 10 (num / den)).length
  else 1 - (Nat.toDigits 10 ((den - 1) / num)).length

def shortest (m : Nat) (e : Int) : List Char × Int :=
  let (n, d) := quotient m e
  let (digits, power) := shortestFrom m e (magnitude n d) 18 1
  let text := Nat.toDigits 10 digits
  let kept := (text.reverse.dropWhile (· = '0')).reverse
  (kept, power + (text.length - kept.length : Nat))

def decimalText (digits : List Char) (power : Int) : List Char :=
  let point : Int := digits.length + power
  if -4 < point ∧ point ≤ 16 then
    if point ≤ 0 then ['0', '.'] ++ List.replicate (-point).toNat '0' ++ digits
    else
      let whole := digits.take point.toNat
      let fraction := digits.drop point.toNat
      whole ++ List.replicate (point.toNat - whole.length) '0' ++ '.' ::
        (if fraction.isEmpty then ['0'] else fraction)
  else
    let exponent := point - 1
    let written := Nat.toDigits 10 exponent.natAbs
    let fraction := digits.drop 1
    digits.take 1 ++ (if fraction.isEmpty then [] else '.' :: fraction) ++
      ['e', if exponent < 0 then '-' else '+'] ++ List.replicate (2 - written.length) '0' ++ written

def text : Double → String
  | nan => "nan"
  | infinite negative => if negative then "-inf" else "inf"
  | finite negative m e =>
    let unsigned := if m = 0 then ['0', '.', '0'] else
      let (digits, power) := shortest m e
      decimalText digits power
    String.ofList (if negative then '-' :: unsigned else unsigned)

def isZero : Double → Bool
  | finite _ 0 _ => true
  | _ => false

def equalsInt (x : Double) (n : Int) : Bool :=
  match x with
  | finite negative m e =>
    if 0 ≤ e then signedMantissa negative m * Int.pow 2 e.toNat == n
    else signedMantissa negative m == n * Int.pow 2 (-e).toNat
  | _ => false

end Double

end TlsGate
