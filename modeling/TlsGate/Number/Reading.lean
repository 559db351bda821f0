import TlsGate.Number.Double
import TlsGate.Text.LowerCase
import TlsGate.Text.Split

/-!
Reading numbers from texts that may have blanks around them, a sign, and decimal digits of any
script.
-/

set_option autoImplicit false
set_option relaxedAutoImplicit false

namespace TlsGate.Number

open TlsGate.Text

def zeros : List Nat := [
    0x30, 0x660, 0x6f0, 0x7c0, 0x966, 0x9e6, 0xa66, 0xae6, 0xb66, 0xbe6, 0xc66, 0xce6, 0xd66, 0xde6,
    0xe50, 0xed0, 0xf20, 0x1040, 0x1090, 0x17e0, 0x1810, 0x1946, 0x19d0, 0x1a80, 0x1a90, 0x1b50,
    0x1bb0, 0x1c40, 0x1c50, 0xa620, 0xa8d0, 0xa900, 0xa9d0, 0xa9f0, 0xaa50, 0xabf0, 0xff10, 0x104a0,
    0x10d30, 0x11066, 0x110f0, 0x11136, 0x111d0, 0x112f0, 0x11450, 0x114d0, 0x11650, 0x116c0,
    0x11730, 0x118e0, 0x11950, 0x11c50, 0x11d50, 0x11da0, 0x16a60, 0x16ac0, 0x16b50, 0x1d7ce,
    0x1d7d8, 0x1d7e2, 0x1d7ec, 0x1d7f6, 0x1e140, 0x1e2f0, 0x1e950, 0x1fbf0]

def digitValue? (c : Char) : Option Nat :=
  (zeros.find? fun z => z ≤ c.toNat && c.toNat < z + 10).map (c.toNat - ·)

def isSpace (c : Char) : Bool :=
  let n := c.toNat
  (9 ≤ n && n ≤ 13) || (0x1c ≤ n && n ≤ 0x20) || n == 0x85 || n == 0xa0 || n == 0x1680 ||
    (0x2000 ≤ n && n ≤ 0x200a) || n == 0x2028 || n == 0x2029 || n == 0x202f || n == 0x205f ||
    n == 0x3000

def normal (l : List Char) : List Char :=
  (trim isSpace l).map fun c => match digitValue? c with
    | some d => Nat.digitChar d
    | none => c

def splitSign : List Char → Bool × List Char
  | '-' :: rest => (true, rest)
  | '+' :: rest => (false, rest)
  | rest => (false, rest)

def baseDigit? (base : Nat) (c : Char) : Option Nat :=
  let n := c.toNat
  let value :=
    if 48 ≤ n && n ≤ 57 then n - 48
    else if 97 ≤ n && n ≤ 102 then n - 87
    else if 65 ≤ n && n ≤ 70 then n - 55
    else base
  if value < base then some value else none

def baseMark? : Nat → Option Char
  | 2 => some 'b'
  | 8 => some 'o'
  | 16 => some 'x'
  | _ => none

def dropMark (base : Nat) (l : List Char) : List Char :=
  match l with
  | '0' :: letter :: rest => if baseMark? base == some (lowerChar letter) then rest else l
  | _ => l

/-- Reads an integer to a base; decimal numbers have at most 4300 digits. -/
def integer? (base : Nat) (l : List Char) : Option Int := do
  let (negative, unsigned) := splitSign (normal l)
  let digits := dropMark base unsigned
  if digits.isEmpty || (base = 10 && 4300 < digits.length) then none
  let values ← digits.mapM (baseDigit? base)
  let n : Nat := values.foldl (fun n d => base * n + d) 0
  return if negative then -(n : Int) else n

def exponent? (l : List Char) : Option Int := do
  let (negative, digits) := splitSign l
  if digits.isEmpty || !digits.all Char.isDigit then none
  let n : Nat := digits.foldl (fun n c => min (10 * n + (c.toNat - 48)) 100000) 0
  return if negative then -(n : Int) else n

def double? (l : List Char) : Option Double := do
  let (negative, unsigned) := splitSign (normal l)
  let word := String.ofList (unsigned.map lowerChar)
  if word = "inf" ∨ word = "infinity" then return .infinite negative
  if word = "nan" then return .nan
  let whole := unsigned.takeWhile Char.isDigit
  let rest := unsigned.drop whole.length
  let (fraction, rest) := match rest with
    | '.' :: rest => (rest.takeWhile Char.isDigit, rest.dropWhile Char.isDigit)
    | _ => ([], rest)
  let power : Int ← match rest with
    | [] => some 0
    | e :: rest => if e = 'e' ∨ e = 'E' then exponent? rest else none
  let digits := whole ++ fraction
  if digits.isEmpty then none
  let n : Nat := digits.foldl (fun n c => 10 * n + (c.toNat - 48)) 0
  return .ofDecimal negative n (power - (fraction.length : Int))

end TlsGate.Number
