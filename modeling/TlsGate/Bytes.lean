import TlsGate.Text.Split

/-!
Byte sequences: network data, file contents, header fields.
-/

set_option autoImplicit false
set_option relaxedAutoImplicit false

namespace TlsGate

abbrev Bytes := List UInt8

namespace Bytes

def ofString (s : String) : Bytes := s.toUTF8.data.toList

def toString? (b : Bytes) : Option String := String.fromUTF8? ⟨b.toArray⟩

def lowerByte (b : UInt8) : UInt8 := if 65 ≤ b && b ≤ 90 then b + 32 else b

def toLower (b : Bytes) : Bytes := b.map lowerByte

def isDigit (b : UInt8) : Bool := 48 ≤ b && b ≤ 57

def hexValue? (b : UInt8) : Option Nat :=
  if isDigit b then some (b.toNat - 48)
  else if 97 ≤ b && b ≤ 102 then some (b.toNat - 87)
  else if 65 ≤ b && b ≤ 70 then some (b.toNat - 55)
  else none

def decimalValue (digits : Bytes) : Nat :=
  digits.foldl (fun n b => 10 * n + (b.toNat - 48)) 0

def hexNumber (digits : Bytes) : Nat :=
  digits.foldl (fun n b => 16 * n + (hexValue? b).getD 0) 0

def lessOrEqual : Bytes → Bytes → Bool
  | [], _ => true
  | _ :: _, [] => false
  | a :: as, b :: bs => a < b || (a == b && lessOrEqual as bs)

/-- Pieces of at most `size + 1` bytes; all but the last have that many. -/
def pieces (size : Nat) : Bytes → List Bytes
  | [] => []
  | b :: rest => (b :: rest.take size) :: pieces size (rest.drop size)
termination_by b => b.length
decreasing_by simp only [List.length_drop, List.length_cons]; omega

end Bytes

end TlsGate
