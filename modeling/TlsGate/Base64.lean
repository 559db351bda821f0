import TlsGate.Bytes

/-!
The base64 form of bytes: groups of three bytes as four characters, the last group filled up with
equals signs. There are two ways to read it: one that skips foreign characters, and one that takes
exactly what writing gives.
-/

set_option autoImplicit false
set_option relaxedAutoImplicit false

namespace TlsGate.Base64

def digit (n : Nat) : UInt8 :=
  (if n < 26 then 65 + n
    else if n < 52 then 71 + n
    else if n < 62 then n - 4
    else if n = 62 then 43
    else 47).toUInt8

def value? (b : UInt8) : Option Nat :=
  if 65 ≤ b && b ≤ 90 then some (b.toNat - 65)
  else if 97 ≤ b && b ≤ 122 then some (b.toNat - 71)
  else if 48 ≤ b && b ≤ 57 then some (b.toNat + 4)
  else if b = 43 then some 62
  else if b = 47 then some 63
  else none

def encode : Bytes → Bytes
  | [] => []
  | [a] => [digit (a.toNat / 4), digit (a.toNat % 4 * 16), 61, 61]
  | [a, b] =>
    [digit (a.toNat / 4), digit (a.toNat % 4 * 16 + b.toNat / 16), digit (b.toNat % 16 * 4), 61]
  | a :: b :: c :: rest =>
    digit (a.toNat / 4) :: digit (a.toNat % 4 * 16 + b.toNat / 16) ::
      digit (b.toNat % 16 * 4 + c.toNat / 64) :: digit (c.toNat % 64) :: encode rest

def group (a b c d : Nat) : Bytes :=
  [(a * 4 + b / 16).toUInt8, (b % 16 * 16 + c / 4).toUInt8, (c % 4 * 64 + d).toUInt8]

def decode : Bytes → Option Bytes
  | [] => some []
  | [a, b, 61, 61] => do
    let a ← value? a
    let b ← value? b
    if b % 16 ≠ 0 then none
    return [(a * 4 + b / 16).toUInt8]
  | [a, b, c, 61] => do
    let a ← value? a
    let b ← value? b
    let c ← value? c
    if c % 4 ≠ 0 then none
    return [(a * 4 + b / 16).toUInt8, (b % 16 * 16 + c / 4).toUInt8]
  | a :: b :: c :: d :: rest => do
    let here := group (← value? a) (← value? b) (← value? c) (← value? d)
    return here ++ (← decode rest)
  | _ => none

/-- Reads a text in which foreign characters are skipped. The state is the values of the group that
is not yet full and the count of equals signs since the last of them; the text ends at a group that
is filled up. -/
def decodeLoose (group : List Nat) (fill : Nat) : Bytes → Option Bytes
  | [] => if group.isEmpty then some [] else none
  | b :: rest =>
    if b = 61 then
      if 2 ≤ group.length then
        if 4 ≤ group.length + fill + 1 then
          match group with
          | [a, b, c] =>
            some [(a * 4 + b / 16).toUInt8, (b % 16 * 16 + c / 4).toUInt8]
          | [a, b] => some [(a * 4 + b / 16).toUInt8]
          | _ => some []
        else decodeLoose group (fill + 1) rest
      else decodeLoose group fill rest
    else
      match value? b with
      | none => decodeLoose group fill rest
      | some v =>
        match group with
        | [a, b, c] => (decodeLoose [] 0 rest).map (Base64.group a b c v ++ ·)
        | _ => decodeLoose (group ++ [v]) 0 rest

end TlsGate.Base64
