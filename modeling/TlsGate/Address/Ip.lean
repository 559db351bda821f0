import TlsGate.Text.Split

/-!
The text forms of IP addresses: dotted quads, and colon-separated hextets with at most one `::` that
stands for one or more zero hextets, an optional dotted quad at the end and an optional zone.
-/

set_option autoImplicit false
set_option relaxedAutoImplicit false

namespace TlsGate.Address

open TlsGate.Text

def isDigit (c : Char) : Bool := '0' ≤ c && c ≤ '9'

def isHexDigit (c : Char) : Bool :=
  isDigit c || ('a' ≤ c && c ≤ 'f') || ('A' ≤ c && c ≤ 'F')

def decimalValue (digits : List Char) : Nat :=
  digits.foldl (fun n c => 10 * n + (c.toNat - 48)) 0

def isOctet (l : List Char) : Bool :=
  !l.isEmpty && l.all isDigit && l.length ≤ 3 && (l == ['0'] || l.head? != some '0') &&
    decimalValue l ≤ 255

def isIpv4 (l : List Char) : Bool :=
  let parts := fields '.' l
  parts.length == 4 && parts.all isOctet

def isHextet (l : List Char) : Bool :=
  !l.isEmpty && l.all isHexDigit && l.length ≤ 4

def hextetGroups (parts : List (List Char)) : Option (List (List Char)) :=
  match parts.getLast? with
  | some last =>
    if last.contains '.' then
      if isIpv4 last then some (parts.dropLast ++ [['0'], ['0']]) else none
    else some parts
  | none => some parts

def areHextets (parts : List (List Char)) : Bool :=
  let inner := (parts.drop 1).dropLast
  match inner.findIdx? List.isEmpty with
  | none => parts.length == 8 && parts.all isHextet
  | some before =>
    let high := parts.take (before + 1)
    let low := parts.drop (before + 2)
    let emptyHigh := high == [[]]
    let emptyLow := low == [[]]
    !(inner.drop (before + 1)).any List.isEmpty &&
      (emptyHigh || high.all isHextet) && (emptyLow || low.all isHextet) &&
      (if emptyHigh then 0 else high.length) + (if emptyLow then 0 else low.length) ≤ 7

def isIpv6 (l : List Char) : Bool :=
  let (address, zone) := cutFirst '%' l
  let zoneFits := match zone with
    | none => true
    | some z => !z.isEmpty && !z.contains '%'
  let parts := fields ':' address
  zoneFits && 3 ≤ parts.length &&
    match hextetGroups parts with
    | none => false
    | some groups => groups.length ≤ 9 && areHextets groups

end TlsGate.Address
