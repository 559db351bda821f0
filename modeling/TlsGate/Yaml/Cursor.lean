import TlsGate.Bytes

/-!
A place in a YAML stream. Lines and columns are counted as the indentation rules need them; the end
of the stream is read as a NUL, which no stream holds.
-/

set_option autoImplicit false
set_option relaxedAutoImplicit false

namespace TlsGate.Yaml

def isAllowed (c : Char) : Bool :=
  let n := c.toNat
  n == 9 || n == 10 || n == 13 || (0x20 ≤ n && n ≤ 0x7E) || n == 0x85 ||
    (0xA0 ≤ n && n ≤ 0xD7FF) || (0xE000 ≤ n && n ≤ 0xFFFD) || 0x10000 ≤ n

/-- Characters from UTF-16 code units; `none` at a surrogate without its pair. -/
def ofUnits : List Nat → Option (List Char)
  | [] => some []
  | u :: rest =>
    if u < 0xD800 ∨ 0xDFFF < u then (ofUnits rest).map (Char.ofNat u :: ·)
    else match rest with
      | [] => none
      | v :: rest =>
        if u < 0xDC00 ∧ 0xDC00 ≤ v ∧ v ≤ 0xDFFF then
          (ofUnits rest).map (Char.ofNat (0x10000 + (u - 0xD800) * 1024 + (v - 0xDC00)) :: ·)
        else none

def units? (bigEndian : Bool) : Bytes → Option (List Nat)
  | [] => some []
  | [_] => none
  | a :: b :: rest =>
    let unit := if bigEndian then a.toNat * 256 + b.toNat else b.toNat * 256 + a.toNat
    (units? bigEndian rest).map (unit :: ·)

/-- The characters of a stream: UTF-16 if it starts with a byte order mark of that coding, else
UTF-8. A stream that is badly coded, or that holds a character which may not stand in a stream, has
no characters. -/
def characters? (stream : Bytes) : Option (List Char) :=
  let decoded := match stream with
    | 0xFF :: 0xFE :: _ => (units? false stream).bind ofUnits
    | 0xFE :: 0xFF :: _ => (units? true stream).bind ofUnits
    | _ => (Bytes.toString? stream).map String.toList
  decoded.filter (·.all isAllowed)

def isBreak (c : Char) : Bool :=
  c = '\n' || c = '\r' || c = '\u0085' || c = '\u2028' || c = '\u2029'

def isLineEnd (c : Char) : Bool := c = '\x00' || isBreak c

def isSpaceOrEnd (c : Char) : Bool := c = ' ' || isLineEnd c

def isGap (c : Char) : Bool := c = '\t' || isSpaceOrEnd c

def isWordChar (c : Char) : Bool :=
  ('0' ≤ c && c ≤ '9') || ('A' ≤ c && c ≤ 'Z') || ('a' ≤ c && c ≤ 'z') || c = '-' || c = '_'

structure Cursor where
  rest : List Char
  index : Nat := 0
  line : Nat := 0
  column : Nat := 0

namespace Cursor

def peek (c : Cursor) (distance : Nat := 0) : Char := c.rest.getD distance '\x00'

/-- Moves over one character. A byte order mark takes no column. -/
def advance (c : Cursor) : Cursor :=
  match c.rest with
  | [] => c
  | ch :: rest =>
    if ch = '\n' || ch = '\u0085' || ch = '\u2028' || ch = '\u2029' ||
        (ch = '\r' && rest.head? ≠ some '\n') then
      ⟨rest, c.index + 1, c.line + 1, 0⟩
    else ⟨rest, c.index + 1, c.line, if ch = '\uFEFF' then c.column else c.column + 1⟩

def skip (c : Cursor) : Nat → Cursor
  | 0 => c
  | n + 1 => c.advance.skip n

def span (c : Cursor) (p : Char → Bool) : List Char × Cursor :=
  let run := c.rest.takeWhile p
  (run, c.skip run.length)

def skipWhile (c : Cursor) (p : Char → Bool) : Cursor := (c.span p).2

def skipLine (c : Cursor) : Cursor := c.skipWhile (!isBreak ·)

/-- Moves over one line end, and tells what it stands for: a line feed, or one of the two Unicode
separators. -/
def lineBreak (c : Cursor) : Option Char × Cursor :=
  let ch := c.peek
  if ch = '\r' && c.peek 1 = '\n' then (some '\n', c.skip 2)
  else if ch = '\r' || ch = '\n' || ch = '\u0085' then (some '\n', c.advance)
  else if ch = '\u2028' || ch = '\u2029' then (some ch, c.advance)
  else (none, c)

def atSeparator (c : Cursor) : Bool :=
  match c.rest with
  | '-' :: '-' :: '-' :: _ => isGap (c.peek 3)
  | '.' :: '.' :: '.' :: _ => isGap (c.peek 3)
  | _ => false

end Cursor

end TlsGate.Yaml
