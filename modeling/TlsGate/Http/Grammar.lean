import TlsGate.Http.Message

/-!
The lexical rules of HTTP/1.1 heads: tokens, field values, request lines, header fields and chunk
size lines. All of them are rules on whole lines, without the end of the line.
-/

set_option autoImplicit false
set_option relaxedAutoImplicit false

namespace TlsGate.Http

open TlsGate.Text

def isTokenByte (b : UInt8) : Bool :=
  Bytes.isDigit b || (65 ≤ b && b ≤ 90) || (97 ≤ b && b ≤ 122) ||
    -- exclamation mark, number sign, dollar, percent, ampersand, apostrophe, asterisk, plus,
    -- minus, dot, circumflex, underscore, grave accent, vertical bar, tilde
    [33, 35, 36, 37, 38, 39, 42, 43, 45, 46, 94, 95, 96, 124, 126].contains b

def isToken (b : Bytes) : Bool := !b.isEmpty && b.all isTokenByte

def isTargetByte (b : UInt8) : Bool := 33 ≤ b && b ≤ 126

def isBlank (b : UInt8) : Bool := b == 32 || b == 9

def isFieldByte (b : UInt8) : Bool := b != 0 && b != 32 && !(9 ≤ b && b ≤ 13)

def isFieldValue (b : Bytes) : Bool :=
  b.all (fun x => isFieldByte x || isBlank x) && trim isBlank b == b

structure RequestLine where
  method : Bytes
  target : Bytes
  version : Bytes
  deriving DecidableEq, Repr

def RequestLine.parse? (line : Bytes) : Option RequestLine :=
  match fields 32 line with
  | [method, target, [72, 84, 84, 80, 47, major, 46, minor]] =>
    if isToken method && !target.isEmpty && target.all isTargetByte && Bytes.isDigit major &&
        Bytes.isDigit minor then
      some ⟨method, target, [major, 46, minor]⟩
    else none
  | _ => none

/-- Reads `NAME:VALUE`; blanks around the value are dropped, and the name is made lower case. -/
def parseField? (line : Bytes) : Option Field :=
  match cutFirst 58 line with
  | (name, some rest) =>
    let value := trim isBlank rest
    if isToken name && isFieldValue value then some (Bytes.toLower name, value) else none
  | (_, none) => none

def joinFolded? : (lines : List Bytes) → Option (List Bytes)
  | [] => some []
  | line :: rest =>
    if (line.head?.map isBlank).getD false then none else some (go line rest)
where
  go (last : Bytes) : List Bytes → List Bytes
    | [] => [last]
    | line :: rest =>
      if (line.head?.map isBlank).getD false then
        go (last ++ 32 :: line.dropWhile isBlank) rest
      else last :: go line rest

/-- Reads a chunk size line without its end: one to twenty hexadecimal digits, then perhaps an
extension that starts with a semicolon and holds no line feed, then perhaps blanks. -/
def parseChunkSize? (line : Bytes) : Option Nat :=
  let digits := line.takeWhile fun b => (Bytes.hexValue? b).isSome
  let rest := line.drop digits.length
  let ends := match rest.dropWhile isBlank with
    | [] => true
    | _ => match rest with
      | 59 :: extension => !extension.contains 10
      | _ => false
  if digits.isEmpty || 20 < digits.length || !ends then none
  else some (Bytes.hexNumber digits)

/-- The elements of a field that is a list separated by commas, over all fields with the name;
letter case is dropped, and so are empty elements. -/
def elements (name : Bytes) (fs : List Field) : List Bytes :=
  (fs.filter (·.1 == name)).flatMap fun f =>
    ((fields 44 (Bytes.toLower f.2)).map (trim isBlank)).filter (!·.isEmpty)

end TlsGate.Http
