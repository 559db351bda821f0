import TlsGate.Text.Printable

/-!
Texts as they are quoted in messages: between single quotes, or between double quotes when the
text has a single quote and no double one. The enclosing quote and the backslash are escaped, line
feed, carriage return and tab have escapes of one letter, and other characters that are not shown
as themselves are written by their code point in hexadecimal digits.
-/

set_option autoImplicit false
set_option relaxedAutoImplicit false

namespace TlsGate.Text

def hexDigits (width n : Nat) : List Char :=
  let digits := Nat.toDigits 16 n
  List.replicate (width - digits.length) '0' ++ digits

def codePointEscape (n : Nat) : List Char :=
  if n < 0x100 then '\\' :: 'x' :: hexDigits 2 n
  else if n < 0x10000 then '\\' :: 'u' :: hexDigits 4 n
  else '\\' :: 'U' :: hexDigits 8 n

def quotedChar (quote c : Char) : List Char :=
  if c = quote ∨ c = '\\' then ['\\', c]
  else if c = '\n' then ['\\', 'n']
  else if c = '\r' then ['\\', 'r']
  else if c = '\t' then ['\\', 't']
  else if isPrintable c then [c]
  else codePointEscape c.toNat

def quoteOf (l : List Char) : Char :=
  if '\'' ∈ l ∧ '"' ∉ l then '"' else '\''

def quoted (s : String) : String :=
  let quote := quoteOf s.toList
  String.ofList (quote :: (s.toList.flatMap (quotedChar quote) ++ [quote]))

end TlsGate.Text
