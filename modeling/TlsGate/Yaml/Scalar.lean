import TlsGate.Base64
import TlsGate.Number.Reading
import TlsGate.Value
import TlsGate.Yaml.Token

/-!
The forms of plain scalars, and the values that scalars with a tag stand for. A text has the form of
a truth value, a number, a date, a null or a mark of a mapping, or it is a text; the forms are those
of YAML 1.1.
-/

set_option autoImplicit false
set_option relaxedAutoImplicit false

namespace TlsGate.Yaml

open TlsGate.Text

inductive Tag where
  | null
  | bool
  | int
  | float
  | binary
  | timestamp
  | omap
  | pairs
  | set
  | str
  | seq
  | map
  | merge
  | value
  | other
  deriving DecidableEq, Repr, Inhabited

def tagSpace : String := "tag:yaml.org,2002:"

def Tag.names : List (String × Tag) :=
  [("null", .null), ("bool", .bool), ("int", .int), ("float", .float), ("binary", .binary),
    ("timestamp", .timestamp), ("omap", .omap), ("pairs", .pairs), ("set", .set), ("str", .str),
    ("seq", .seq), ("map", .map), ("merge", .merge), ("value", .value)]

def Tag.ofText (s : String) : Tag :=
  ((Tag.names.find? fun entry => tagSpace ++ entry.1 == s).map Prod.snd).getD .other

inductive Fault where
  | malformed
  | value
  | word
  | empty
  | shape
  | notText
  | overflow
  | tooDeep
  deriving DecidableEq, Repr

def Fault.message : Fault → String
  | malformed => "the document is not well formed"
  | value => "a scalar has a value that does not exist"
  | word => "a word is no truth value"
  | empty => "a number has no characters"
  | shape => "a text is no timestamp"
  | notText => "a timestamp is no text"
  | overflow => "a number is too large"
  | tooDeep => "the document is nested too deeply"

/-! ## Forms -/

def areAll (p : Char → Bool) (l : List Char) : Bool := !l.isEmpty && l.all p

def isDigitOrLow (c : Char) : Bool := c.isDigit || c = '_'

def isDigits (l : List Char) : Bool :=
  match l with
  | c :: rest => c.isDigit && rest.all isDigitOrLow
  | [] => false

def isSixtieth (l : List Char) : Bool :=
  match l with
  | [a] => a.isDigit
  | [a, b] => '0' ≤ a && a ≤ '5' && b.isDigit
  | _ => false

def isExponent (l : List Char) : Bool :=
  match l with
  | e :: sign :: digits =>
    (e = 'e' || e = 'E') && (sign = '-' || sign = '+') && areAll Char.isDigit digits
  | _ => false

/-- Whether a text has the form of an integer: binary, octal, decimal, hexadecimal, or digits to the
base sixty between colons. -/
def isInteger (l : List Char) : Bool :=
  match (Number.splitSign l).2 with
  | '0' :: 'b' :: rest => areAll (fun c => c = '0' || c = '1' || c = '_') rest
  | '0' :: 'x' :: rest => areAll (fun c => (hexValue? c).isSome || c = '_') rest
  | '0' :: rest => rest.all fun c => ('0' ≤ c && c ≤ '7') || c = '_'
  | digits =>
    match fields ':' digits with
    | first :: sixtieths => isDigits first && sixtieths.all isSixtieth
    | [] => false

def isFraction (l : List Char) : Bool :=
  let rest := l.dropWhile isDigitOrLow
  rest.isEmpty || isExponent rest

def isFloat (l : List Char) : Bool :=
  let number := (Number.splitSign l).2
  match cutFirst '.' number with
  | (_, none) => false
  | ([], some fraction) =>
    let word := String.ofList fraction
    ["inf", "Inf", "INF"].contains word ||
      (number == l && (["nan", "NaN", "NAN"].contains word ||
        ((fraction.head?.map Char.isDigit).getD false && isFraction fraction)))
  | (whole, some fraction) =>
    match fields ':' whole with
    | [first] => isDigits first && isFraction fraction
    | first :: sixtieths =>
      isDigits first && sixtieths.all isSixtieth && fraction.all isDigitOrLow
    | [] => false

def takeDigits (least most : Nat) (l : List Char) : Option (List Char × List Char) :=
  let digits := (l.take most).takeWhile Char.isDigit
  if digits.length < least then none else some (digits, l.drop digits.length)

def digitsValue (l : List Char) : Nat := l.foldl (fun n c => 10 * n + (c.toNat - 48)) 0

def takeChar (c : Char) : List Char → Option (List Char)
  | [] => none
  | d :: rest => if c = d then some rest else none

structure Clock where
  hour : Nat
  minute : Nat
  second : Nat
  fraction : List Char
  offset : Option Int

def offset? (l : List Char) : Option (Option Int) :=
  match l.dropWhile fun c => c = ' ' || c = '\t' with
  | [] => if l.isEmpty then some none else none
  | ['Z'] => some (some 0)
  | sign :: rest => do
    if sign ≠ '+' ∧ sign ≠ '-' then none
    let (hours, rest) ← takeDigits 1 2 rest
    let minutes ← match rest with
      | [] => some []
      | ':' :: rest => do
        let (minutes, rest) ← takeDigits 2 2 rest
        if rest.isEmpty then some minutes else none
      | _ => none
    let total : Int := digitsValue hours * 60 + digitsValue minutes
    return some (if sign = '-' then -total else total)

def clock? (l : List Char) : Option Clock := do
  let (hour, rest) ← takeDigits 1 2 l
  let (minute, rest) ← takeDigits 2 2 (← takeChar ':' rest)
  let (second, rest) ← takeDigits 2 2 (← takeChar ':' rest)
  let (fraction, rest) := match rest with
    | '.' :: rest => (rest.takeWhile Char.isDigit, rest.dropWhile Char.isDigit)
    | _ => ([], rest)
  let offset ← offset? rest
  return ⟨digitsValue hour, digitsValue minute, digitsValue second, fraction, offset⟩

def timestamp? (l : List Char) :
    Option (List Char × List Char × List Char × Option Clock) := do
  let (year, rest) ← takeDigits 4 4 l
  let (month, rest) ← takeDigits 1 2 (← takeChar '-' rest)
  let (day, rest) ← takeDigits 1 2 (← takeChar '-' rest)
  match rest with
  | [] => return (year, month, day, none)
  | c :: time =>
    let time ←
      if c = 'T' ∨ c = 't' then some time
      else if c = ' ' ∨ c = '\t' then some (time.dropWhile fun c => c = ' ' || c = '\t')
      else none
    return (year, month, day, some (← clock? time))

/-- Whether a text has the form of a timestamp; a date alone has two digits for its month and its
day. -/
def isTimestamp (l : List Char) : Bool :=
  match timestamp? l with
  | some (_, _, _, some _) => true
  | some (_, month, day, none) => month.length == 2 && day.length == 2
  | none => false

def truthWords : List (String × Bool) :=
  [("yes", true), ("no", false), ("true", true), ("false", false), ("on", true), ("off", false)]

def isTruth (s : String) : Bool :=
  truthWords.any fun (w, _) => s == w || s == w.capitalize || s == w.map Char.toUpper

def dropFinalFeed (l : List Char) : List Char :=
  if l.getLast? = some '\n' then l.dropLast else l

def formTagOf (text : String) : Tag :=
  if text.isEmpty then .null
  else if text.front = '\n' then .str
  else
    let l := dropFinalFeed text.toList
    let s := String.ofList l
    if isTruth s then .bool
    else if isFloat l then .float
    else if isInteger l then .int
    else if s = "<<" then .merge
    else if ["~", "null", "Null", "NULL"].contains s then .null
    else if isTimestamp l then .timestamp
    else if s = "=" then .value
    else if ["!", "&", "*"].contains s then .other
    else .str

def formTag (text : Str) : Tag := (text.string?.map formTagOf).getD .str

/-! ## Values -/

def integerSixty (l : List Char) : Option Int := do
  let parts ← (fields ':' l).mapM (Number.integer? 10)
  return parts.foldl (fun n d => 60 * n + d) 0

def readInteger (text : String) : Except Fault Int := do
  let l := text.toList.filter (· ≠ '_')
  if l.isEmpty then throw .empty
  let (negative, digits) := match l with
    | '-' :: rest => (true, rest)
    | '+' :: rest => (false, rest)
    | _ => (false, l)
  let number ← match digits with
    | [] => throw .empty
    | ['0'] => pure (some 0)
    | '0' :: 'b' :: rest => pure (Number.integer? 2 rest)
    | '0' :: 'x' :: rest => pure (Number.integer? 16 rest)
    | '0' :: _ => pure (Number.integer? 8 digits)
    | _ => pure (if digits.contains ':' then integerSixty digits else Number.integer? 10 digits)
  let some n := number | throw .value
  return if negative then -n else n

/-- The value of digits to the base sixty, given from the last to the first; there may be so many of
them that a power of sixty is too large for a floating point number. -/
def floatSixty (base : Nat) (sum : Double) : List Double → Except Fault Double
  | [] => .ok sum
  | d :: rest =>
    match Double.ofNat base with
    | .infinite _ => .error .overflow
    | factor => floatSixty (60 * base) (sum.add (d.mul factor)) rest

def readFloat (text : String) : Except Fault Double := do
  let l := toLower (text.toList.filter (· ≠ '_'))
  if l.isEmpty then throw .empty
  let (negative, digits) := Number.splitSign l
  let x ←
    if digits = ".inf".toList then pure (.infinite false)
    else if digits = ".nan".toList then pure .nan
    else if digits.contains ':' then
      match (fields ':' digits).mapM Number.double? with
      | some parts => floatSixty 1 (.ofNat 0) parts.reverse
      | none => throw .value
    else match Number.double? digits with
      | some x => pure x
      | none => throw .value
  return if negative then x.neg else x

def microseconds (fraction : List Char) : Nat :=
  let digits := fraction.take 6
  digitsValue (digits ++ List.replicate (6 - digits.length) '0')

def readTimestamp (text : String) : Except Fault Scalar := do
  let some (year, month, day, clock) := timestamp? (dropFinalFeed text.toList) | throw .shape
  let date : Date := ⟨digitsValue year, digitsValue month, digitsValue day⟩
  match clock with
  | none => if date.isValid then return .date date else throw .value
  | some c =>
    let moment : Moment := ⟨date, c.hour, c.minute, c.second, microseconds c.fraction, c.offset⟩
    if moment.isValid then return .moment moment else throw .value

def readBinary (text : String) : Except Fault Bytes := do
  if !text.toList.all fun c => c.toNat < 128 then throw .malformed
  let some b := Base64.decodeLoose [] 0 (Bytes.ofString text) | throw .malformed
  return b

def readTruth (text : String) : Except Fault Bool :=
  match truthWords.find? fun entry => entry.1 == String.ofList (toLower text.toList) with
  | some (_, b) => .ok b
  | none => .error .word

def readWith {α : Type} (read : String → Except Fault α) (otherwise : Fault) (text : Str) :
    Except Fault α :=
  match text.string? with
  | some s => read s
  | none => .error otherwise

def readScalar (tag : Tag) (text : Str) : Except Fault Scalar :=
  match tag with
  | .null => .ok .null
  | .bool => (readWith readTruth .word text).map .bool
  | .int => (readWith readInteger .value text).map .integer
  | .float => (readWith readFloat .value text).map .float
  | .binary => (readWith readBinary .malformed text).map .bytes
  | .timestamp => readWith readTimestamp .shape text
  | .str => .ok (.text text)
  | _ => .error .malformed

end TlsGate.Yaml
