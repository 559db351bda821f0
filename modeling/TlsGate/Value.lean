import TlsGate.Bytes
import TlsGate.Calendar
import TlsGate.Number.Double
import TlsGate.Text.Str

/-!
Values of documents. The keys of a mapping are scalars; numbers are the same key if they are equal,
whatever their types, and a truth value counts as zero or one.
-/

set_option autoImplicit false
set_option relaxedAutoImplicit false

namespace TlsGate

inductive Scalar where
  | null
  | bool (b : Bool)
  | integer (n : Int)
  | float (x : Double)
  | text (s : Str)
  | bytes (b : Bytes)
  | date (d : Date)
  | moment (t : Moment)
  deriving DecidableEq, Repr

inductive Value where
  | scalar (s : Scalar)
  | list (items : List Value)
  | mapping (entries : List (Scalar × Value))
  | set (items : List Scalar)
  deriving Repr, Inhabited

namespace Scalar

def integer? : Scalar → Option Int
  | bool b => some (if b then 1 else 0)
  | integer n => some n
  | _ => none

def same : Scalar → Scalar → Bool
  | float x, float y => x == y || (x.isZero && y.isZero)
  | float x, b => (b.integer?.map x.equalsInt).getD false
  | a, float y => (a.integer?.map y.equalsInt).getD false
  | moment t, moment u => t.same u
  | a, b =>
    match a.integer?, b.integer? with
    | some m, some n => m == n
    | none, none => a == b
    | _, _ => false

def typeName : Scalar → String
  | null => "NoneType"
  | bool _ => "bool"
  | integer _ => "int"
  | float _ => "float"
  | text _ => "str"
  | bytes _ => "bytes"
  | date _ => "date"
  | moment _ => "datetime"

def quotedByte (quote : Char) (b : UInt8) : List Char :=
  let c := Char.ofNat b.toNat
  if c = quote ∨ c = '\\' then ['\\', c]
  else if c = '\n' then ['\\', 'n']
  else if c = '\r' then ['\\', 'r']
  else if c = '\t' then ['\\', 't']
  else if 32 ≤ b ∧ b < 127 then [c]
  else '\\' :: 'x' :: Text.hexDigits 2 b.toNat

def quotedBytes (b : Bytes) : String :=
  let quote := Text.quoteOf (b.map fun x => Char.ofNat x.toNat)
  String.ofList ('b' :: quote :: (b.flatMap (quotedByte quote) ++ [quote]))

def shownOffset (o : Int) : String :=
  if o = 0 then "datetime.timezone.utc"
  else
    let seconds := o * 60
    "datetime.timezone(datetime.timedelta(" ++
      (if seconds < 0 then "days=-1, seconds=" ++ toString (seconds + 86400)
        else "seconds=" ++ toString seconds) ++ "))"

/-- How a moment is shown to a developer; trailing zeros of the time are left out. -/
def shownMoment (t : Moment) : String :=
  let numbers := [t.date.year, t.date.month, t.date.day, t.hour, t.minute] ++
    (if t.microsecond ≠ 0 then [t.second, t.microsecond]
      else if t.second ≠ 0 then [t.second] else [])
  "datetime.datetime(" ++ String.intercalate ", " (numbers.map toString) ++
    (t.offset.map fun o => ", tzinfo=" ++ shownOffset o).getD "" ++ ")"

def isShort (n : Int) : Bool := n.natAbs < Nat.pow 10 4300

def decimal? (n : Int) : Option String := if isShort n then some (toString n) else none

def shown? : Scalar → Option String
  | null => some "None"
  | bool b => some (if b then "True" else "False")
  | integer n => decimal? n
  | float x => some x.text
  | text s => some s.quoted
  | bytes b => some (quotedBytes b)
  | date d => some ("datetime.date(" ++
      String.intercalate ", " ([d.year, d.month, d.day].map toString) ++ ")")
  | moment t => some (shownMoment t)

def plain? : Scalar → Option Str
  | text s => some s
  | date d => some d.text
  | moment t => some t.text
  | s => s.shown?.map Str.ofString

end Scalar

namespace Value

def typeName : Value → String
  | scalar s => s.typeName
  | list _ => "list"
  | mapping _ => "dict"
  | set _ => "set"

def lookup (key : Scalar) (entries : List (Scalar × Value)) : Option Value :=
  (entries.find? (·.1.same key)).map Prod.snd

end Value

end TlsGate
