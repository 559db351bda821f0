/-!
Dates and times of the Gregorian calendar, as they stand in documents. A time may have an offset
from universal time, which is less than a day; two times with offsets are equal if they are the same
instant.
-/

set_option autoImplicit false
set_option relaxedAutoImplicit false

namespace TlsGate

structure Date where
  year : Nat
  month : Nat
  day : Nat
  deriving DecidableEq, Repr

namespace Date

def isLeap (year : Nat) : Bool := year % 4 == 0 && (year % 100 != 0 || year % 400 == 0)

def daysIn (year month : Nat) : Nat :=
  if month = 2 then (if isLeap year then 29 else 28)
  else if [4, 6, 9, 11].contains month then 30
  else 31

def isValid (d : Date) : Bool :=
  1 ≤ d.year && d.year ≤ 9999 && 1 ≤ d.month && d.month ≤ 12 && 1 ≤ d.day &&
    d.day ≤ daysIn d.year d.month

def dayNumber (d : Date) : Nat :=
  let before := d.year - 1
  let months := (List.range (d.month - 1)).foldl (fun n k => n + daysIn d.year (k + 1)) 0
  before * 365 + before / 4 - before / 100 + before / 400 + months + (d.day - 1)

end Date

def padded (width n : Nat) : String :=
  let digits := Nat.toDigits 10 n
  String.ofList (List.replicate (width - digits.length) '0' ++ digits)

def Date.text (d : Date) : String :=
  padded 4 d.year ++ "-" ++ padded 2 d.month ++ "-" ++ padded 2 d.day

/-- A date and a time of the day, perhaps with an offset from universal time in minutes. -/
structure Moment where
  date : Date
  hour : Nat
  minute : Nat
  second : Nat
  microsecond : Nat
  offset : Option Int
  deriving DecidableEq, Repr

namespace Moment

def isValid (t : Moment) : Bool :=
  t.date.isValid && t.hour < 24 && t.minute < 60 && t.second < 60 &&
    (t.offset.all fun o => o.natAbs < 1440)

def seconds (t : Moment) : Int :=
  (t.date.dayNumber : Int) * 86400 + t.hour * 3600 + t.minute * 60 + t.second

/-- Whether two moments are the same: the same instant, or the same time on clocks that are not
related. -/
def same (a b : Moment) : Bool :=
  a.microsecond == b.microsecond &&
    match a.offset, b.offset with
    | some o, some p => a.seconds - o * 60 == b.seconds - p * 60
    | none, none => a.seconds == b.seconds
    | _, _ => false

def offsetText (o : Int) : String :=
  (if o < 0 then "-" else "+") ++ padded 2 (o.natAbs / 60) ++ ":" ++ padded 2 (o.natAbs % 60)

def text (t : Moment) : String :=
  t.date.text ++ " " ++ padded 2 t.hour ++ ":" ++ padded 2 t.minute ++ ":" ++ padded 2 t.second ++
    (if t.microsecond = 0 then "" else "." ++ padded 6 t.microsecond) ++
    (t.offset.map offsetText).getD ""

end Moment

end TlsGate
