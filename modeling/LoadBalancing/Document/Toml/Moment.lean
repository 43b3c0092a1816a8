/-
Dates and times in TOML texts.

A moment is a date, a time of day, or both, and then perhaps with an offset from
universal time. It has one text: two digits for each part and four for the year, a
`T` between date and time, no more digits of the fraction than it needs, and offsets
in hours and minutes. Time is kept to the nanosecond; finer digits are dropped. The
sixtieth second is allowed, and the days of a month are those of the calendar.
-/
import LoadBalancing.Document.Node
import LoadBalancing.Document.Toml.Lexeme

set_option autoImplicit false

namespace LoadBalancing.Document.Toml

/-! ## Moments -/

/-- A day of the calendar. -/
structure Date where
  year : Nat
  month : Nat
  day : Nat
  deriving DecidableEq, Repr

/-- A time of day, to the nanosecond. -/
structure TimeOfDay where
  hour : Nat
  minute : Nat
  second : Nat
  nanosecond : Nat
  deriving DecidableEq, Repr

/-- How far the time of a place is from universal time. -/
inductive Offset where
  /-- It is universal time. -/
  | universal
  /-- It is ahead by some minutes, or behind if they are negative. -/
  | ahead (minutes : Int)
  deriving DecidableEq, Repr

/-- A date, a time of day, or both. Only a date with a time has an offset. -/
inductive Moment where
  | day (d : Date)
  | time (t : TimeOfDay)
  | instant (d : Date) (t : TimeOfDay) (o : Option Offset)
  deriving DecidableEq, Repr

/-! ## Texts -/

/-- A number with zeros before it, up to some width. -/
def padded (width n : Nat) : String :=
  let digits := toString n
  String.ofList (List.replicate (width - digits.length) '0') ++ digits

namespace Date

/-- The text of a date. -/
def text (d : Date) : String :=
  padded 4 d.year ++ "-" ++ padded 2 d.month ++ "-" ++ padded 2 d.day

end Date

namespace TimeOfDay

/-- The fraction of the second, without zeros at its end; nothing if it is zero. -/
def fractionText (t : TimeOfDay) : String :=
  if t.nanosecond = 0 then ""
  else "." ++ String.ofList ((padded 9 t.nanosecond).toList.reverse.dropWhile (· = '0')).reverse

/-- The text of a time of day. -/
def text (t : TimeOfDay) : String :=
  padded 2 t.hour ++ ":" ++ padded 2 t.minute ++ ":" ++ padded 2 t.second ++ t.fractionText

end TimeOfDay

namespace Offset

/-- The text of an offset. -/
def text : Offset → String
  | .universal => "Z"
  | .ahead minutes =>
    let distance := minutes.natAbs
    (if minutes < 0 then "-" else "+") ++ padded 2 (distance / 60) ++ ":" ++
      padded 2 (distance % 60)

end Offset

namespace Moment

/-- The text of a moment: its parts in order. -/
def text : Moment → String
  | .day d => d.text
  | .time t => t.text
  | .instant d t o => d.text ++ "T" ++ t.text ++ (o.map Offset.text).getD ""

/-- The key of the one entry that a moment has as a table. -/
def key : String := "$__toml_private_datetime"

/-- A moment as a part of a document: a table that holds its text. -/
def toNode (m : Moment) : Node :=
  .table [(key, .text m.text)]

end Moment

/-! ## Reading -/

/-- Exactly `n` digits as a number in a range. -/
def fixed? (n low high : Nat) (cs : List Char) : Option (Nat × List Char) := do
  let digits := cs.take n
  guard (digits.length = n && digits.all Char.isDigit)
  let value ← ofDigits? 10 digits
  guard (low ≤ value && value ≤ high)
  pure (value, cs.drop n)

/-- Whether a year has a 29th of February. -/
def isLeapYear (year : Nat) : Bool :=
  year % 4 = 0 && (year % 100 ≠ 0 || year % 400 = 0)

/-- The days of a month. -/
def daysIn (year month : Nat) : Nat :=
  if month = 2 then (if isLeapYear year then 29 else 28)
  else if month = 4 || month = 6 || month = 9 || month = 11 then 30
  else 31

/-- A date: year, month and day between hyphens. -/
def date? (cs : List Char) : Option (Date × List Char) := do
  let (year, cs) ← fixed? 4 0 9999 cs
  let cs ← expect? '-' cs
  let (month, cs) ← fixed? 2 1 12 cs
  let cs ← expect? '-' cs
  let (day, cs) ← fixed? 2 1 (daysIn year month) cs
  pure (⟨year, month, day⟩, cs)

/-- The nanoseconds that the digits after a point write. -/
def nanoseconds? (digits : List Char) : Option Nat :=
  ofDigits? 10 ((digits ++ List.replicate 9 '0').take 9)

/-- A time of day, to the second or finer. A point without a digit is not part of it. -/
def time? (cs : List Char) : Option (TimeOfDay × List Char) := do
  let (hour, cs) ← fixed? 2 0 23 cs
  let cs ← expect? ':' cs
  let (minute, cs) ← fixed? 2 0 59 cs
  let cs ← expect? ':' cs
  let (second, cs) ← fixed? 2 0 60 cs
  match cs with
  | '.' :: rest =>
    let digits := rest.takeWhile Char.isDigit
    if digits.isEmpty then pure (⟨hour, minute, second, 0⟩, cs)
    else pure (⟨hour, minute, second, ← nanoseconds? digits⟩, rest.dropWhile Char.isDigit)
  | _ => pure (⟨hour, minute, second, 0⟩, cs)

/-- The offset that hours and minutes write after their sign. -/
def hoursAndMinutes? (sign : Int) (cs : List Char) : Option (Offset × List Char) := do
  let (hours, cs) ← fixed? 2 0 23 cs
  let cs ← expect? ':' cs
  let (minutes, cs) ← fixed? 2 0 59 cs
  pure (.ahead (sign * (hours * 60 + minutes)), cs)

/-- An offset, or the mark of universal time. -/
def offset? : List Char → Option (Offset × List Char)
  | 'Z' :: rest | 'z' :: rest => some (.universal, rest)
  | '+' :: rest => hoursAndMinutes? 1 rest
  | '-' :: rest => hoursAndMinutes? (-1) rest
  | _ => none

/-- The moment of a date and of what comes after it. -/
def momentOf (d : Date) (cs : List Char) : Moment × List Char :=
  match cs with
  | 'T' :: later | 't' :: later | ' ' :: later =>
    match time? later with
    | none => (.day d, cs)
    | some (t, rest) =>
      match offset? rest with
      | none => (.instant d t none, rest)
      | some (o, rest) => (.instant d t (some o), rest)
  | _ => (.day d, cs)

/-- A date, a time, or both. -/
def moment? (cs : List Char) : Option (Moment × List Char) :=
  match date? cs with
  | some (d, rest) => some (momentOf d rest)
  | none => (time? cs).map fun (t, rest) => (.time t, rest)

end LoadBalancing.Document.Toml
