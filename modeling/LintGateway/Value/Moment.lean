import LintGateway.Decimal.Notation

/-!
# Calendar values

Settings documents can hold dates, times of day and both together, the last with or without an
offset from universal time. They are kept as numbers; `toText` is the plain form of a moment and
`describe` the form in which it stands inside a description of a larger value. Two moments with
offsets agree when they are one instant, however it is written.
-/

set_option autoImplicit false

namespace LintGateway

/-- A day of the calendar. -/
structure Day where
  year : Nat
  month : Nat
  day : Nat
deriving DecidableEq, Repr

/-- A time of day to the microsecond. -/
structure Clock where
  hour : Nat
  minute : Nat
  second : Nat
  micro : Nat
deriving DecidableEq, Repr

/-- A date, a time of day, or both, then perhaps with an offset from universal time in minutes. -/
inductive Moment where
  | date (day : Day)
  | time (clock : Clock)
  | dateTime (day : Day) (clock : Clock) (offset : Option Int)
deriving DecidableEq, Repr

namespace Day

/-- Whether a year has a 29th of February. -/
def isLeapYear (year : Nat) : Bool := year % 4 = 0 && (year % 100 ≠ 0 || year % 400 = 0)

/-- How many days a month has. -/
def monthLength (year month : Nat) : Nat :=
  if month = 2 then (if isLeapYear year then 29 else 28)
  else if month ∈ [4, 6, 9, 11] then 30 else 31

/-- Whether the calendar has the day; its first year is year one. -/
def isValid (d : Day) : Bool :=
  1 ≤ d.year && 1 ≤ d.month && d.month ≤ 12 && 1 ≤ d.day && d.day ≤ monthLength d.year d.month

/-- How many days the years before a year have: a leap day every four years, but not in a year of a
full century unless four hundred divides it. -/
def daysBeforeYear (year : Nat) : Nat :=
  let past := year - 1
  365 * past + past / 4 - past / 100 + past / 400

/-- How many days the months of a year before a month have. -/
def daysBeforeMonth (year month : Nat) : Nat :=
  (List.range' 1 (month - 1)).foldl (fun days m => days + monthLength year m) 0

/-- The number of a day; the first day of the calendar is day one. -/
def ordinal (d : Day) : Nat := daysBeforeYear d.year + daysBeforeMonth d.year d.month + d.day

end Day

/-- The microseconds of a day before a time of it. -/
def Clock.micros (c : Clock) : Nat :=
  ((c.hour * 60 + c.minute) * 60 + c.second) * 1000000 + c.micro

namespace Moment

/-- A number with at least `width` digits. -/
def pad (width n : Nat) : String := String.ofList (Decimal.padLeft width (Nat.toDigits 10 n))

/-- The plain form of a day. -/
def dayText (d : Day) : String := pad 4 d.year ++ "-" ++ pad 2 d.month ++ "-" ++ pad 2 d.day

/-- The plain form of a time of day; a whole second has no fraction. -/
def clockText (c : Clock) : String :=
  pad 2 c.hour ++ ":" ++ pad 2 c.minute ++ ":" ++ pad 2 c.second ++
    (if c.micro = 0 then "" else "." ++ pad 6 c.micro)

/-- The plain form of an offset: sign, hours and minutes. -/
def offsetText (minutes : Int) : String :=
  (if minutes < 0 then "-" else "+") ++ pad 2 (minutes.natAbs / 60) ++ ":" ++
    pad 2 (minutes.natAbs % 60)

/-- The plain form of a moment. -/
def toText : Moment → String
  | date d => dayText d
  | time c => clockText c
  | dateTime d c offset =>
    dayText d ++ " " ++ clockText c ++ (match offset with | some o => offsetText o | none => "")

/-- The microseconds of universal time up to a moment with an offset, from the day before the first
of the calendar. -/
def instant (d : Day) (c : Clock) (offset : Int) : Int :=
  (d.ordinal * 86400000000 + c.micros : Nat) - offset * 60000000

/-- Whether two moments are the same. With an offset they are when they are one instant; one without
an offset is no instant. -/
def agrees : Moment → Moment → Bool
  | dateTime d c (some o), dateTime e k (some p) => instant d c o = instant e k p
  | m, n => m = n

/-- The parts of a time of day; zero seconds and microseconds at the end are left out. -/
def clockParts (c : Clock) : List Nat :=
  [c.hour, c.minute] ++
    (if c.micro ≠ 0 then [c.second, c.micro] else if c.second ≠ 0 then [c.second] else [])

/-- The description of an offset; a negative one counts from the day before. -/
def describeOffset (minutes : Int) : String :=
  if minutes = 0 then "datetime.timezone.utc"
  else
    let span := if minutes < 0 then
        "days=-1, seconds=" ++ toString ((minutes + 1440) * 60)
      else "seconds=" ++ toString (minutes * 60)
    "datetime.timezone(datetime.timedelta(" ++ span ++ "))"

/-- The description of a moment by its parts. -/
def describe : Moment → String
  | date d => "datetime.date(" ++ listed [d.year, d.month, d.day] ++ ")"
  | time c => "datetime.time(" ++ listed (clockParts c) ++ ")"
  | dateTime d c offset =>
    "datetime.datetime(" ++ listed ([d.year, d.month, d.day] ++ clockParts c) ++
      (match offset with
        | some o => ", tzinfo=" ++ describeOffset o
        | none => "") ++ ")"
where
  /-- Numbers with commas between them. -/
  listed (ns : List Nat) : String := ", ".intercalate (ns.map Nat.repr)

end Moment

end LintGateway
