import LintReport.Number.Binary64

/-! # Timestamps

The date and time of a record in universal time. The time is kept as a floating-point
number of seconds, so that far from the epoch not every microsecond can be told from
its neighbours. -/

namespace LintReport.Log

/-- A date of the Gregorian calendar. -/
structure Date where
  year : Int
  month : Int
  day : Int
  deriving DecidableEq, Repr

/-- The date that lies so many days after the first of January 1970. Years are counted
from March on, in cycles of four hundred years. -/
def Date.ofDays (days : Int) : Date :=
  let shifted := days + 719468
  let cycle := shifted / 146097
  let dayOfCycle := shifted % 146097
  let yearOfCycle :=
    (dayOfCycle - dayOfCycle / 1460 + dayOfCycle / 36524 - dayOfCycle / 146096) / 365
  let dayOfYear := dayOfCycle - (365 * yearOfCycle + yearOfCycle / 4 - yearOfCycle / 100)
  let monthFromMarch := (5 * dayOfYear + 2) / 153
  let month := if monthFromMarch < 10 then monthFromMarch + 3 else monthFromMarch - 9
  { year := yearOfCycle + cycle * 400 + if month ≤ 2 then 1 else 0
    month
    day := dayOfYear - (153 * monthFromMarch + 2) / 5 + 1 }

/-- A moment, in whole seconds and microseconds since the epoch. -/
structure Moment where
  seconds : Int
  microseconds : Nat
  deriving DecidableEq, Repr

/-- The moment that a number of microseconds since the epoch denotes once it is kept as a
floating-point number of seconds and rounded to the microsecond, unless that number is
infinite. -/
def Moment.ofMicroseconds? (created : Int) : Option Moment :=
  match Binary64.nearest (created < 0) (mkRat created.natAbs 1000000) with
  | .finite _ exponent fraction =>
      let (numerator, denominator) := Binary64.quotient exponent fraction
      let whole := numerator / denominator
      let micros :=
        match Binary64.nearest false (mkRat (numerator % denominator * 1000000) denominator) with
        | .finite _ exponent fraction =>
            let (numerator, denominator) := Binary64.quotient exponent fraction
            Binary64.roundQuotient numerator denominator
        | _ => 0
      let total := (whole * 1000000 + micros : Nat)
      let signed : Int := if created < 0 then -(total : Int) else total
      some { seconds := signed / 1000000, microseconds := (signed % 1000000).toNat }
  | _ => none

/-- A number with zeros in front of it up to a width. -/
def padded (width : Nat) (number : Int) : String :=
  let digits := Nat.toDigits 10 number.natAbs
  String.ofList (List.replicate (width - digits.length) '0' ++ digits)

/-- Why a moment has no date. -/
inductive TimeFault where
  /-- The number of seconds is too large for a floating-point number. -/
  | tooManySeconds
  /-- The number of seconds does not fit into the 64 bits of a clock. -/
  | outsideClock
  /-- The year, counted from 1900, does not fit into the 32 bits of a calendar. -/
  | outsideCalendar
  /-- The year has no date. -/
  | yearOutOfRange (year : Int)
  deriving DecidableEq, Repr

/-- The sentence for a moment without a date. -/
def TimeFault.message : TimeFault → String
  | .tooManySeconds => "integer division result too large for a float"
  | .outsideClock => "timestamp out of range for platform time_t"
  | .outsideCalendar => "[Errno 75] Value too large for defined data type"
  | .yearOutOfRange year => s!"year {year} is out of range"

/-- Whether a number fits into so many bits, one of them for its sign. -/
def fitsBits (bits : Nat) (number : Int) : Bool :=
  -(Nat.pow 2 (bits - 1) : Int) ≤ number && number < (Nat.pow 2 (bits - 1) : Int)

/-- The date of a moment. A year that fits the calendar only without its offset of 1900
is taken for the year that its last 32 bits denote. -/
def Moment.date (moment : Moment) : Except TimeFault Date :=
  let date := Date.ofDays (moment.seconds / 86400)
  let year := date.year.bmod (Nat.pow 2 32)
  if !fitsBits 64 moment.seconds then .error .outsideClock
  else if !fitsBits 32 (date.year - 1900) then .error .outsideCalendar
  else if year < 1 ∨ 9999 < year then .error (.yearOutOfRange year)
  else .ok date

/-- A date and the time of day of its moment, as a record tells them. Microseconds are
left out when there are none. -/
def Moment.text (moment : Moment) (date : Date) : String :=
  let second := moment.seconds % 86400
  let minute := second / 60
  let day := s!"{padded 4 date.year}-{padded 2 date.month}-{padded 2 date.day}"
  let time := s!"{padded 2 (minute / 60)}:{padded 2 (minute % 60)}:{padded 2 (second % 60)}"
  let fraction := if moment.microseconds = 0 then "" else "." ++ padded 6 moment.microseconds
  day ++ "T" ++ time ++ fraction ++ "+00:00"

/-- The text of the moment so many microseconds after the epoch. -/
def timestamp (created : Int) : Except TimeFault String :=
  match Moment.ofMicroseconds? created with
  | none => .error .tooManySeconds
  | some moment =>
      match moment.date with
      | .error fault => .error fault
      | .ok date => .ok (moment.text date)

end LintReport.Log
