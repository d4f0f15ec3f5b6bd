/-!
Dates and moments, and their text in figures.
-/

namespace ScriptTree

/-- The distance from universal time of a moment, in minutes. -/
inductive Zone where
  | unknown
  | universal
  | offset (minutes : Int)
  deriving DecidableEq, Repr

/-- A moment: date, time of day and zone. -/
structure Moment where
  year : Nat
  month : Nat
  day : Nat
  hour : Nat
  minute : Nat
  second : Nat
  micro : Nat
  zone : Zone
  deriving DecidableEq, Repr

/-! ## The calendar -/

/-- Whether a year has a day more. -/
def isLeap (year : Nat) : Bool :=
  year % 4 == 0 && (year % 100 != 0 || year % 400 == 0)

/-- The number of days of a month. -/
def daysIn (year month : Nat) : Nat :=
  if month = 2 then (if isLeap year then 29 else 28)
  else if [4, 6, 9, 11].contains month then 30
  else 31

/-- The number of days before a date, counted from the first day of the year one. -/
def daysBefore (year month day : Nat) : Nat :=
  let years := year - 1
  let months := (List.range (month - 1)).map fun m => daysIn year (m + 1)
  365 * years + years / 4 - years / 100 + years / 400 + months.foldl (· + ·) 0 + (day - 1)

/-- A span of time as its whole days and the seconds beyond them, each only if it is not zero. -/
def spanText (minutes : Int) : String :=
  let days := Int.fdiv minutes 1440
  let seconds := Int.fmod minutes 1440 * 60
  let parts := (if days = 0 then [] else [s!"days={days}"]) ++
    (if seconds = 0 then [] else [s!"seconds={seconds}"])
  let inside := if parts.isEmpty then "0" else ", ".intercalate parts
  s!"datetime.timedelta({inside})"

/-- Why numbers are no date, no time of day or no zone. -/
inductive DateFault where
  | year (n : Nat)
  | month
  | day
  | hour
  | minute
  | second
  | zone (minutes : Int)
  deriving DecidableEq, Repr

/-- The wording of a fault. -/
def DateFault.message : DateFault → String
  | .year n => s!"year {n} is out of range"
  | .month => "month must be in 1..12"
  | .day => "day is out of range for month"
  | .hour => "hour must be in 0..23"
  | .minute => "minute must be in 0..59"
  | .second => "second must be in 0..59"
  | .zone minutes =>
    "offset must be a timedelta strictly between -timedelta(hours=24) and " ++
      s!"timedelta(hours=24), not {spanText minutes}."

/-- Why numbers are no date, if they are none. -/
def dateFault? (year month day : Nat) : Option DateFault :=
  if year = 0 then some (.year year)
  else if month < 1 || 12 < month then some .month
  else if day < 1 || daysIn year month < day then some .day
  else none

/-- Why numbers are no time of day, if they are none. -/
def timeFault? (hour minute second : Nat) : Option DateFault :=
  if 23 < hour then some .hour
  else if 59 < minute then some .minute
  else if 59 < second then some .second
  else none

/-- Why a zone is none: it is a whole day away from universal time or more. -/
def zoneFault? : Zone → Option DateFault
  | .offset minutes => if 1440 ≤ minutes.natAbs then some (.zone minutes) else none
  | _ => none

namespace Moment

/-- The distance of a zone from universal time in minutes. -/
def zoneMinutes : Zone → Int
  | .unknown => 0
  | .universal => 0
  | .offset minutes => minutes

/-- The millionths of a second from the start of the year one to a moment, in universal time. -/
def instant (m : Moment) : Int :=
  let days : Int := daysBefore m.year m.month m.day
  let minutes := days * 1440 + m.hour * 60 + m.minute - zoneMinutes m.zone
  (minutes * 60 + m.second) * 1000000 + m.micro

/-- Whether two moments are the same. Those with a zone are compared in universal time; one with
and one without are never the same. -/
def same (a b : Moment) : Bool :=
  (a.zone == .unknown) == (b.zone == .unknown) && a.instant == b.instant

/-- A number with at least `width` digits. -/
def padded (width n : Nat) : String :=
  let digits := Nat.toDigits 10 n
  String.ofList (List.replicate (width - digits.length) '0' ++ digits)

/-- A date in figures, the year first. -/
def dateText (year month day : Nat) : String :=
  padded 4 year ++ "-" ++ padded 2 month ++ "-" ++ padded 2 day

/-- The distance from universal time in hours and minutes. -/
def zoneText : Zone → String
  | .unknown => ""
  | .universal => "+00:00"
  | .offset minutes =>
    (if minutes < 0 then "-" else "+") ++ padded 2 (minutes.natAbs / 60) ++ ":" ++
      padded 2 (minutes.natAbs % 60)

/-- A moment in figures with `separator` before the time of day; the fraction of the second only
stands where there is one. -/
def text (separator : String) (m : Moment) : String :=
  dateText m.year m.month m.day ++ separator ++ padded 2 m.hour ++ ":" ++ padded 2 m.minute ++
    ":" ++ padded 2 m.second ++ (if m.micro = 0 then "" else "." ++ padded 6 m.micro) ++
    zoneText m.zone

/-- Date and time of day without marks, as part of a file name. -/
def stamp (m : Moment) : String :=
  padded 4 m.year ++ padded 2 m.month ++ padded 2 m.day ++ "_" ++ padded 2 m.hour ++
    padded 2 m.minute ++ padded 2 m.second

end Moment
end ScriptTree
