import BoundSql.Text

/-!
# Timestamps without a time zone

* `Timestamp`            a day of the proleptic Gregorian calendar and a time of day;
* `Timestamp.literal`    `2009-11-11 00:00:00`, as SQL writes it;
* `Timestamp.shown`      `2009-11-11T00:00:00.5`, as messages show it;
* `Timestamp.plus?`      the wall clock some seconds east, if the calendar still has that day.

A nanosecond part of a thousand million and more stands for a leap second.
-/

namespace BoundSql

structure Timestamp where
  year : Int
  month : Nat
  day : Nat
  hour : Nat
  minute : Nat
  second : Nat
  nano : Nat
  deriving DecidableEq, Repr

namespace Timestamp

/-! ## texts -/

def padded (width n : Nat) : Text :=
  let ds := Text.ofNat n
  List.replicate (width - ds.length) '0' ++ ds

/-- four digits; a year before 0 or after 9999 carries its sign -/
def yearText (y : Int) : Text :=
  if y < 0 then '-' :: padded 4 y.natAbs
  else if 9999 < y then '+' :: padded 4 y.natAbs
  else padded 4 y.natAbs

def dateText (t : Timestamp) : Text :=
  yearText t.year ++ '-' :: padded 2 t.month ++ '-' :: padded 2 t.day

/-- the second that a clock shows, 60 during a leap second -/
def shownSecond (t : Timestamp) : Nat := t.second + t.nano / 1000000000

def clockText (t : Timestamp) : Text :=
  padded 2 t.hour ++ ':' :: padded 2 t.minute ++ ':' :: padded 2 t.shownSecond

def literal (t : Timestamp) : Text := t.dateText ++ ' ' :: t.clockText

/-- the fraction of the second in as many groups of three digits as it needs -/
def fractionText (t : Timestamp) : Text :=
  let nano := t.nano % 1000000000
  if nano = 0 then []
  else if nano % 1000000 = 0 then '.' :: padded 3 (nano / 1000000)
  else if nano % 1000 = 0 then '.' :: padded 6 (nano / 1000)
  else '.' :: padded 9 nano

def shown (t : Timestamp) : String :=
  String.ofList (t.dateText ++ 'T' :: t.clockText ++ t.fractionText)

/-! ## the calendar -/

def isLeap (y : Int) : Bool := y % 4 = 0 && (y % 100 ≠ 0 || y % 400 = 0)

def daysIn (y : Int) (month : Nat) : Nat :=
  if month = 2 then if isLeap y then 29 else 28
  else if month = 4 ∨ month = 6 ∨ month = 9 ∨ month = 11 then 30
  else 31

def firstYear : Int := -262143
def lastYear : Int := 262142

def nextDay (t : Timestamp) : Timestamp :=
  if t.day < daysIn t.year t.month then { t with day := t.day + 1 }
  else if t.month < 12 then { t with month := t.month + 1, day := 1 }
  else { t with year := t.year + 1, month := 1, day := 1 }

def previousDay (t : Timestamp) : Timestamp :=
  if 1 < t.day then { t with day := t.day - 1 }
  else if 1 < t.month then { t with month := t.month - 1, day := daysIn t.year (t.month - 1) }
  else { t with year := t.year - 1, month := 12, day := 31 }

def secondOfDay (t : Timestamp) : Nat := t.hour * 3600 + t.minute * 60 + t.second

/-- the same day with another time of day; the fraction stays -/
def atSecond (t : Timestamp) (s : Nat) : Timestamp :=
  { t with hour := s / 3600, minute := s / 60 % 60, second := s % 60 }

/-- the wall clock `offset` seconds east, less than a day either way -/
def plus? (t : Timestamp) (offset : Int) : Option Timestamp :=
  let s : Int := t.secondOfDay + offset
  let moved :=
    if s < 0 then t.previousDay.atSecond (s + 86400).toNat
    else if 86400 ≤ s then t.nextDay.atSecond (s - 86400).toNat
    else t.atSecond s.toNat
  if firstYear ≤ moved.year ∧ moved.year ≤ lastYear then some moved else none

end Timestamp

end BoundSql
