import BuildDiagnostics.Text.Decimal
import BuildDiagnostics.Toml.Reader

/-!
# TOML dates and times

A date, a time of day, or both, in which case an offset from UTC may follow. Seconds may be left
out. Days are checked against the length of their month, and a leap second is allowed.
-/

namespace BuildDiagnostics.Toml

/-- A day of the calendar. -/
structure Date where
  year : Nat
  month : Nat
  day : Nat
  deriving DecidableEq, Repr

/-- A time of day. -/
structure Time where
  hour : Nat
  minute : Nat
  second : Nat := 0
  /-- The digits after the point of the seconds. -/
  fraction : List Char := []
  deriving DecidableEq, Repr

/-- A date, a time, or both with an optional offset in minutes. -/
structure Datetime where
  date : Option Date := none
  time : Option Time := none
  offset : Option Int := none
  deriving DecidableEq, Repr

namespace Datetime

/-- Whether a year has a 29th of February. -/
def isLeapYear (year : Nat) : Bool :=
  year % 4 == 0 && (year % 100 != 0 || year % 400 == 0)

/-- How many days a month has; none if there is no such month. -/
def daysIn (year month : Nat) : Nat :=
  if month = 2 then if isLeapYear year then 29 else 28
  else if [4, 6, 9, 11].contains month then 30
  else if 1 ≤ month ∧ month ≤ 12 then 31
  else 0

/-- Reads a number of exactly `n` digits that is at most `largest`. -/
def number (n largest : Nat) : Reader Nat := do
  let value := Text.Decimal.ofDigits (← Reader.digits n)
  if value ≤ largest then return value else throw .malformed

/-- Reads a date, such as `1979-05-27`. -/
def readDate : Reader Date := do
  let year ← number 4 9999
  Reader.expect '-'
  let month ← number 2 12
  Reader.expect '-'
  let day ← number 2 31
  if 1 ≤ day ∧ day ≤ daysIn year month then return { year, month, day } else throw .malformed

/-- Reads a time, such as `07:32`, `07:32:00` or `07:32:00.5`. -/
def readTime : Reader Time := do
  let hour ← number 2 23
  Reader.expect ':'
  let minute ← number 2 59
  if ← Reader.accept ':' then
    let second ← number 2 60
    if ← Reader.accept '.' then
      let fraction ← Reader.takeWhile Char.isDigit
      if fraction.isEmpty then throw .malformed
      return { hour, minute, second, fraction }
    return { hour, minute, second }
  return { hour, minute }

/-- Reads an optional offset, such as `Z` or `-07:00`. -/
def readOffset : Reader (Option Int) := do
  if ← Reader.accept 'Z' then return some 0
  if ← Reader.accept 'z' then return some 0
  if ← Reader.accept '+' then
    return some (← minutes)
  if ← Reader.accept '-' then
    return some (-(← minutes))
  return none
where
  /-- Reads hours and minutes. -/
  minutes : Reader Int := do
    let hours ← number 2 23
    Reader.expect ':'
    return 60 * hours + (← number 2 59)

/-- Reads what comes after a date: the end, or a time and an optional offset. -/
def readAfterDate (date : Date) : Reader Datetime := do
  match ← Reader.peek? with
  | none => return { date }
  | some c =>
    if c = 'T' ∨ c = 't' ∨ c = ' ' then
      Reader.expect c
      let time ← readTime
      return { date, time, offset := ← readOffset }
    else throw .malformed

/-- Whether a text starts like a date, with four digits and a hyphen. -/
def startsLikeDate (cs : List Char) : Bool :=
  (cs.take 4).length == 4 && (cs.take 4).all Char.isDigit && cs[4]? == some '-'

/-- Whether a text starts like a time, with two digits and a colon. -/
def startsLikeTime (cs : List Char) : Bool :=
  (cs.take 2).length == 2 && (cs.take 2).all Char.isDigit && cs[2]? == some ':'

/-- Reads a date, a time or both. -/
def read : Reader Datetime := do
  if startsLikeTime (← get) then return { time := ← readTime }
  else readAfterDate (← readDate)

end Datetime

end BuildDiagnostics.Toml
