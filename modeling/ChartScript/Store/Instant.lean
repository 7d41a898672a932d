import ChartScript.Text.Bytes

/-!
# Instants

A moment in UTC to the nanosecond, and its RFC 3339 text. The calendar is the Gregorian one, carried
back before its introduction.
-/

set_option autoImplicit false

namespace ChartScript

/-- Nanoseconds since the beginning of 1970. -/
structure Instant where
  ns : Int
  deriving DecidableEq, Repr

/-- A day of the calendar. -/
structure Date where
  year : Int
  month : Nat
  day : Nat
  deriving DecidableEq, Repr

/-- The day that is `days` days after the first of January 1970. Years are counted from March on, so
that a leap day is the last day of its year; 146097 days make a cycle of 400 years. -/
def Date.ofDays (days : Int) : Date :=
  let shifted := days + 719468
  let cycle := shifted.fdiv 146097
  let inCycle := (shifted.fmod 146097).toNat
  let year := (inCycle - inCycle / 1460 + inCycle / 36524 - inCycle / 146096) / 365
  let inYear := inCycle - (365 * year + year / 4 - year / 100)
  let march := (5 * inYear + 2) / 153
  let day := inYear - (153 * march + 2) / 5 + 1
  let month := if march < 10 then march + 3 else march - 9
  ⟨year + cycle * 400 + (if month ≤ 2 then 1 else 0), month, day⟩

namespace Instant

/-- The beginning of the year 1: the time of something that never happened. -/
def zero : Instant := ⟨-62135596800000000000⟩

/-- A number in decimal, filled up with zeros to `width` digits. -/
def padded (width n : Nat) : Bytes :=
  let digits := Nat.toDigits 10 n
  Bytes.ofChars (List.replicate (width - digits.length) '0' ++ digits)

/-- The fraction of a second: a point and up to nine digits, without the zeros at its end. -/
def fraction (ns : Nat) : Bytes :=
  if ns = 0 then [] else "." ++ ((padded 9 ns).reverse.dropWhile (· == 48)).reverse

/-- The nanoseconds of a day. -/
def dayLength : Nat := 86400000000000

/-- The day an instant is on. -/
def date (t : Instant) : Date := Date.ofDays (t.ns.fdiv dayLength)

/-- Whether an instant has a text: its year has four digits. -/
def isWritable (t : Instant) : Bool := 0 ≤ t.date.year && t.date.year ≤ 9999

/-- An instant as RFC 3339 text in UTC. -/
def text (t : Instant) : Bytes :=
  let date := t.date
  let inDay := (t.ns.fmod dayLength).toNat
  let seconds := inDay / 1000000000
  padded 4 date.year.toNat ++ "-" ++ padded 2 date.month ++ "-" ++ padded 2 date.day ++ "T" ++
    padded 2 (seconds / 3600) ++ ":" ++ padded 2 (seconds / 60 % 60) ++ ":" ++
    padded 2 (seconds % 60) ++ fraction (inDay % 1000000000) ++ "Z"

end Instant

end ChartScript
