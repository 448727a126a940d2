import PolicyWarden.Text.Basic

/-!
# Dates

An instant is a number of milliseconds since the start of 1970 in universal time.
`Instant.render` writes it as a calendar date and a time of day.  Years beyond four digits are
written with a sign and six digits.  The calendar reaches a hundred million days into the past and
into the future; a clock that stands further away shows no date.
-/

namespace PolicyWarden

/-- Milliseconds since the start of 1970. -/
abbrev Instant := Int

namespace Instant

/-- The milliseconds of a day. -/
def dayLength : Int :=
  86400000

/-- The milliseconds from the start of 1970 to the last instant of the calendar, and to the first. -/
def calendarReach : Nat :=
  8640000000000000

/-- The instant, if the calendar reaches it. -/
def onCalendar? (t : Instant) : Option Instant :=
  if t.natAbs ≤ calendarReach then some t else none

/-- The calendar reaches exactly the instants of its range, and leaves them as they are. -/
theorem onCalendar?_eq_some_iff {t s : Instant} :
    t.onCalendar? = some s ↔ t = s ∧ t.natAbs ≤ calendarReach := by
  by_cases h : t.natAbs ≤ calendarReach <;> simp [onCalendar?, h]

/-- A day of the calendar. -/
structure Date where
  year : Int
  month : Nat
  day : Nat
  deriving DecidableEq, Repr

/-- The date of a day, counted from the start of 1970.  Years are taken to begin in March, so that a
leap day is the last day of its year; 400 such years have 146097 days. -/
def dateOfDay (dayNumber : Int) : Date :=
  let shifted := dayNumber + 719468
  let era := shifted.fdiv 146097
  let dayOfEra := (shifted.fmod 146097).toNat
  let yearOfEra := (dayOfEra - dayOfEra / 1460 + dayOfEra / 36524 - dayOfEra / 146096) / 365
  let dayOfYear := dayOfEra - (365 * yearOfEra + yearOfEra / 4 - yearOfEra / 100)
  let marchMonth := (5 * dayOfYear + 2) / 153
  let day := dayOfYear - (153 * marchMonth + 2) / 5 + 1
  let month := if marchMonth < 10 then marchMonth + 3 else marchMonth - 9
  let year := era * 400 + yearOfEra + if month ≤ 2 then 1 else 0
  ⟨year, month, day⟩

/-- Digits with zeros in front up to a width. -/
def padded (width n : Nat) : Text :=
  let digits := Text.ofNat n
  List.replicate (width - digits.length) (CodeUnit.ofChar '0') ++ digits

/-- The text of a year. -/
def yearText (year : Int) : Text :=
  if 0 ≤ year && year < 10000 then padded 4 year.toNat
  else (if year < 0 then CodeUnit.ofChar '-' else CodeUnit.ofChar '+') :: padded 6 year.natAbs

/-- The text of a time of day in milliseconds. -/
def timeText (millis : Nat) : Text :=
  padded 2 (millis / 3600000) ++ ":" ++ padded 2 (millis / 60000 % 60) ++ ":" ++
    padded 2 (millis / 1000 % 60) ++ "." ++ padded 3 (millis % 1000)

/-- The text of an instant. -/
def render (t : Instant) : Text :=
  let date := dateOfDay (t.fdiv dayLength)
  yearText date.year ++ "-" ++ padded 2 date.month ++ "-" ++ padded 2 date.day ++ "T" ++
    timeText (t.fmod dayLength).toNat ++ "Z"

end Instant

end PolicyWarden
