import ScriptAgent.Text.Find
import ScriptAgent.Trace

/-!
# Times of the clock

Milliseconds since the start of 1970, written as a time of the day or as a date with its time, both
at the meridian of reference.
-/

namespace ScriptAgent.Cli.Clock

/-- A number with at least this many digits. -/
def digits (width n : Nat) : String :=
  Text.padLeft width '0' (toString n)

/-- Hours, minutes and seconds of the day. -/
def hoursMinutesSeconds (t : Millis) : String :=
  let seconds := t / 1000 % 86400
  digits 2 (seconds / 3600) ++ ":" ++ digits 2 (seconds / 60 % 60) ++ ":" ++ digits 2 (seconds % 60)

/-- The time of the day. -/
def timeOfDay (t : Millis) : String :=
  hoursMinutesSeconds t ++ "." ++ digits 3 (t % 1000)

/-- The date of a day since the start of 1970.  Years are counted from March, in eras of 400 years. -/
def dateOfDay (day : Nat) : String :=
  let shifted := day + 719468
  let dayOfEra := shifted % 146097
  let yearOfEra := (dayOfEra - dayOfEra / 1460 + dayOfEra / 36524 - dayOfEra / 146096) / 365
  let dayOfYear := dayOfEra - (365 * yearOfEra + yearOfEra / 4 - yearOfEra / 100)
  let marchMonth := (5 * dayOfYear + 2) / 153
  let month := if marchMonth < 10 then marchMonth + 3 else marchMonth - 9
  let year := yearOfEra + shifted / 146097 * 400 + if month ≤ 2 then 1 else 0
  digits 4 year ++ "-" ++ digits 2 month ++ "-" ++ digits 2 (dayOfYear - (153 * marchMonth + 2) / 5 + 1)

/-- The date with its time. -/
def dateTime (t : Millis) : String :=
  let fraction := if t % 1000 == 0 then "" else "." ++ digits 3 (t % 1000)
  dateOfDay (t / 86400000) ++ "T" ++ hoursMinutesSeconds t ++ fraction ++ "+00:00"

example : dateTime 1709210096007 = "2024-02-29T12:34:56.007+00:00" := by decide +kernel

example : timeOfDay 0 = "00:00:00.000" := by decide +kernel

end ScriptAgent.Cli.Clock
