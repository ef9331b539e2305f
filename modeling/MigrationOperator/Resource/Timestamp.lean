/-
Moments in time, to the second, as objects carry them.

A moment is a count of seconds since the start of 1970 in UTC, between the first and the last second of the calendar. It
is read with any offset and written in UTC; fractions of a second are dropped.
-/
import MigrationOperator.Codec.Basic
import MigrationOperator.Time.Text

namespace MigrationOperator

/-- seconds since the start of 1970, UTC -/
structure Timestamp where
  seconds : Int
deriving DecidableEq

namespace Timestamp

/-- the first moment -/
def first : Timestamp := ⟨Calendar.firstSecond⟩

/-- the last moment -/
def last : Timestamp := ⟨Calendar.lastSecond⟩

/-- nanoseconds in a second -/
def billion : Int := 1000000000

def ofString (s : String) : Except TimeText.Fault Timestamp := do
  let m ← TimeText.moment s.toList
  if first.seconds * billion ≤ m.nanoseconds ∧ m.nanoseconds < (last.seconds + 1) * billion then
    return ⟨m.nanoseconds / billion⟩
  else throw (.unrepresentable m.offset)

/-- the moment in UTC -/
def text (t : Timestamp) : String :=
  let (year, month, day) := Calendar.dateOfDays (t.seconds / 86400)
  let clock := t.seconds % 86400
  let two := Calendar.padded 2
  Calendar.padded 4 year ++ "-" ++ two month ++ "-" ++ two day ++ "T" ++ two (clock / 3600) ++ ":" ++
    two (clock / 60 % 60) ++ ":" ++ two (clock % 60) ++ "Z"

def codec : Codec Timestamp where
  schema := .any
  read
    | .str s => (ofString s).mapError .timestamp
    | d => .error (.mismatch d "a timestamp string")
  write t := .str t.text

end Timestamp

end MigrationOperator
