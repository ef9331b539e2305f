/-
Why a text is no moment.

Each cause is a constructor; `Fault.message` is the one place that words them. A part of a moment that is a number can be
missing, can hold something that is no digit, or can be out of its bounds, and each part names itself in the message.
-/
import MigrationOperator.Text.Quoted
import MigrationOperator.Time.Calendar

namespace MigrationOperator.TimeText

/-! ## Parts that are numbers -/

inductive Part where
  | year
  /-- a year behind a sign -/
  | signedYear
  | month
  | day
  | hour
  | minute
  | second
  | offsetHours
  | offsetMinutes
  | offsetSeconds
deriving DecidableEq

namespace Part

/-- the number of digits -/
def width : Part → Nat
  | .year => 4
  | .signedYear => 6
  | _ => 2

/-- the least and the greatest number, with a sign where the part stands behind one -/
def bounds : Part → Int × Int
  | .year | .signedYear => (-9999, 9999)
  | .month => (1, 12)
  | .day => (1, 31)
  | .hour => (0, 23)
  | .minute => (0, 59)
  | .second => (0, 60)
  | .offsetHours => (-25, 25)
  | .offsetMinutes | .offsetSeconds => (-59, 59)

/-- the part as a message names it -/
def name : Part → String
  | .year | .signedYear => "year"
  | .month => "month"
  | .day => "day"
  | .hour => "hour"
  | .minute => "minute"
  | .second => "second"
  | .offsetHours => "time zone offset hours"
  | .offsetMinutes => "time zone offset minutes"
  | .offsetSeconds => "time zone offset seconds"

/-- what was being read, in front of a cause -/
def context : Part → String
  | .offsetHours => "failed to parse hours in UTC numeric offset: "
  | .offsetMinutes => "failed to parse minutes in UTC numeric offset: "
  | .offsetSeconds => "failed to parse seconds in UTC numeric offset: "
  | _ => ""

/-- the part as one that is wanted -/
def wanted : Part → String
  | .year => "four digit year (or leading sign for six digit year)"
  | .signedYear => "six digit year (because of a leading sign)"
  | .offsetHours => "two digit hour after sign"
  | .offsetMinutes => "two digit minute after hours"
  | .offsetSeconds => "two digit second after minutes"
  | p => "two digit " ++ p.name

/-- the reading of the part as one that failed -/
def failed : Part → String
  | .year => "failed to parse four digit integer as year: "
  | .signedYear => "failed to parse six digit integer as year: "
  | .offsetHours => "failed to parse hours (requires a two digit integer): "
  | .offsetMinutes => "failed to parse minutes (requires a two digit integer): "
  | .offsetSeconds => "failed to parse seconds (requires a two digit integer): "
  | p => "failed to parse two digit integer as " ++ p.name ++ ": "

end Part

/-- a number that is not between its bounds -/
def outside (name : String) (bounds : Int × Int) : String :=
  "parameter '" ++ name ++ "' is not in the required range of " ++ toString bounds.1 ++ "..=" ++ toString bounds.2

/-! ## Notes -/

/-- a place in a note where something was wanted -/
inductive NotePlace where
  /-- the first character of a word of the name of a zone -/
  | zoneWord
  /-- the bracket that closes a zone -/
  | zoneEnd
  /-- the first character of a key -/
  | key
  /-- the mark between a key and its values -/
  | equals
  /-- the first character of a value -/
  | value
  /-- the bracket that closes a key with values -/
  | settingEnd
deriving DecidableEq

namespace NotePlace

/-- what is wanted where the text ends -/
def atEnd : NotePlace → String
  | .zoneWord => "the start of an RFC 9557 annotation or IANA time zone component name"
  | .zoneEnd => "an `]` after parsing an RFC 9557 time zone annotation"
  | .key => "the start of an RFC 9557 annotation key"
  | .equals => "an `=` after parsing an RFC 9557 annotation key"
  | .value => "the start of an RFC 9557 annotation value"
  | .settingEnd => "an `]` after parsing an RFC 9557 annotation key and value"

/-- what is wanted where something else stands -/
def instead : NotePlace → String
  | .zoneWord =>
    "ASCII alphabetic byte (or underscore or period) at the start of an RFC 9557 annotation or time zone component name"
  | .key => "lowercase alphabetic byte (or underscore) at the start of an RFC 9557 annotation key"
  | .value => "alphanumeric ASCII byte at the start of an RFC 9557 annotation value"
  | p => p.atEnd

end NotePlace

/-! ## Offsets -/

/-- an offset in seconds, as short as it can be told -/
def offsetText (seconds : Int) : String :=
  let two (n : Nat) : String := Calendar.padded 2 n
  let n := seconds.natAbs
  (if seconds < 0 then "-" else "+") ++ two (n / 3600) ++
    (if n % 3600 = 0 then "" else ":" ++ two (n / 60 % 60)) ++ (if n % 60 = 0 then "" else ":" ++ two (n % 60))

/-! ## Faults -/

inductive Fault where
  /-- too few characters are left for a part -/
  | missing (p : Part)
  | notDigit (p : Part) (found : UInt8)
  | outOfBounds (p : Part)
  | negativeYearZero
  /-- no mark before the day, though there was one before the month -/
  | noMark (found : Option UInt8)
  /-- a mark before the day, though there was none before the month -/
  | strayMark
  | noSuchDay (year month : Int)
  /-- a point without digits behind it, in a time of day or in an offset -/
  | emptyFraction (inOffset : Bool)
  /-- the offset of a zone has seconds -/
  | zoneSeconds
  | note (place : NotePlace) (found : Option UInt8)
  /-- a note insists on a meaning that is not known -/
  | critical
  /-- the text goes on behind what was read -/
  | surplus (read rest : List Char)
  | noTime
  | noOffset
  /-- an offset is too great once its fraction is rounded -/
  | roundedOffset
  /-- the moment is before the first or after the last -/
  | unrepresentable (offset : Int)
deriving DecidableEq

def Fault.message : Fault → String
  | .missing p => p.context ++ "expected " ++ p.wanted ++ ", but found end of input"
  | .notDigit p found => p.context ++ p.failed ++ "invalid digit, expected 0-9 but got " ++ Quotation.byte found
  | .outOfBounds p => p.context ++ p.failed ++ outside p.name p.bounds
  | .negativeYearZero => "year zero must be written without a sign or a positive sign, but not a negative sign"
  | .noMark found =>
    "failed to parse separator after month: expected `-` separator, but found " ++
      (match found with
      | none => "end of input"
      | some b => "`" ++ Quotation.byte b ++ "`")
  | .strayMark =>
    "failed to parse separator after month: expected no separator since none was found after the year, " ++
      "but found a `-` separator"
  | .noSuchDay year month =>
    "parsed date is not valid: parameter 'day' for `" ++ Calendar.padded 4 year ++ "-" ++ Calendar.padded 2 month ++
      "` is invalid, must be in range `1..=" ++ toString (Calendar.daysInMonth year month) ++ "`"
  | .emptyFraction inOffset =>
    "failed to parse fractional seconds in " ++ (if inOffset then "UTC numeric offset" else "time") ++
      ": found decimal after seconds component, but did not find any digits after decimal"
  | .zoneSeconds =>
    "subminute precision for UTC numeric offset is not enabled in this context (must provide only integral minutes)"
  | .note place none => "expected " ++ place.atEnd ++ ", but found end of input instead"
  | .note place (some b) =>
    "expected " ++ place.instead ++ ", but found `" ++ Quotation.byte b ++ "` instead" ++
      (if place = .equals ∧ b = 0x2f then " (time zone annotations must come first)" else "")
  | .critical => "found unsupported RFC 9557 annotation with the critical flag (`!`) set"
  | .surplus read rest =>
    "parsed value '" ++ String.ofList read ++ "', but unparsed input " ++ Quotation.quoteRest rest ++
      " remains (expected no unparsed input)"
  | .noTime => "failed to find time component, which is required for parsing a timestamp"
  | .noOffset => "failed to find offset component, which is required for parsing a timestamp"
  | .roundedOffset =>
    "due to precision loss from fractional seconds, time zone offset is rounded to a value that is out of bounds"
  | .unrepresentable offset =>
    "failed to convert civil datetime to timestamp with offset " ++ offsetText offset ++
      ": converting datetime with time zone offset `" ++ offsetText offset ++ "` to timestamp overflowed: " ++
      outside "Unix timestamp seconds" (Calendar.firstSecond, Calendar.lastSecond)

end MigrationOperator.TimeText
