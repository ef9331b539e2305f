/-
Moments as texts write them: a date, a time of day, an offset from UTC, and notes in brackets.

Each reader takes characters from the front and gives what it read and what follows. Date, time and offset may be written
with marks between their parts or without; the first place where a mark can stand decides for the rest. Minutes and
seconds may be left out, a fraction has at most nine digits, and a year beyond four digits has a sign and six of them. A
note names a time zone or sets a key. It is read and passed over, unless it insists on a meaning that is not known.

A text is read as far as it goes; only then does it count that something follows, or that the time or the offset is missing.
-/
import MigrationOperator.Time.Fault

namespace MigrationOperator.TimeText

abbrev Reader (α : Type) := List Char → Except Fault (α × List Char)

/-- the first byte of a character in UTF-8 -/
def firstByte (c : Char) : UInt8 := ((String.utf8EncodeChar c).head?).getD 0

/-! ## Numbers -/

def valueOf (digits : List Char) : Nat := digits.foldl (fun n c => n * 10 + (c.toNat - 48)) 0

/-- the number of bytes that characters take in UTF-8 -/
def byteCount (cs : List Char) : Nat := cs.foldl (fun n c => n + c.utf8Size) 0

/-- a part that is a number; it is missing when fewer bytes are left than it has digits -/
def number (p : Part) : Reader Nat := fun cs =>
  if byteCount cs < p.width then .error (.missing p)
  else
    match (cs.take p.width).find? (!·.isDigit) with
    | some c => .error (.notDigit p (firstByte c))
    | none =>
      let n := valueOf (cs.take p.width)
      if p.bounds.1 ≤ n ∧ n ≤ p.bounds.2 then .ok (n, cs.drop p.width) else .error (.outOfBounds p)

/-- a fraction after a point or a comma, in billionths; zero when there is no mark -/
def fraction (inOffset : Bool) : Reader Nat
  | [] => .ok (0, [])
  | c :: cs =>
    if c = '.' ∨ c = ',' then
      let ds := (cs.take 9).takeWhile Char.isDigit
      if ds.isEmpty then .error (.emptyFraction inOffset)
      else .ok (valueOf ds * Nat.pow 10 (9 - ds.length), cs.drop ds.length)
    else .ok (0, c :: cs)

/-- another part of two digits follows: behind its mark where parts are marked, by itself where they are not -/
def another? (marked : Bool) (cs : List Char) : Option (List Char) :=
  if marked then (if cs.head? = some ':' then some (cs.drop 1) else none)
  else if 2 ≤ cs.length ∧ (cs.take 2).all Char.isDigit then some cs
  else none

/-! ## Dates -/

/-- a year of four digits, or a sign and six; zero has no minus sign -/
def year : Reader Int
  | '+' :: cs => do
    let (n, cs) ← number .signedYear cs
    return (n, cs)
  | '-' :: cs => do
    let (n, cs) ← number .signedYear cs
    if n = 0 then throw .negativeYearZero
    return (-n, cs)
  | cs => do
    let (n, cs) ← number .year cs
    return (n, cs)

/-- the mark before the day, if there was one before the month -/
def dayMark (marked : Bool) (cs : List Char) : Except Fault (List Char) :=
  match marked, cs with
  | true, '-' :: cs => .ok cs
  | true, cs => .error (.noMark (cs.head?.map firstByte))
  | false, '-' :: _ => .error .strayMark
  | false, cs => .ok cs

/-- a date as days from the start of 1970 -/
def date : Reader Int := fun cs => do
  let (year, cs) ← year cs
  let marked := cs.head? = some '-'
  let (month, cs) ← number .month (if marked then cs.drop 1 else cs)
  let cs ← dayMark marked cs
  let (day, cs) ← number .day cs
  if day ≤ Calendar.daysInMonth year month then return (Calendar.daysOfDate year month day, cs)
  else throw (.noSuchDay year month)

/-! ## Times of day -/

/-- seconds and billionths of a second -/
structure Clock where
  seconds : Nat
  nanoseconds : Nat := 0

/-- a time of day; a leap second counts as the second before it -/
def clock : Reader Clock := fun cs => do
  let (hour, cs) ← number .hour cs
  let marked := cs.head? = some ':'
  match another? marked cs with
  | none => return ({ seconds := hour * 3600 }, cs)
  | some cs =>
    let (minute, cs) ← number .minute cs
    match another? marked cs with
    | none => return ({ seconds := hour * 3600 + minute * 60 }, cs)
    | some cs =>
      let (second, cs) ← number .second cs
      let (nanoseconds, cs) ← fraction false cs
      return (⟨hour * 3600 + minute * 60 + min second 59, nanoseconds⟩, cs)

/-! ## Offsets -/

/-- an offset from UTC as it is written -/
structure Offset where
  negative : Bool := false
  seconds : Nat
  nanoseconds : Nat := 0

/-- the greatest offset in seconds -/
def maxOffset : Nat := 25 * 3600 + 59 * 60 + 59

/-- an offset in whole seconds; half a second counts as a whole one -/
def Offset.rounded (o : Offset) : Except Fault Int :=
  let total := o.seconds + (if 500000000 ≤ o.nanoseconds then 1 else 0)
  if total ≤ maxOffset then .ok (if o.negative then -(total : Int) else total) else .error .roundedOffset

/-- hours of an offset, and minutes if they follow; with whether seconds may follow those, and behind a mark -/
def hoursAndMinutes : Reader (Nat × Option Bool) := fun cs => do
  let (hours, cs) ← number .offsetHours cs
  let marked := cs.head? = some ':'
  match another? marked cs with
  | none => return ((hours * 3600, none), cs)
  | some cs =>
    let (minutes, cs) ← number .offsetMinutes cs
    return ((hours * 3600 + minutes * 60, some marked), cs)

/-- an offset behind its sign -/
def unsigned (negative : Bool) : Reader Offset := fun cs => do
  let ((n, marked), cs) ← hoursAndMinutes cs
  match marked.bind fun marked => another? marked cs with
  | none => return ({ negative, seconds := n }, cs)
  | some cs =>
    let (seconds, cs) ← number .offsetSeconds cs
    let (nanoseconds, cs) ← fraction true cs
    return (⟨negative, n + seconds, nanoseconds⟩, cs)

/-- an offset, if the text goes on with one -/
def offset? : Reader (Option Offset)
  | 'Z' :: cs | 'z' :: cs => .ok (some { seconds := 0 }, cs)
  | '+' :: cs => (unsigned false cs).map fun (o, cs) => (some o, cs)
  | '-' :: cs => (unsigned true cs).map fun (o, cs) => (some o, cs)
  | cs => .ok (none, cs)

/-! ## Notes

These readers give what follows and nothing else. -/

/-- a character that a place asks for, and those of a kind behind it -/
def word (place : NotePlace) (first others : Char → Bool) : List Char → Except Fault (List Char)
  | [] => .error (.note place none)
  | c :: cs => if first c then .ok (cs.dropWhile others) else .error (.note place (some (firstByte c)))

/-- a single character -/
def mark (place : NotePlace) (c : Char) : List Char → Except Fault (List Char) := word place (· = c) fun _ => false

def isLowercaseLetter (c : Char) : Bool := 'a' ≤ c && c ≤ 'z'

/-- one word of the name of a time zone -/
def zoneWord : List Char → Except Fault (List Char) :=
  word .zoneWord (fun c => c.isAlpha || c = '_' || c = '.')
    fun c => c.isAlphanum || c = '_' || c = '.' || c = '+' || c = '-'

/-- at most so many further words, each behind a separator -/
def atMost (separator : Char) (one : List Char → Except Fault (List Char)) : Nat → List Char → Except Fault (List Char)
  | n + 1, c :: cs => if c = separator then do atMost separator one n (← one cs) else .ok (c :: cs)
  | _, cs => .ok cs

/-- further words, each behind a separator; a word takes a character, so there are no more than characters -/
def further (separator : Char) (one : List Char → Except Fault (List Char)) (cs : List Char) :
    Except Fault (List Char) :=
  atMost separator one cs.length cs

/-- what stands in brackets behind `[` and perhaps `!`; whether the latter stood there -/
def opened? : List Char → Option (Bool × List Char)
  | '[' :: '!' :: cs => some (true, cs)
  | '[' :: cs => some (false, cs)
  | _ => none

/-- a time zone up to its bracket: its offset to the minute or its name; none when it turns out to be a key -/
def zone? (cs : List Char) : Except Fault (Option (List Char)) := do
  match cs with
  | '+' :: cs | '-' :: cs =>
    let ((_, minutes), cs) ← hoursAndMinutes cs
    if minutes.isSome ∧ cs.head? = some ':' then throw .zoneSeconds
    some <$> mark .zoneEnd ']' cs
  | cs =>
    let rest ← zoneWord cs
    if rest.head? = some '=' then return none
    some <$> (further '/' zoneWord rest >>= mark .zoneEnd ']')

/-- a key and its values up to their bracket -/
def setting (cs : List Char) : Except Fault (List Char) := do
  let cs ← word .key (fun c => isLowercaseLetter c || c = '_')
    (fun c => isLowercaseLetter c || c.isDigit || c = '_' || c = '-') cs
  let cs ← mark .equals '=' cs
  let value := word .value Char.isAlphanum Char.isAlphanum
  let cs ← further '-' value (← value cs)
  mark .settingEnd ']' cs

/-- at most so many notes that set keys -/
def settings : Nat → List Char → Except Fault (List Char)
  | 0, cs => .ok cs
  | n + 1, cs =>
    match opened? cs with
    | none => .ok cs
    | some (critical, inner) => do
      let rest ← setting inner
      if critical then throw .critical
      settings n rest

/-- all notes; only the first may name a zone, and there are no more than characters -/
def notes (cs : List Char) : Except Fault (List Char) :=
  match opened? cs with
  | none => .ok cs
  | some (_, inner) => do
    let rest := (← zone? inner).getD cs
    settings rest.length rest

/-! ## Moments -/

/-- a moment as it is written -/
structure Moment where
  /-- days from the start of 1970 -/
  days : Int
  clock : Clock
  /-- seconds east of UTC -/
  offset : Int

/-- billionths of a second since the start of 1970 in UTC -/
def Moment.nanoseconds (m : Moment) : Int :=
  (m.days * 86400 + m.clock.seconds - m.offset) * 1000000000 + m.clock.nanoseconds

/-- a time of day and an offset, if the text goes on with them -/
def clockAndOffset? : Reader (Option (Clock × Option Offset))
  | 'T' :: cs | 't' :: cs | ' ' :: cs => do
    let (clock, cs) ← clock cs
    let (offset, cs) ← offset? cs
    return (some (clock, offset), cs)
  | cs => .ok (none, cs)

/-- a whole text -/
def moment (cs : List Char) : Except Fault Moment := do
  let (days, rest) ← date cs
  let (time, rest) ← clockAndOffset? rest
  let rest ← notes rest
  if !rest.isEmpty then throw (.surplus (cs.take (cs.length - rest.length)) rest)
  match time with
  | none => throw .noTime
  | some (_, none) => throw .noOffset
  | some (clock, some offset) => return ⟨days, clock, ← offset.rounded⟩

end MigrationOperator.TimeText
