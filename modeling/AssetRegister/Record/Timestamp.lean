import AssetRegister.Record.Calendar
import AssetRegister.Text.Blank
import AssetRegister.Text.Integer

/-!
# Timestamps

A timestamp is a date of the Gregorian calendar and a time of day whose second may be a leap second.
`Timestamp.read` reads the stored form `YYYY-MM-DD HH:MM:SS` tolerantly: white space may precede
each number, and leading zeros may be missing. `Timestamp.chars` writes the form with a `T`.
-/

namespace AssetRegister

/-- A date and a time of day, as written. -/
structure Timestamp where
  year : Int
  month : Nat
  day : Nat
  hour : Nat
  minute : Nat
  second : Nat
  deriving DecidableEq, Repr

inductive TimestampFault where
  | invalid
  | tooShort
  | trailing
  | outOfRange
  deriving DecidableEq, Repr

def TimestampFault.message : TimestampFault → String
  | invalid => "input contains invalid characters"
  | tooShort => "premature end of input"
  | trailing => "trailing input"
  | outOfRange => "input is out of range"

namespace Timestamp

/-! ## Dates that exist -/

def firstYear : Int := -262143

def lastYear : Int := 262142

/-- Whether the parts are a date of the calendar, in the years that timestamps reach, and a time. -/
def isValid (t : Timestamp) : Bool :=
  firstYear ≤ t.year && t.year ≤ lastYear
    && 1 ≤ t.month && t.month ≤ 12 && 1 ≤ t.day && t.day ≤ Calendar.daysInMonth t.year t.month
    && t.hour < 24 && t.minute < 60 && t.second ≤ 60

/-! ## Reading -/

/-- A reader takes a part from the start of a text and gives what follows. -/
abbrev Reader (α : Type) := List Char → Except TimestampFault (α × List Char)

/-- Reads one or more digits, at most `most` of them if that is given. -/
def readNumber (most : Option Nat) : Reader Nat
  | [] => .error .tooShort
  | c :: s =>
    if !c.isDigit then .error .invalid
    else
      let run := (c :: s).takeWhile Char.isDigit
      let ds := match most with
        | some k => run.take k
        | none => run
      let n := Text.digitsFrom 0 ds
      if Width.bits64.greatest < n then .error .outOfRange
      else .ok (n, (c :: s).drop ds.length)

/-- Reads an integer: four digits at most, or any number of them after a sign. -/
def readSigned : Reader Int
  | '-' :: s => (readNumber none s).map fun r => (-(r.1 : Int), r.2)
  | '+' :: s => (readNumber none s).map fun r => ((r.1 : Int), r.2)
  | s => (readNumber (some 4) s).map fun r => ((r.1 : Int), r.2)

/-- Reads a year, which has to fit into 32 bits. -/
def readYear : Reader Int := fun s => do
  let (n, s) ← readSigned (s.dropWhile Text.isBlank)
  if Width.bits32.least ≤ n ∧ n ≤ Width.bits32.greatest then .ok (n, s) else .error .outOfRange

/-- Reads a number of one or two digits between two bounds. -/
def readField (least greatest : Nat) : Reader Nat := fun s => do
  let (n, s) ← readNumber (some 2) (s.dropWhile Text.isBlank)
  if least ≤ n ∧ n ≤ greatest then .ok (n, s) else .error .outOfRange

def readMark (m : Char) : Reader Unit
  | [] => .error .tooShort
  | c :: s => if c = m then .ok ((), s) else .error .invalid

/-- Reads the parts of a timestamp in order, and nothing after them. -/
def readParts (s : List Char) : Except TimestampFault Timestamp := do
  let (year, s) ← readYear s
  let (_, s) ← readMark '-' s
  let (month, s) ← readField 1 12 s
  let (_, s) ← readMark '-' s
  let (day, s) ← readField 1 31 s
  -- only white space may stand between date and time, and none has to
  let (hour, s) ← readField 0 23 s
  let (_, s) ← readMark ':' s
  let (minute, s) ← readField 0 59 s
  let (_, s) ← readMark ':' s
  let (second, s) ← readField 0 60 s
  if s.isEmpty then .ok ⟨year, month, day, hour, minute, second⟩ else .error .trailing

/-- Reads a stored timestamp. Whether its date exists is asked last. -/
def read (s : String) : Except TimestampFault Timestamp :=
  (readParts s.toList).bind fun t => if t.isValid then .ok t else .error .outOfRange

/-! ## Writing -/

/-- A year in four digits, or with a sign and at least four digits outside 0 to 9999. -/
def yearChars (year : Int) : List Char :=
  if 0 ≤ year ∧ year ≤ 9999 then Text.padded 4 year.natAbs
  else (if year < 0 then '-' else '+') :: Text.padded 4 year.natAbs

/-- The timestamp with `separator` between its date and its time. -/
def charsWith (separator : Char) (t : Timestamp) : List Char :=
  yearChars t.year ++ '-' :: Text.padded 2 t.month ++ '-' :: Text.padded 2 t.day
    ++ separator :: Text.padded 2 t.hour ++ ':' :: Text.padded 2 t.minute
    ++ ':' :: Text.padded 2 t.second

/-- The timestamp as records show it. -/
def text (t : Timestamp) : String := String.ofList (t.charsWith 'T')

end Timestamp

end AssetRegister
