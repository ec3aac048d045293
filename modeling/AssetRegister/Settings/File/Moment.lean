import AssetRegister.Record.Calendar
import AssetRegister.Settings.Scan
import AssetRegister.Text.Integer

/-!
# Dates and times of settings files

A date, a time of day, or both with an offset if wished. No setting is a moment, so only the form is
checked, and that the date exists.
-/

namespace AssetRegister.SettingsFile

def digits (n : Nat) : Scan Nat := do
  return Text.digitsFrom 0 (← Scan.count Char.isDigit n)

def twoDigits (least greatest : Nat) : Scan Nat := do
  let n ← digits 2
  guard (least ≤ n ∧ n ≤ greatest)
  return n

def date : Scan Unit := do
  let year ← digits 4
  Scan.exactly ['-']
  let month ← twoDigits 1 12
  Scan.exactly ['-']
  let day ← twoDigits 1 31
  guard (day ≤ Calendar.daysInMonth year month)

def hourMinute : Scan Unit := do
  let _ ← twoDigits 0 23
  Scan.exactly [':']
  let _ ← twoDigits 0 59

/-- Reads a time of day. A minute can have a leap second. -/
def time : Scan Unit := do
  hourMinute
  Scan.exactly [':']
  let _ ← twoDigits 0 60
  let _ ← Scan.optional do
    Scan.exactly ['.']
    Scan.takeSome Char.isDigit

def offset : Scan Unit := do
  match ← Scan.one fun c => ['Z', 'z', '+', '-'].contains c with
  | 'Z' | 'z' => return ()
  | _ => hourMinute

/-- Reads a date, a time of day or both. Only both can have an offset. -/
def moment : Scan Unit :=
  time <|> do
    date
    let _ ← Scan.optional do
      let _ ← Scan.one fun c => ['T', 't', ' '].contains c
      time
      let _ ← Scan.optional offset

end AssetRegister.SettingsFile
