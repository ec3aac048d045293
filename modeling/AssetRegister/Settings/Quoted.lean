import AssetRegister.Settings.Scan

/-!
# Quoted texts

A text in double quotes, in which a backslash starts an escape. Control characters other than the
tab are not part of any quoted text.
-/

namespace AssetRegister.Scan

def hexValue? (c : Char) : Option Nat :=
  if c.isDigit then some (c.toNat - '0'.toNat)
  else if 'a' ≤ c ∧ c ≤ 'f' then some (c.toNat - 'a'.toNat + 10)
  else if 'A' ≤ c ∧ c ≤ 'F' then some (c.toNat - 'A'.toNat + 10)
  else none

def hexNumber (ds : List Char) : Nat :=
  ds.foldl (fun n d => 16 * n + (hexValue? d).getD 0) 0

/-- Reads a character by its number in `n` hexadecimal digits. -/
def characterByNumber (n : Nat) : Scan Char := do
  let number := hexNumber (← count (fun c => (hexValue? c).isSome) n)
  guard (decide number.isValidChar)
  return Char.ofNat number

/-- Reads what follows the backslash of an escape. -/
def escape : Scan Char := do
  match ← one fun _ => true with
  | '"' => return '"'
  | '\\' => return '\\'
  | 'b' => return '\x08'
  | 't' => return '\t'
  | 'n' => return '\n'
  | 'f' => return '\x0c'
  | 'r' => return '\r'
  | 'u' => characterByNumber 4
  | 'U' => characterByNumber 8
  | _ => failure

/-- Whether a character may stand in a line of text: no control character but the tab. -/
def isPrinted (c : Char) : Bool :=
  c == '\t' || (32 ≤ c.toNat && c.toNat != 127)

/-- Whether a character stands for itself between double quotes. -/
def isPlain (c : Char) : Bool :=
  isPrinted c && c != '"' && c != '\\'

def quoted : Scan String := do
  exactly ['"']
  let cs ← many (one isPlain <|> do exactly ['\\']; escape)
  exactly ['"']
  return String.ofList cs

/-- Whether a character may stand in a name without quotes. -/
def isNamePart (c : Char) : Bool :=
  ('a' ≤ c && c ≤ 'z') || ('A' ≤ c && c ≤ 'Z') || c.isDigit || c == '_' || c == '-'

end AssetRegister.Scan
