import AssetRegister.Number.Decimal
import AssetRegister.Settings.Quoted
import AssetRegister.Settings.Setting

/-!
# Numbers of settings files

Integers of 64 bits in four bases and real numbers. Digits may have single underscores between them,
and a decimal integer or whole part has no leading zeros.
-/

namespace AssetRegister.SettingsFile

/-- Reads digits with single underscores between them, and leaves the underscores out. -/
def grouped (isDigit : Char → Bool) : Scan (List Char) := do
  let c ← Scan.one isDigit
  let cs ← Scan.many (Scan.one isDigit <|> do Scan.exactly ['_']; Scan.one isDigit)
  return c :: cs

def sign : Scan (List Char) :=
  (do return [← Scan.one fun c => c == '+' || c == '-']) <|> return []

/-- Reads the digits of a decimal integer: a zero alone, or digits after a first one that is not. -/
def wholePart : Scan (List Char) := do
  match ← Scan.ahead with
  | some '0' => return [← Scan.one Char.isDigit]
  | _ => grouped Char.isDigit

/-! ## Integers -/

/-- The integer of the settings that `n` is, if it is within 64 bits. -/
def bounded (n : Int) : Scan Setting := do
  guard (Width.bits64.least ≤ n ∧ n ≤ Width.bits64.greatest)
  return .integer n

def decimalInteger : Scan Setting := do
  let s ← sign
  let ds ← wholePart
  bounded (Text.signedValue (s == ['-']) ds)

def isDigitOf (base : Nat) (c : Char) : Bool :=
  (Scan.hexValue? c).any (· < base)

/-- Reads an integer written in a base after the mark of the base. -/
def basedInteger (mark : Char) (base : Nat) : Scan Setting := do
  Scan.exactly ['0', mark]
  let ds ← grouped (isDigitOf base)
  bounded (ds.foldl (fun n d => base * n + (Scan.hexValue? d).getD 0) 0 : Nat)

def integer : Scan Setting :=
  basedInteger 'x' 16 <|> basedInteger 'o' 8 <|> basedInteger 'b' 2 <|> decimalInteger

/-! ## Real numbers -/

def fraction : Scan (List Char) := do
  Scan.exactly ['.']
  return '.' :: (← grouped Char.isDigit)

def exponent : Scan (List Char) := do
  let e ← Scan.one fun c => c == 'e' || c == 'E'
  let s ← sign
  return e :: s ++ (← grouped Char.isDigit)

/-- Reads what makes a number a real one: a fraction, an exponent or both. -/
def realPart : Scan (List Char) :=
  exponent <|> do
    let f ← fraction
    let e ← exponent <|> return []
    return f ++ e

/-- Reads a real number in digits. One beyond the greatest double is a fault; one below the least is
not. -/
def realDigits : Scan Setting := do
  let s ← sign
  let whole ← wholePart
  let part ← realPart
  let x := (Decimal.read? (s ++ whole ++ part)).map Decimal.toBinary64
  -- only an overflow of positive numbers is looked for
  guard (x ≠ some (.infinite false))
  return .real

def realWord : Scan Setting := do
  let _ ← sign
  Scan.exactly ['i', 'n', 'f'] <|> Scan.exactly ['n', 'a', 'n']
  return .real

def real : Scan Setting := realDigits <|> realWord

end AssetRegister.SettingsFile
