import AssetRegister.Record.Document
import AssetRegister.Settings.Quoted

/-!
# Reading documents

What a text says as a document, by the grammar of JSON: white space may stand between the parts, any
character of a text may be escaped, characters beyond sixteen bits by a pair of surrogates, and a number
is an integer or has a fraction or an exponent. `Document.read?` takes the whole text or gives nothing.
-/

namespace AssetRegister

namespace DocumentReader

/-- White space between the parts of a document. -/
def isGap (c : Char) : Bool := c == ' ' || c == '\t' || c == '\n' || c == '\r'

/-- Reads something that white space may precede. -/
def spaced {α : Type} (m : Scan α) : Scan α := do
  let _ ← Scan.takeWhile isGap
  m

/-- Reads a mark that white space may precede. -/
def mark (c : Char) : Scan Unit := spaced (Scan.exactly [c])

/-- Reads the number in four hexadecimal digits. -/
def unit : Scan Nat := do
  return Scan.hexNumber (← Scan.count (fun c => (Scan.hexValue? c).isSome) 4)

/-- Reads a character by its number in one unit, or by its two surrogates in a unit each. -/
def numbered : Scan Char := do
  let high ← unit
  if 0xD800 ≤ high ∧ high < 0xDC00 then
    Scan.exactly ['\\', 'u']
    let low ← unit
    guard (0xDC00 ≤ low ∧ low < 0xE000)
    return Char.ofNat (0x10000 + 0x400 * (high - 0xD800) + (low - 0xDC00))
  else
    guard (decide high.isValidChar)
    return Char.ofNat high

/-- Reads what follows the backslash of an escape. -/
def escape : Scan Char := do
  match ← Scan.one fun _ => true with
  | '"' => return '"'
  | '\\' => return '\\'
  | '/' => return '/'
  | 'b' => return '\x08'
  | 't' => return '\t'
  | 'n' => return '\n'
  | 'f' => return '\x0c'
  | 'r' => return '\r'
  | 'u' => numbered
  | _ => failure

/-- Whether a character stands for itself between quotes. -/
def isPlain (c : Char) : Bool := 32 ≤ c.toNat && c != '"' && c != '\\'

/-- Reads a character of a text. -/
def character : Scan Char :=
  Scan.one isPlain <|> do Scan.exactly ['\\']; escape

/-- Reads a text in quotes. -/
def text : Scan String := do
  Scan.exactly ['"']
  let cs ← Scan.many character
  Scan.exactly ['"']
  return String.ofList cs

/-- Reads the digits before a point: a zero alone, or digits after a first one that is not. -/
def whole : Scan (List Char) := do
  match ← Scan.ahead with
  | some '0' => return [← Scan.one Char.isDigit]
  | _ => Scan.takeSome Char.isDigit

/-- Reads a point and the digits after it. -/
def fraction : Scan (List Char) := do
  Scan.exactly ['.']
  return '.' :: (← Scan.takeSome Char.isDigit)

/-- Reads an exponent. -/
def exponent : Scan (List Char) := do
  let e ← Scan.one fun c => c == 'e' || c == 'E'
  let sign ← Scan.optional (Scan.one fun c => c == '+' || c == '-')
  return e :: sign.toList ++ (← Scan.takeSome Char.isDigit)

/-- Reads a number. -/
def number : Scan Document := do
  let sign ← Scan.optional (Scan.one (· == '-'))
  let ds ← whole
  match ← Scan.optional fraction, ← Scan.optional exponent with
  | none, none => return .integer (Text.signedValue sign.isSome ds)
  | f, e =>
    match Decimal.read? (sign.toList ++ ds ++ f.getD [] ++ e.getD []) with
    | some x => return .real x.toBinary64
    | none => failure

/-- Reads things between two marks, with commas between them. -/
def enclosed {α : Type} (opening closing : Char) (m : Scan α) : Scan (List α) := do
  Scan.exactly [opening]
  let as ← Scan.separated (mark ',') m
  mark closing
  return as

/-- Reads a member of an object: its name and its value. -/
def member (value : Scan Document) : Scan (String × Document) := do
  let name ← spaced text
  mark ':'
  let d ← spaced value
  return (name, d)

/-- Reads a document in which values are nested at most `depth` deep. -/
def value : Nat → Scan Document
  | 0 => failure
  | depth + 1 => do
    match ← Scan.ahead with
    | some '[' => return .list (← enclosed '[' ']' (spaced (value depth)))
    | some '\x7b' => return .object (← enclosed '\x7b' '\x7d' (member (value depth)))
    | some '"' => return .text (← text)
    | some 'n' => do Scan.exactly ['n', 'u', 'l', 'l']; return .null
    | some 't' => do Scan.exactly ['t', 'r', 'u', 'e']; return .flag true
    | some 'f' => do Scan.exactly ['f', 'a', 'l', 's', 'e']; return .flag false
    | _ => number

end DocumentReader

/-- The document that a text is. No text is nested deeper than it is long. -/
def Document.read? (s : String) : Option Document :=
  Scan.whole? (do
    let d ← DocumentReader.spaced (DocumentReader.value s.length)
    let _ ← Scan.takeWhile DocumentReader.isGap
    return d) s.toList

end AssetRegister
