import AssetRegister.Settings.Quoted

/-!
# Texts and keys of settings files

A text is quoted or literal, on one line or over several. A text of several lines is closed by three
quotes; one or two quotes stand for themselves, also right before the closing ones.
-/

namespace AssetRegister.SettingsFile

/-- White space within a line. -/
def isIndent (c : Char) : Bool := c == ' ' || c == '\t'

def indent : Scan Unit := do
  let _ ← Scan.takeWhile isIndent

def lineBreak : Scan Unit :=
  Scan.exactly ['\n'] <|> Scan.exactly ['\r', '\n']

def comment : Scan Unit := do
  Scan.exactly ['#']
  let _ ← Scan.takeWhile Scan.isPrinted

/-- Reads white space, line breaks and comments. -/
def gap : Scan Unit := do
  let _ ← Scan.many ((do let _ ← Scan.takeSome isIndent) <|> lineBreak <|> comment)

/-! ## Texts -/

def isLiteral (c : Char) : Bool :=
  Scan.isPrinted c && c != '\''

/-- Reads a text in single quotes, which has no escapes. -/
def literal : Scan String := do
  Scan.exactly ['\'']
  let cs ← Scan.takeWhile isLiteral
  Scan.exactly ['\'']
  return String.ofList cs

def breakPiece : Scan (List Char) := do
  lineBreak
  return ['\n']

/-- Reads what a backslash at the end of a line leaves out: the line break and all white space
after it. -/
def continuation : Scan Unit := do
  indent
  lineBreak
  let _ ← Scan.many ((do let _ ← Scan.takeSome isIndent) <|> lineBreak)

def quotedPiece : Scan (List Char) :=
  (do return [← Scan.one Scan.isPlain]) <|> breakPiece <|> do
    Scan.exactly ['\\']
    (do continuation; return []) <|> (do return [← Scan.escape])

def literalPiece : Scan (List Char) :=
  (do return [← Scan.one isLiteral]) <|> breakPiece

/-- Reads one or two quotes that close nothing. -/
def innerQuotes (quote : Char) : Scan (List Char) := fun s =>
  let quotes := s.takeWhile (· == quote)
  if 1 ≤ quotes.length ∧ quotes.length ≤ 2 then some (quotes, s.drop quotes.length) else none

/-- Reads the three closing quotes with up to two quotes before them. -/
def closingQuotes (quote : Char) : Scan (List Char) := fun s =>
  let quotes := s.takeWhile (· == quote)
  if 3 ≤ quotes.length ∧ quotes.length ≤ 5 then some (quotes.drop 3, s.drop quotes.length)
  else none

/-- Reads a text of several lines. A line break right after the opening quotes is left out. -/
def block (quote : Char) (piece : Scan (List Char)) : Scan String := do
  Scan.exactly [quote, quote, quote]
  let _ ← Scan.optional lineBreak
  let pieces ← Scan.many (piece <|> innerQuotes quote)
  return String.ofList (pieces.flatten ++ (← closingQuotes quote))

def text : Scan String :=
  block '"' quotedPiece <|> Scan.quoted <|> block '\'' literalPiece <|> literal

/-! ## Keys -/

def keyPart : Scan String := do
  match ← Scan.ahead with
  | some '"' => Scan.quoted
  | some '\'' => literal
  | _ => return String.ofList (← Scan.takeSome Scan.isNamePart)

/-- The bound on nesting: a key has fewer names than this, and as many lists and tables can
stand within one another. -/
def nestingBound : Nat := 80

def key : Scan (List String) := do
  let names ← Scan.separatedSome (Scan.exactly ['.']) do
    indent
    let name ← keyPart
    indent
    return name
  guard (names.length < nestingBound)
  return names

end AssetRegister.SettingsFile
