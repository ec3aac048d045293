import AssetRegister.Number.Decimal

/-!
# Documents

The values that results are written as: nested lists and objects over texts, numbers, flags and
nothing. `Document.write` writes one over several lines with an indentation of two spaces.
-/

namespace AssetRegister

/-- A structured value. An object keeps its members in order. -/
inductive Document where
  | null
  | flag (b : Bool)
  | integer (n : Int)
  | real (x : Binary64)
  | text (s : String)
  | list (items : List Document)
  | object (members : List (String × Document))
  deriving Repr, Inhabited

namespace Document

/-- The digits after the point, and the point if there are any. -/
def pointed (ds : List Char) : List Char := if ds.isEmpty then [] else '.' :: ds

/-- The digits `ds` with `10 ^ p` applied as a document has them: with a point, or with an exponent
outside `10 ^ -4` to `10 ^ 16`. -/
def realDigits (ds : List Char) (p : Int) : List Char :=
  let top := p + ds.length - 1
  if top < -4 ∨ 16 ≤ top then
    ds.take 1 ++ pointed (ds.drop 1) ++ Binary64.exponentChars top
  else if 0 ≤ p then Binary64.positional ds p ++ ['.', '0']
  else Binary64.positional ds p

/-- The text of a real: the fewest digits that read back. -/
def realText : Binary64 → String
  | .infinite s => (Binary64.infinite s).plainText
  | .finite s m e =>
    let (c, p) := if m = 0 then (0, 0) else Binary64.shortest m e
    let (ds, p) := if m = 0 then (['0'], 0) else Binary64.withoutTrailingZeros (Text.natText c) p
    String.ofList (Binary64.signChars s ++ realDigits ds p)

def hexDigit (n : Nat) : Char := Nat.digitChar n

/-- A character inside a quoted text. Quotes, backslashes and control characters are escaped. -/
def escaped (c : Char) : List Char :=
  if c = '"' then ['\\', '"']
  else if c = '\\' then ['\\', '\\']
  else if c.toNat = 8 then ['\\', 'b']
  else if c.toNat = 9 then ['\\', 't']
  else if c.toNat = 10 then ['\\', 'n']
  else if c.toNat = 12 then ['\\', 'f']
  else if c.toNat = 13 then ['\\', 'r']
  else if c.toNat < 32 then
    ['\\', 'u', '0', '0', hexDigit (c.toNat / 16), hexDigit (c.toNat % 16)]
  else [c]

def quoted (s : List Char) : List Char := '"' :: s.flatMap escaped ++ ['"']

def newLine (depth : Nat) : List Char := '\n' :: List.replicate (2 * depth) ' '

mutual

/-- A document at a depth of nesting. -/
def chars (depth : Nat) : Document → List Char
  | null => ['n', 'u', 'l', 'l']
  | flag true => ['t', 'r', 'u', 'e']
  | flag false => ['f', 'a', 'l', 's', 'e']
  | integer n => Text.integerChars n
  | real x => (realText x).toList
  | text s => quoted s.toList
  | list [] => ['[', ']']
  | list (d :: ds) =>
    '[' :: newLine (depth + 1) ++ chars (depth + 1) d ++ itemChars (depth + 1) ds
      ++ newLine depth ++ [']']
  | object [] => ['\x7b', '\x7d']
  | object ((key, d) :: ms) =>
    '\x7b' :: newLine (depth + 1) ++ quoted key.toList ++ [':', ' '] ++ chars (depth + 1) d
      ++ memberChars (depth + 1) ms ++ newLine depth ++ ['\x7d']

/-- The items of a list after its first. -/
def itemChars (depth : Nat) : List Document → List Char
  | [] => []
  | d :: ds => ',' :: newLine depth ++ chars depth d ++ itemChars depth ds

def memberChars (depth : Nat) : List (String × Document) → List Char
  | [] => []
  | (key, d) :: ms =>
    ',' :: newLine depth ++ quoted key.toList ++ [':', ' '] ++ chars depth d ++ memberChars depth ms

end

def write (d : Document) : String := String.ofList (chars 0 d)

end Document

end AssetRegister
