import AssetRegister.Number.Decimal
import AssetRegister.Settings.Quoted
import AssetRegister.Settings.Setting
import AssetRegister.Text.Blank

/-!
# Settings in variables

A variable of the environment sets what its name says: after a prefix come the names of the sections
and of the setting, with two underscores between them. Its value is a flag, a number, a quoted text,
a list or a table if it reads as one, and otherwise the text that it is.
-/

namespace AssetRegister.Variable

/-! ## Values -/

def space : Scan Unit := do
  let _ ← Scan.takeWhile Text.isSettingSpace

def isBare (c : Char) : Bool :=
  !([',', '\x7b', '\x7d', '[', ']'].contains c)

/-- Whether a text is a real number: a decimal literal with a point. -/
def isReal (s : List Char) : Bool :=
  s.contains '.' && (Decimal.read? s).isSome

/-- The greatest integer of 64 bits without a sign. -/
def greatestUnsigned : Int := 18446744073709551615

/-- The integer that a text denotes, from the least of the signed 64-bit integers to the greatest
of the unsigned ones. -/
def integer? (s : List Char) : Option Int := do
  let d ← Decimal.read? s
  guard d.integral
  let n := if d.negative then -(d.coefficient : Int) else d.coefficient
  guard (Width.bits64.least ≤ n ∧ n ≤ greatestUnsigned)
  return n

def bare (s : List Char) : Setting :=
  if isReal s then .real
  else
    match integer? s with
    | some n => .integer n
    | none => .text (String.ofList s)

def bareValue : Scan Setting := do
  return bare (Text.trimBy Text.isBlank (← Scan.takeWhile isBare))

/-- Reads one character in single quotes. -/
def quotedCharacter : Scan Setting := do
  Scan.exactly ['\'']
  let c ← Scan.one fun _ => true
  Scan.exactly ['\'']
  return .text (String.singleton c)

/-- Reads an item and the separator after it, which may be missing at the end. -/
def itemBefore {α : Type} (close : Char) (item : Scan α) : Scan α := do
  guard ((← Scan.ahead) ≠ some close)
  let a ← item
  Scan.exactly [','] <|> do guard ((← Scan.ahead) = some close)
  return a

def itemsUntil {α : Type} (close : Char) (item : Scan α) : Scan (List α) := do
  let items ← Scan.many (itemBefore close item)
  Scan.exactly [close]
  return items

def memberName : Scan String := do
  match ← Scan.ahead with
  | some '"' => Scan.quoted
  | _ => return String.ofList (← Scan.takeSome Scan.isNamePart)

def member (value : Scan Setting) : Scan (String × Setting) := do
  space
  let name ← memberName
  space
  Scan.exactly ['=']
  return (name, ← value)

/-- The table of some members, of which the last of each name counts. -/
def tableOf (members : List (String × Setting)) : Setting :=
  .table (members.foldl (fun ms m => setMember m.1 m.2 ms) [])

/-- Reads a value with values inside it read by `inner`. -/
def valueWith (inner : Scan Setting) : Scan Setting := do
  match ← Scan.ahead with
  | some '[' => do
    Scan.exactly ['[']
    return .list (← itemsUntil ']' inner)
  | some '\x7b' => do
    Scan.exactly ['\x7b']
    return tableOf (← itemsUntil '\x7d' (member inner))
  | some '"' => return .text (← Scan.quoted)
  | some '\'' => quotedCharacter
  | _ =>
    -- of a longer word that starts like a flag something is left over, so it is a text
    (do Scan.exactly ['t', 'r', 'u', 'e']; return .flag true)
      <|> (do Scan.exactly ['f', 'a', 'l', 's', 'e']; return .flag false)
      <|> bareValue

/-- Reads a value nested at most `depth` deep, with the white space around it. -/
def value : Nat → Scan Setting
  | 0 => failure
  | depth + 1 => do
    space
    let v ← valueWith (value depth)
    space
    return v

/-- The setting that the text of a variable stands for. A text cannot nest deeper than it is long. -/
def setting (s : String) : Setting :=
  (Scan.whole? (value (s.length + 1)) s.toList).getD (.text s)

/-! ## Names -/

/-- What the names of the variables start with. -/
def namePrefix : List Char := "assetlist_".toList

/-- Pairs of underscores, from the left, as points. -/
def pointed : List Char → List Char
  | '_' :: '_' :: s => '.' :: pointed s
  | c :: s => c :: pointed s
  | [] => []

/-- The names that lead to the setting of a variable. -/
def names? (name : String) : Option (List String) :=
  let s := Text.trimBy Text.isBlank (name.toList.map Text.asciiLower)
  if s.take namePrefix.length = namePrefix then
    -- white space may also follow what the names start with
    let inner := Text.trimBy Text.isBlank (pointed (s.drop namePrefix.length))
    let names := inner.splitOn '.'
    if names.any List.isEmpty then none else some (names.map String.ofList)
  else none

/-- The layer that variables make up. Later ones go over earlier ones. -/
def layer (environment : List (String × String)) : Setting :=
  environment.foldl
    (fun layer v =>
      match names? v.1 with
      | some names => layer.merge (.nested (setting v.2) names)
      | none => layer)
    (.table [])

end AssetRegister.Variable
