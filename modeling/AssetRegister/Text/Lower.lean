import AssetRegister.Text.CaseTable
import AssetRegister.Text.Ranges

/-!
# Lowercase of a text

The full Unicode mapping: each character is mapped on its own, except that `İ` becomes two
characters and that a capital sigma takes its final form where a word ends.
-/

namespace AssetRegister.Text

def isCased (c : Char) : Bool := inRanges casedRanges c.toNat

def isCaseIgnorable (c : Char) : Bool := inRanges caseIgnorableRanges c.toNat

def capitalSigma : Char := '\u03A3'

/-- The lowercase of one character outside any context. -/
def lowerChar (c : Char) : List Char :=
  if c.toNat = 0x130 then ['i', '\u0307']
  else match lowerRuns.find? (·.contains c.toNat) with
    | some r => [Char.ofNat (c.toNat + r.shift).toNat]
    | none => [c]

/-- Whether the first character that casing does not look through is cased. -/
def meetsCased (s : List Char) : Bool :=
  match s.dropWhile isCaseIgnorable with
  | c :: _ => isCased c
  | [] => false

/-- A capital sigma ends a word if a cased character precedes it and none follows, characters that
casing looks through aside. `before` is the text before it, nearest character first. -/
def sigmaForm (before after : List Char) : Char :=
  if meetsCased before && !meetsCased after then '\u03C2' else '\u03C3'

/-- The lowercase of a text whose preceding characters are `before`, nearest first. -/
def lowerAfter (before : List Char) : List Char → List Char
  | [] => []
  | c :: s =>
    (if c = capitalSigma then [sigmaForm before s] else lowerChar c) ++ lowerAfter (c :: before) s

def lowerChars (s : List Char) : List Char := lowerAfter [] s

def lower (s : String) : String := String.ofList (lowerChars s.toList)

end AssetRegister.Text
