/-!
# Scanning

A `Scan` reads something from the front of a text, or fails. Of two alternatives the second starts
where the first one did.
-/

namespace AssetRegister

/-- Reads something from the front of a text, or fails. -/
abbrev Scan := StateT (List Char) Option

namespace Scan

/-- The next character, left in place. -/
def ahead : Scan (Option Char) := do
  return (← get).head?

def one (p : Char → Bool) : Scan Char
  | [] => none
  | c :: s => if p c then some (c, s) else none

def exactly : List Char → Scan Unit
  | [] => pure ()
  | w :: ws => do
    let _ ← one (· == w)
    exactly ws

def takeWhile (p : Char → Bool) : Scan (List Char) := fun s =>
  some (s.takeWhile p, s.dropWhile p)

def takeSome (p : Char → Bool) : Scan (List Char) := do
  let c ← one p
  return c :: (← takeWhile p)

def count (p : Char → Bool) : Nat → Scan (List Char)
  | 0 => return []
  | n + 1 => do
    let c ← one p
    return c :: (← count p n)

def optional {α : Type} (p : Scan α) : Scan (Option α) :=
  (do return some (← p)) <|> return none

/-- Reads at most `fuel` things, as many as there are. -/
def manyUpTo {α : Type} (p : Scan α) : Nat → List Char → List α × List Char
  | 0, s => ([], s)
  | fuel + 1, s =>
    match p s with
    | none => ([], s)
    | some (a, s) =>
      let (as, s) := manyUpTo p fuel s
      (a :: as, s)

/-- Reads as many things as there are. Each takes a character at least, so the length of the text
is fuel enough. -/
def many {α : Type} (p : Scan α) : Scan (List α) := fun s =>
  some (manyUpTo p s.length s)

def separatedSome {α : Type} (separator : Scan Unit) (p : Scan α) : Scan (List α) := do
  let a ← p
  return a :: (← many (do separator; p))

/-- Reads things, if any, with separators between them. -/
def separated {α : Type} (separator : Scan Unit) (p : Scan α) : Scan (List α) :=
  separatedSome separator p <|> return []

def atEnd : Scan Unit := do
  guard (← get).isEmpty

/-- What a scan finds if it takes the whole text. -/
def whole? {α : Type} (p : Scan α) (s : List Char) : Option α :=
  match p s with
  | some (a, []) => some a
  | _ => none

end Scan

end AssetRegister
