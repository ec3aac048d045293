import AssetRegister.Settings.File.StandIn
import AssetRegister.Settings.File.Value

/-!
# Settings files

A settings file is written in TOML 1.0. `SettingsFile.read?` gives the tree that it stands for, or
nothing if the file is at fault anywhere.
-/

namespace AssetRegister.SettingsFile

inductive Line where
  | blank
  | entry (entry : Entry)
  | header (path : List String) (name : String)
  | nextHeader (path : List String) (name : String)
  deriving Repr

/-- Reads the rest of a line, which says nothing more. -/
def lineEnd : Scan Unit := do
  indent
  let _ ← Scan.optional comment
  lineBreak <|> Scan.atEnd

/-- Reads the header of a table between its brackets. -/
def header (opening closing : List Char) : Scan (List String × String) := do
  Scan.exactly opening
  let names ← key
  Scan.exactly closing
  lineEnd
  return (names.dropLast, names.getLastD "")

def line : Scan Line := do
  match ← Scan.ahead with
  | some '#' => do lineEnd; return .blank
  | some '\n' | some '\r' => do lineBreak; return .blank
  | some '[' =>
    (do let (path, name) ← header ['[', '['] [']', ']']; return .nextHeader path name)
      <|> (do let (path, name) ← header ['['] [']']; return .header path name)
  | _ => do
    let e ← entry (value (nestingBound - 1))
    lineEnd
    return .entry e

/-- Reads all lines. A byte order mark may come first. -/
def lines : Scan (List Line) := do
  let _ ← Scan.optional (Scan.exactly ['\uFEFF'])
  indent
  Scan.many do
    let l ← line
    indent
    return l

/-- The tables that lines have made so far, and the header under which the next entries go. -/
structure Progress where
  header : List String := []
  members : List (String × Node) := []

def Progress.add (p : Progress) : Line → Option Progress
  | .blank => some p
  | .entry e => do
    return { p with members := ← addUnder p.header p.members e }
  | .header path name => do
    return ⟨path ++ [name], ← openTable path name p.members⟩
  | .nextHeader path name => do
    return ⟨path ++ [name], ← openNext path name p.members⟩

/-- The tree that the text of a settings file stands for. -/
def read? (s : String) : Option Setting := do
  let ls ← Scan.whole? lines s.toList
  let p ← ls.foldlM Progress.add {}
  return .table (← representedOuter? (memberSettings p.members))

end AssetRegister.SettingsFile
