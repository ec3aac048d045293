import AssetRegister.Settings.File.Moment
import AssetRegister.Settings.File.Number
import AssetRegister.Settings.File.Text
import AssetRegister.Settings.File.Tree

/-!
# Values of settings files

Texts, numbers, flags, moments, lists and tables in braces. A list may go over several lines and end
with a separator; a table in braces may not.
-/

namespace AssetRegister.SettingsFile

/-- Reads a value that holds no other values. A moment stands for a table without members, as it is
what no setting can be. -/
def scalar : Scan Setting := do
  match ← Scan.ahead with
  | some '"' | some '\'' => return .text (← text)
  | some 't' => do Scan.exactly ['t', 'r', 'u', 'e']; return .flag true
  | some 'f' => do Scan.exactly ['f', 'a', 'l', 's', 'e']; return .flag false
  | _ => (do moment; return .table []) <|> real <|> integer

def list (value : Scan Setting) : Scan Setting := do
  let separator := Scan.exactly [',']
  Scan.exactly ['[']
  let items ← Scan.separated separator do
    gap
    let v ← value
    gap
    return v
  -- a separator at the end needs an item before it
  if !items.isEmpty then
    let _ ← Scan.optional separator
  gap
  Scan.exactly [']']
  return .list items

def entry (value : Scan Setting) : Scan Entry := do
  let names ← key
  Scan.exactly ['=']
  indent
  let v ← value
  return ⟨names.dropLast, names.getLastD "", v⟩

def braces (value : Scan Setting) : Scan Setting := do
  Scan.exactly ['\x7b']
  let entries ← Scan.separated (Scan.exactly [',']) do
    let e ← entry value
    indent
    return e
  indent
  Scan.exactly ['\x7d']
  match entries.foldlM addEntry [] with
  | some ms => return .table (memberSettings ms)
  | none => failure

/-- Reads a value in which lists and tables are nested at most `depth` deep. -/
def value : Nat → Scan Setting
  | 0 => scalar
  | depth + 1 => list (value depth) <|> braces (value depth) <|> scalar

end AssetRegister.SettingsFile
