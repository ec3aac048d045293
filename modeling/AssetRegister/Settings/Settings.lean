import AssetRegister.Filter.Token
import AssetRegister.Settings.File.Reader
import AssetRegister.Settings.Variable

/-!
# Settings

What the program can be told once for all its runs. The defaults come first, the settings file goes
over them, and the variables of the environment over both. If either layer is at fault, the defaults
hold altogether; a value of the right type that makes no sense falls back alone.
-/

namespace AssetRegister

inductive LogLevel where
  | error
  | warn
  | info
  | debug
  | trace
  deriving DecidableEq, Repr

namespace LogLevel

def word : LogLevel → String
  | error => "error"
  | warn => "warn"
  | info => "info"
  | debug => "debug"
  | trace => "trace"

/-- All levels, the least talkative first. -/
def all : List LogLevel := [error, warn, info, debug, trace]

/-- The level that a text names, in any case of ASCII letters and with any white space around. -/
def ofText? (s : String) : Option LogLevel :=
  all.find? fun l => l.word == Text.lowerAscii (Text.trim s)

end LogLevel

/-- The settings, with their defaults. -/
structure Settings where
  programLog : LogLevel := .info
  poolLog : LogLevel := .error
  folder : Option String := none
  poolSize : Nat := 4
  strict : Bool := false
  deriving DecidableEq, Repr

namespace Settings

/-! ## Layers -/

/-- The defaults as the layer under all others. A database folder is not among them. -/
def base : Setting :=
  let s : Settings := {}
  .table [
    ("logging", .table [("assetlist", .text s.programLog.word), ("r2d2", .text s.poolLog.word)]),
    ("database", .table [("pool_size", .integer s.poolSize)]),
    ("filter", .table [("strict", .flag s.strict)])]

/-- The fields of a section, by name in a table or by position in a list. Fields that are missing in
a table are given as nothing; a list has to have them all. -/
def fields? (names : List String) : Setting → Option (List (Option Setting))
  | .table ms => some (names.map fun name => ms.lookup name)
  | .list items =>
    if names.length ≤ items.length then some ((items.take names.length).map some) else none
  | _ => none

def text? : Setting → Option String
  | .text s => some s
  | _ => none

def flag? : Setting → Option Bool
  | .flag b => some b
  | _ => none

/-- The greatest number of 32 bits without a sign. -/
def greatestSize : Int := 4294967295

/-- The number that a setting is, of 32 bits without a sign. -/
def size? : Setting → Option Nat
  | .integer n => if 0 ≤ n ∧ n ≤ greatestSize then some n.toNat else none
  | _ => none

/-- The settings of a tree in which every section and every field has its type. A level without
meaning is the default level, and a pool has at least one connection. -/
def ofSetting? (tree : Setting) : Option Settings := do
  let [some logging, some database, some filter] ← fields? ["logging", "database", "filter"] tree
    | none
  let [some program, some pool] ← fields? ["assetlist", "r2d2"] logging | none
  let [folder, some size] ← fields? ["dir", "pool_size"] database | none
  let [some strict] ← fields? ["strict"] filter | none
  let program ← text? program
  let pool ← text? pool
  let folder ← match folder with
    | none => some none
    | some folder => (text? folder).map some
  let size ← size? size
  let strict ← flag? strict
  return {
    programLog := (LogLevel.ofText? program).getD .info
    poolLog := (LogLevel.ofText? pool).getD .error
    folder := folder
    poolSize := max 1 size
    strict := strict }

/-- The settings that a file, if there is one, and the variables of the environment make up. -/
def ofLayers (file : Option String) (environment : List (String × String)) : Settings :=
  let layer : Option Setting := match file with
    | none => some (.table [])
    | some s => SettingsFile.read? s
  let settings := layer.bind fun file =>
    ofSetting? ((base.merge file).merge (Variable.layer environment))
  settings.getD {}

/-! ## Loading -/

/-- The text of the settings file that is made if there is none. -/
def fileText : String :=
  let s : Settings := {}
  String.intercalate "\n" [
    "[logging]",
    "assetlist = \"" ++ s.programLog.word ++ "\"",
    "r2d2 = \"" ++ s.poolLog.word ++ "\"",
    "",
    "[database]",
    "pool_size = " ++ Text.integerText s.poolSize,
    "",
    "[filter]",
    "strict = " ++ (if s.strict then "true" else "false"),
    ""]

/-- Loads the settings, and gives the text of the settings file to be made. It is made if there is
none and its place can be written to, and then it is read like one that was there before. -/
def load (file : Option String) (writable : Bool) (environment : List (String × String)) :
    Settings × Option String :=
  match file with
  | some _ => (ofLayers file environment, none)
  | none =>
    let made := if writable then some fileText else none
    (ofLayers made environment, made)

/-! ## What the settings stand for -/

def logText (s : Settings) : String :=
  "assetlist=" ++ s.programLog.word ++ ",r2d2=" ++ s.poolLog.word

def folderOr (s : Settings) (fallback : String) : String :=
  s.folder.getD fallback

def mode (s : Settings) : ParseMode :=
  if s.strict then .strict else .lenient

end Settings

end AssetRegister
