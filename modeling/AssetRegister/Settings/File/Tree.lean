import AssetRegister.Settings.Setting

/-!
# The tables of a settings file

Where a line of a settings file puts what it says. A table remembers how it came to be, since that
decides what may still be added to it: a table that has had its header takes no second one, and
dotted keys reach into tables only that no header or pair of braces has made.
-/

namespace AssetRegister.SettingsFile

/-- How a table came to be: by its own header or braces, by a dotted key, or on the way of a header
to a table inside it. -/
inductive Origin where
  | explicit
  | dotted
  | passed
  deriving DecidableEq, Repr

/-- What a name stands for in a file: a value, a table, or a list of tables that headers make, the
last of which is still open. -/
inductive Node where
  | value (v : Setting)
  | table (origin : Origin) (members : List (String × Node))
  | tables (closed : List Setting) (last : List (String × Node))
  deriving Repr

mutual

def Node.setting : Node → Setting
  | .value v => v
  | .table _ ms => .table (memberSettings ms)
  | .tables closed last => .list (closed ++ [.table (memberSettings last)])

def memberSettings : List (String × Node) → List (String × Setting)
  | [] => []
  | (name, n) :: ms => (name, n.setting) :: memberSettings ms

end

/-- Whether a key of the given origin may reach into a table. -/
def Origin.reaches (way table : Origin) : Bool :=
  way != .dotted || table != .explicit

/-- Changes the members of the table that a path leads to. Tables missing on the way come to be with
the origin of the way. -/
def change (way : Origin) (f : Origin → List (String × Node) → Option (List (String × Node)))
    (origin : Origin) (ms : List (String × Node)) :
    List String → Option (List (String × Node))
  | [] => f origin ms
  | name :: path =>
    match ms.lookup name with
    | none => do
      let inner ← change way f way [] path
      return setMember name (.table way inner) ms
    | some (.value _) => none
    | some (.table o inner) => do
      guard (way.reaches o)
      let inner ← change way f o inner path
      return setMember name (.table o inner) ms
    -- only the last table of a list is still open
    | some (.tables closed last) => do
      let last ← change way f .explicit last path
      return setMember name (.tables closed last) ms

/-- A dotted key, of which `path` is all but the last name, and its value. -/
structure Entry where
  path : List String
  name : String
  value : Setting
  deriving Repr

def addEntry (ms : List (String × Node)) (entry : Entry) : Option (List (String × Node)) :=
  let add (origin : Origin) (inner : List (String × Node)) := do
    -- a dotted key adds only to tables that dotted keys have made
    guard (entry.path.isEmpty || origin == .dotted)
    guard (inner.lookup entry.name).isNone
    return setMember entry.name (.value entry.value) inner
  change .dotted add .explicit ms entry.path

/-- Opens a table by its header. Only a table that other headers have passed may be there already. -/
def openTable (path : List String) (name : String) (ms : List (String × Node)) :
    Option (List (String × Node)) :=
  let add (_ : Origin) (inner : List (String × Node)) :=
    match inner.lookup name with
    | none => some (setMember name (.table .explicit []) inner)
    | some (.table .passed deeper) => some (setMember name (.table .explicit deeper) inner)
    | some _ => none
  change .passed add .explicit ms path

/-- Opens one more table of a list of tables by its header. -/
def openNext (path : List String) (name : String) (ms : List (String × Node)) :
    Option (List (String × Node)) :=
  let add (_ : Origin) (inner : List (String × Node)) :=
    match inner.lookup name with
    | none => some (setMember name (.tables [] []) inner)
    | some (.tables closed last) =>
      some (setMember name (.tables (closed ++ [.table (memberSettings last)]) []) inner)
    | some _ => none
  change .passed add .explicit ms path

/-- Adds an entry to the table whose header came last. -/
def addUnder (header : List String) (ms : List (String × Node)) (entry : Entry) :
    Option (List (String × Node)) :=
  change .passed (fun _ inner => addEntry inner entry) .explicit ms header

end AssetRegister.SettingsFile
