import AssetRegister.Application.Run

/-!
# The executable

Reads the command line, the environment and the settings file, runs the program, and writes what it
gives. No command adds rows, so the databases are empty and nothing of them has to be kept.
-/

namespace AssetRegister

def assignment? (s : String) : Option (String × String) :=
  match s.splitOn "=" with
  | name :: value :: more => some (name, String.intercalate "=" (value :: more))
  | _ => none

/-- The program's own folder: the one for data of programs, or else a folder in the user's own. -/
def ownFolder? (environment : List (String × String)) : Option String :=
  match environment.lookup "XDG_DATA_HOME", environment.lookup "HOME" with
  | some data, home =>
    if data.startsWith "/" then some (data ++ "/assetlist")
    else home.map (· ++ "/.local/share/assetlist")
  | none, home => home.map (· ++ "/.local/share/assetlist")

def readText? (path : String) : IO (Option String) := do
  return (← (IO.FS.readFile path).toBaseIO).toOption

/-- Writes the settings file of a new installation. Failing that, the program goes on without it. -/
def writeSettings (folder text : String) : IO Unit := do
  try
    IO.FS.createDirAll folder
    IO.FS.writeFile (Disk.join folder Disk.settingsName) text
  catch e => IO.eprintln s!"Failed to write default config: {e}"

def report (outcome : Outcome) : IO UInt32 := do
  IO.print outcome.output
  match outcome with
  | .failed fault => IO.eprintln fault.message
  | .usage fault => if outcome.code ≠ 0 then IO.eprintln fault.name
  | .done _ => pure ()
  return UInt32.ofNat outcome.code

def runHere (words : List String) : IO UInt32 := do
  let assignments ← readText? "/proc/self/environ"
  let environment := ((assignments.getD "").splitOn "\x00").filterMap assignment?
  match ownFolder? environment with
  | none => do
    IO.eprintln "Error: Could not determine the app's data directory"
    return 1
  | some home => do
    let found ← readText? (Disk.join home Disk.settingsName)
    let start : Disk := found.elim {} fun text => Disk.writeSettings {} home text
    let (outcome, disk) := start.run home environment words
    if found.isNone then
      if let some (.text text) := disk.entry? (Disk.settingsPlace home) then
        writeSettings home text
    report outcome

end AssetRegister

def main (words : List String) : IO UInt32 :=
  AssetRegister.runHere words
