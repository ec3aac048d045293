import AssetRegister.Application.Disk
import AssetRegister.CommandLine.Run

/-!
# The program

One run of the program: the command line is read, the settings are loaded, the database is opened,
and the command is run. A command line that is at fault leaves the disk as it is.
-/

namespace AssetRegister

inductive Outcome where
  | usage (fault : CommandLine.UsageFault)
  | failed (fault : Fault)
  | done (text : String)
  deriving Repr

namespace Outcome

def versionLine : String := "assetlist 0.1.0\n"

/-- The exit code. Help and version that were asked for are no failures. -/
def code : Outcome → Nat
  | usage .help | usage .version | done _ => 0
  | failed _ => 1
  | usage _ => 2

def output : Outcome → String
  | usage .version => versionLine
  | done text => text
  | usage _ | failed _ => ""

end Outcome

/-- Runs an invocation with settings loaded. -/
def CommandLine.Invocation.run (invocation : CommandLine.Invocation) (settings : Settings)
    (home : String) (disk : Disk) : Except Fault String × Disk :=
  match disk.openDatabase (invocation.folder.getD (settings.folderOr home)) with
  | (.error fault, disk) => (.error fault, disk)
  | (.ok db, disk) =>
    match db.checkVersion with
    | .error fault => (.error (.version fault), disk)
    | .ok () => (invocation.command.run db settings.mode, disk)

/-- Runs the program on a command line. `home` is the absolute path of the program's own folder. -/
def Disk.run (disk : Disk) (home : String) (environment : List (String × String))
    (words : List String) : Outcome × Disk :=
  match CommandLine.read words with
  | .error fault => (.usage fault, disk)
  | .ok invocation =>
    let (settings, disk) := disk.loadSettings home environment
    match invocation.run settings home disk with
    | (.error fault, disk) => (.failed fault, disk)
    | (.ok text, disk) => (.done text, disk)

end AssetRegister
