import AssetRegister.Application.Address
import AssetRegister.Application.Path
import AssetRegister.Fault
import AssetRegister.Settings.Settings

/-!
# The disk

The folders and files that the program makes and reads. A folder is made together with those that
lead to it; what stands in the way decides the fault. `Disk.openDatabase` gives the database of a
folder, which is empty if it is new.
-/

namespace AssetRegister

/-- What stands at a place of the disk. -/
inductive DiskEntry where
  | folder
  | text (s : String)
  | database (db : Database)
  deriving Repr

def DiskEntry.isFolder : DiskEntry → Bool
  | folder => true
  | text _ | database _ => false

/-- What the program has made on the disk or found there. -/
structure Disk where
  entries : List (Place × DiskEntry) := []
  deriving Repr

namespace Disk

def entry? (disk : Disk) (place : Place) : Option DiskEntry :=
  if place.isGiven then some .folder else disk.entries.lookup place

/-- Puts something at a place, instead of what stands there. -/
def set (disk : Disk) (place : Place) (entry : DiskEntry) : Disk :=
  { disk with entries := disk.entries.filter (·.1 != place) ++ [(place, entry)] }

def namesIn (disk : Disk) (folder : Place) : List String :=
  disk.entries.filterMap fun (place, _) =>
    if place.dropLast == folder then place.getLast? else none

/-! ## Folders -/

/-- The greatest length of a name in bytes. -/
def nameBound : Nat := 255

/-- The greatest length of a path in bytes. -/
def pathBound : Nat := 4095

/-- Goes on into a folder by name. -/
def enter (disk : Disk) (place : Place) (name : String) : Except FolderFault Place :=
  if name = "." ∨ name = ".." then .ok (place.enter name)
  else if nameBound < name.utf8ByteSize then .error .nameTooLong
  else
    match disk.entry? (place.enter name) with
    | none => .error .missing
    | some entry => if entry.isFolder then .ok (place.enter name) else .error .notAFolder

/-- Goes along a way, all of whose names have to be folders. -/
def follow (disk : Disk) (way : Way) : Except FolderFault Place :=
  way.names.foldlM disk.enter way.start

def makeFolder (disk : Disk) (way : Way) : Except FolderFault Disk := do
  let place ← disk.follow ⟨way.start, way.names.dropLast⟩
  match way.names.getLast? with
  -- the way ends in a folder that has been gone through already
  | none | some "." | some ".." => .error .fileExists
  | some name =>
    if nameBound < name.utf8ByteSize then .error .nameTooLong
    else if (disk.entry? (place.enter name)).isSome then .error .fileExists
    else .ok (disk.set (place.enter name) .folder)

/-- Makes the folder at the end of a way, unless there is one. -/
def provideFolder (disk : Disk) (way : Way) : Except FolderFault Disk :=
  match disk.makeFolder way with
  | .ok disk => .ok disk
  -- whatever kept it from being made, a folder that is there will do
  | .error fault => if (disk.follow way).toOption.isSome then .ok disk else .error fault

/-- Makes the folder at the end of the first way. If it misses one before it, that one is made first
by the ways after it. What is made stays, also if a fault comes after it. -/
def provideFolders (disk : Disk) : List Way → Option FolderFault × Disk
  | [] => (none, disk)
  | way :: ancestors =>
    match disk.provideFolder way with
    | .ok disk => (none, disk)
    | .error .missing =>
      match disk.provideFolders ancestors with
      | (some fault, disk) => (some fault, disk)
      | (none, disk) =>
        match disk.provideFolder way with
        | .ok disk => (none, disk)
        | .error fault => (some fault, disk)
    | .error fault => (some fault, disk)

/-- Makes the folder of a path and all that lead to it. -/
def provide (disk : Disk) (path : String) : Option FolderFault × Disk :=
  if path.contains '\x00' then (some .nullCharacter, disk)
  else if pathBound < path.utf8ByteSize then (some .nameTooLong, disk)
  else disk.provideFolders (Way.ofPath path).ancestors

/-! ## Databases -/

def databaseName : String := "assetlist.db"

def join (path name : String) : String :=
  if path.endsWith "/" then path ++ name else path ++ "/" ++ name

/-- Makes an empty database at a place, or fails to write it. -/
def newDatabase (disk : Disk) (place : Place) (writable : Bool) :
    Except OpeningFault Database × Disk :=
  if writable then (.ok {}, disk.set place (.database {}))
  -- the file comes to be before writing to it fails
  else (.error .readOnly, disk.set place (.text ""))

/-- Opens the database of a path. An empty file becomes a database. -/
def openPath (disk : Disk) (path : String) : Except OpeningFault Database × Disk :=
  let unopened : Except OpeningFault Database × Disk := (.error (.unopened path), disk)
  match Address.ofPath? path with
  | none => unopened
  | some address =>
    match address.file with
    | none => (if address.writable then .ok {} else .error .readOnly, disk)
    | some file =>
      let place := Place.ofPath file
      match disk.entry? place with
      | some .folder => unopened
      | some (.database db) => (.ok db, disk)
      | some (.text s) =>
        if s = "" then disk.newDatabase place address.writable else (.error .notADatabase, disk)
      | none =>
        if address.created ∧ (disk.entry? place.dropLast).any DiskEntry.isFolder then
          disk.newDatabase place address.writable
        else unopened

/-- Makes the folder of a path and opens the database in it. -/
def openDatabase (disk : Disk) (path : String) : Except Fault Database × Disk :=
  if path.isEmpty then (.error (.noFolder path), disk)
  else
    match disk.provide path with
    | (some fault, disk) => (.error (.folder fault), disk)
    | (none, disk) =>
      let (db, disk) := disk.openPath (join path databaseName)
      (db.mapError .opening, disk)

/-! ## Settings -/

def settingsName : String := "config.toml"

def settingsPlace (home : String) : Place := Place.ofPath (join home settingsName)

/-- The disk with a settings file, made together with its folder. -/
def writeSettings (disk : Disk) (home text : String) : Disk :=
  match disk.provide home with
  | (none, disk) => disk.set (settingsPlace home) (.text text)
  | (some _, disk) => disk

/-- The settings, and the disk with the settings file that is made if there is none. A database in its
place is at fault, a folder is no file. The program's own folder is given by an absolute path: below a
relative one the file would also be looked for in the folders around the working folder. -/
def loadSettings (disk : Disk) (home : String) (environment : List (String × String)) :
    Settings × Disk :=
  match disk.entry? (settingsPlace home) with
  | some (.text s) => ((Settings.load (some s) true environment).1, disk)
  | some (.database _) => ({}, disk)
  | some .folder => (Settings.ofLayers none environment, disk)
  | none =>
    let (settings, made) := Settings.load none true environment
    (settings, match made with
      | some text => disk.writeSettings home text
      | none => disk)

end Disk

end AssetRegister
