import AssetRegister.Store.Database

/-!
# Files of stores

A file is new, or the tables of the register have been made in it, together with one that holds the
version of the schema. `StoreFile.ensure` comes first whenever a file is used: it makes the tables if
the one of the version is missing, and checks the version otherwise.
-/

namespace AssetRegister

/-- What a file holds: the names of the tables that have been made in it, and their content. A table
that has not been made is empty. -/
structure StoreFile where
  tables : List String := []
  db : Database := { schemaVersion? := none }
  deriving DecidableEq, Repr

namespace StoreFile

def versionTable : String := "meta"

/-- Makes a table, unless there is one of that name. -/
def makeTable (file : StoreFile) (name : String) : StoreFile :=
  if file.tables.contains name then file else { file with tables := file.tables ++ [name] }

/-- Puts a version in the place of whatever version there is. -/
def putVersion (file : StoreFile) (version : String) : StoreFile :=
  { file with db := { file.db with schemaVersion? := some (.text version) } }

/-- Makes the table of the version, puts the current version there, and makes the other tables. -/
def makeTables (file : StoreFile) : StoreFile :=
  Entity.all.foldl (fun file e => file.makeTable e.table)
    ((file.makeTable versionTable).putVersion Database.currentVersion)

/-- Makes the tables if there is none of the version, and checks the version otherwise. -/
def ensure (file : StoreFile) : Except Database.VersionFault Unit × StoreFile :=
  if file.tables.contains versionTable then (file.db.checkVersion, file)
  else (.ok (), file.makeTables)

end StoreFile

end AssetRegister
