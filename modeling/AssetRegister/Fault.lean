import AssetRegister.Condition.Compile
import AssetRegister.Listing.Params
import AssetRegister.Record.Record
import AssetRegister.Store.Limits

/-!
# Faults

Everything that can keep a request from being answered, with its wording. A fault of the caller is
one that the request alone brings about, whatever is stored.
-/

namespace AssetRegister

/-- Why ownership options do not make a scope. -/
inductive ScopeFault where
  | privateWithoutUser
  | groupWithoutGroup
  | publicWithOwner
  | ownerWithoutVisibility
  | severalGroups
  | visibilityOfAssets
  | notScoped (e : Entity)
  deriving DecidableEq, Repr

/-- The name of an entity's listing in messages. -/
def Entity.listingName : Entity → String
  | users => "Users"
  | userGroups => "UserGroups"
  | assets => "Assets"
  | assetFiles => "AssetFiles"
  | suppliers => "Suppliers"

def ScopeFault.message : ScopeFault → String
  | privateWithoutUser => "PRIVATE files require an owner user"
  | groupWithoutGroup => "GROUP files require an owner group"
  | publicWithOwner => "PUBLIC files cannot have an owner"
  | ownerWithoutVisibility => "asset file owners require --visibility"
  | severalGroups => "asset files take a single --owner-group"
  | visibilityOfAssets => "--visibility applies to asset files only"
  | notScoped e => e.listingName ++ " listings take no ownership options"

inductive FolderFault where
  | missing
  | fileExists
  | notAFolder
  | nameTooLong
  | nullCharacter
  deriving DecidableEq, Repr

def FolderFault.message : FolderFault → String
  | missing => "No such file or directory (os error 2)"
  | fileExists => "File exists (os error 17)"
  | notAFolder => "Not a directory (os error 20)"
  | nameTooLong => "File name too long (os error 36)"
  | nullCharacter => "file name contained an unexpected NUL byte"

inductive OpeningFault where
  | unopened (path : String)
  | notADatabase
  | readOnly
  deriving DecidableEq, Repr

def OpeningFault.message : OpeningFault → String
  | unopened path =>
    "Connection pool error: timed out waiting for connection: unable to open database file: " ++ path
  | notADatabase => "Database error: file is not a database"
  | readOnly => "Database error: attempt to write a readonly database"

/-- Why a request is not answered. -/
inductive Fault where
  | param (fault : ParamFault)
  | malformed (clause : MalformedClause)
  | compile (fault : CompileFault)
  | scope (fault : ScopeFault)
  | excess (limit : Excess) (statement : String)
  | read (fault : ReadFault)
  | store (fault : StoreFault)
  | version (fault : Database.VersionFault)
  | document (fault : DocumentFault)
  | noFolder (path : String)
  | folder (fault : FolderFault)
  | opening (fault : OpeningFault)
  deriving Repr

def CompileFault.message : CompileFault → String
  | unknownField fault =>
    "Unknown field '" ++ fault.segment ++ "' on '" ++ fault.entity.table ++ "'"
  | unknownOperator symbol => "Unsupported operator '" ++ symbol ++ "' for any attribute"
  | unsupportedOperator op kind =>
    "Unsupported operator '" ++ op.symbol ++ "' for " ++ kind.name ++ " attribute"
  | invalidOperand value fault => "Invalid operand '" ++ value ++ "': " ++ fault.message

def Database.VersionFault.message : Database.VersionFault → String
  | mismatch found =>
    "Error: Schema version mismatch: found " ++ found ++ ", expected " ++ Database.currentVersion
  | missing => "Error: Schema version missing"
  | unreadable found => "Database error: " ++ (ReadFault.wrongClass found 0 "value").message
  | garbled fault => "Database error: " ++ (ReadFault.garbled 0 fault).message

namespace Fault

def message : Fault → String
  | param fault => "Invalid list parameter: " ++ fault.message
  | malformed clause => "Malformed filter clause: '" ++ clause.text ++ "'"
  | compile fault => fault.message
  | scope fault => "Invalid scope: " ++ fault.message
  | excess limit statement => "Database error: " ++ limit.message statement
  | read fault => "Database error: " ++ fault.message
  | store fault => "Database error: " ++ fault.message
  | version fault => fault.message
  | document fault => "JSON error: " ++ fault.message
  | noFolder path =>
    "Error: Database folder '" ++ path ++ "' does not exist or is not a directory"
  | folder fault => "I/O error: " ++ fault.message
  | opening fault => fault.message

/-- Whether the request alone brings the fault about. -/
def isClientError : Fault → Bool
  | param _ | malformed _ | compile _ | scope _ => true
  | excess .. | read _ | store _ | version _ | document _ | noFolder _ | folder _ | opening _ =>
    false

end Fault

namespace Choice

/-- Reads a choice from a document: its word, or an object whose only member is named by its word
and holds nothing. -/
def ofDocument (α : Type) [Choice α] : Document → Except DocumentFault α
  | .text s =>
    match ofWord? s with
    | some a => .ok a
    | none => .error (.unknownWord s (words α))
  | .object [(key, d)] =>
    match ofWord? key, d with
    | some a, .null => .ok a
    | some _, d => .error (.invalidType d "unit")
    | none, _ => .error (.unknownWord key (words α))
  | .object members => .error (.invalidValue (.object members) "map with a single key")
  | d => .error (.invalidType d "string or map")

end Choice

end AssetRegister
