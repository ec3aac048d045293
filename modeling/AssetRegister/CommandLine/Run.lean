import AssetRegister.CommandLine.Reader
import AssetRegister.Listing.Engine
import AssetRegister.Listing.Scope

/-!
# Running commands

What a command writes. A listing is limited by its ownership options before its parameters are
looked at, so a fault among these options is the first to be reported.
-/

namespace AssetRegister.CommandLine

namespace Arguments

def isUnowned (a : Arguments) : Bool :=
  a.visibility.isNone && a.ownerUser.isNone && a.ownerGroups.isEmpty

/-- The scope of a listing of asset files, if any ownership option is given. -/
def fileScope (a : Arguments) : Except Fault (Option Predicate) :=
  match a.visibility with
  | none => if a.isUnowned then .ok none else .error (.scope .ownerWithoutVisibility)
  | some v =>
    match a.ownerGroups with
    | _ :: _ :: _ => .error (.scope .severalGroups)
    | groups => (Scope.fileVisibility v a.ownerUser groups.head?).map some

/-- The scope of a listing of assets: the user's, the groups', or both at once. -/
def assetScope (a : Arguments) : Except Fault (Option Predicate) := do
  if a.visibility.isSome then throw (.scope .visibilityOfAssets)
  let user ← a.ownerUser.mapM Scope.assetOwner
  let groups ← if a.ownerGroups.isEmpty then pure none
    else (Scope.assetGroups a.ownerGroups).map some
  match user with
  | some user => return some (user.narrowed groups)
  | none => return groups

def scope (a : Arguments) (e : Entity) : Except Fault (Option Predicate) :=
  match e with
  | .assets => a.assetScope
  | .assetFiles => a.fileScope
  | e => if a.isUnowned then .ok none else .error (.scope (.notScoped e))

end Arguments

/-- A text with blanks after it up to a width. -/
def column (width : Nat) (s : String) : String :=
  s ++ String.ofList (List.replicate (width - s.length) ' ')

/-- The line about an attribute: its name, its type, its kind, and the entity that it leads to. -/
def attributeLine (a : Attribute) : String :=
  let target := match a.type.target? with
    | some e => " -> " ++ e.table
    | none => ""
  column 24 a.name ++ " " ++ column 10 a.type.name ++ " " ++ a.type.kind.name ++ target ++ "\n"

def Command.run (db : Database) (mode : ParseMode) : Command → Except Fault String
  | .init => .ok "Database ready\n"
  | .fields e => .ok (String.join (e.attributes.map attributeLine))
  | .list e given => do
    let scope ← given.scope e
    let items ← db.list e mode given.raw.resolve scope
    return items.document.write ++ "\n"

end AssetRegister.CommandLine
