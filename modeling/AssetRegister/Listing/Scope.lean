import AssetRegister.Fault

/-!
# Scopes

A scope is a predicate that the owner of a request puts on it. It is added to the predicate of the
filter as a conjunction, so no filter can widen it.
-/

namespace AssetRegister.Scope

def single (c : Except UnknownField Condition) : Except Fault Predicate :=
  match c with
  | .ok c => .ok ⟨[c]⟩
  | .error fault => .error (.compile (.unknownField fault))

def filesWith (field : String) (v : Operand) : Except Fault Predicate :=
  single (Condition.equals .assetFiles field v)

/-- Asset files whose asset has no owner at all. -/
def ownerlessFiles : Except Fault Predicate := do
  let noUser ← single (Condition.isNull .assetFiles "asset.ownerUserId")
  let noGroup ← single (Condition.isNull .assetFiles "asset.ownerGroupId")
  return noUser.both noGroup

/-- The ownership that a visibility asks of a file's asset: the given user for private files, the
given group for group files, no owner for public ones. -/
def ownership (v : Visibility) (user group : Option Int) : Except Fault Predicate :=
  match v, user, group with
  | .private, some user, _ => filesWith "asset.ownerUserId" (.integer user)
  | .private, none, _ => .error (.scope .privateWithoutUser)
  | .group, _, some group => filesWith "asset.ownerGroupId" (.integer group)
  | .group, _, none => .error (.scope .groupWithoutGroup)
  | .public, none, none => ownerlessFiles
  | .public, _, _ => .error (.scope .publicWithOwner)

/-- Files in the bucket of a visibility whose asset has the ownership that goes with it. -/
def fileVisibility (v : Visibility) (user group : Option Int) : Except Fault Predicate := do
  let bucket ← filesWith "bucketType" (.text (Choice.word v.bucket))
  return bucket.both (← ownership v user group)

def assetGroups (groups : List Int) : Except Fault Predicate :=
  single (Condition.isIn .assets "ownerGroupId" (groups.map .integer))

def assetOwner (user : Int) : Except Fault Predicate :=
  single (Condition.equals .assets "ownerUserId" (.integer user))

end AssetRegister.Scope
