import AssetRegister.Settings.Setting

/-!
# Tables that stand for a value

In a settings file a table can stand for any other value, which it holds under a reserved name. A
second reserved name marks a value with an integer; the mark has no effect, but it has to be one.
The names are reserved in every table but the outermost.
-/

namespace AssetRegister.SettingsFile

/-- The name under which a table holds the value that it stands for. -/
def valueName : String := "___figment_value_value"

/-- The name under which a table holds the mark of a value. -/
def markName : String := "___figment_value_id"

/-- Whether a setting can be a mark. -/
def isMark : Setting → Bool
  | .integer _ => true
  | _ => false

mutual

/-- The setting with what its tables stand for in their places, or nothing if a mark is at fault. -/
def represented? : Setting → Option Setting
  | .list items => do
    return .list (← representedItems? items)
  | .table ms => do
    let ms ← representedMembers? ms
    -- of a table that stands for a value the other members are lost
    return (ms.lookup valueName).getD (.table ms)
  | s => some s

def representedItems? : List Setting → Option (List Setting)
  | [] => some []
  | s :: items => do
    return (← represented? s) :: (← representedItems? items)

/-- What the members of a table stand for. A mark is left out. -/
def representedMembers? : List (String × Setting) → Option (List (String × Setting))
  | [] => some []
  | (name, s) :: ms => do
    let rest ← representedMembers? ms
    if name = markName then
      guard (isMark s)
      return rest
    else return (name, ← represented? s) :: rest

end

/-- What the members of the outermost table stand for. -/
def representedOuter? (ms : List (String × Setting)) : Option (List (String × Setting)) :=
  ms.mapM fun (name, s) => (represented? s).map fun s => (name, s)

end AssetRegister.SettingsFile
