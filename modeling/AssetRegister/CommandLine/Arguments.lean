import AssetRegister.Listing.Params
import AssetRegister.Record.Choice
import AssetRegister.Catalog.Entity

/-!
# Arguments

What a command line can give: an entity and options. `Arguments.take` takes the text of one of them
in, or says what is wrong with it.
-/

namespace AssetRegister.CommandLine

/-- Why a command line does not say what to do, or says to show how it is used instead. -/
inductive UsageFault where
  | help
  | helpForMissing
  | version
  | missingCommand
  | unknownCommand
  | unknownArgument
  | unwantedValue
  | invalidValue
  | rejectedValue
  | repeated
  | missingEntity
  deriving DecidableEq, Repr

def UsageFault.name : UsageFault → String
  | help => "DisplayHelp"
  | helpForMissing => "DisplayHelpOnMissingArgumentOrSubcommand"
  | version => "DisplayVersion"
  | missingCommand => "MissingSubcommand"
  | unknownCommand => "InvalidSubcommand"
  | unknownArgument => "UnknownArgument"
  | unwantedValue => "TooManyValues"
  | invalidValue => "InvalidValue"
  | rejectedValue => "ValueValidation"
  | repeated => "ArgumentConflict"
  | missingEntity => "MissingRequiredArgument"

/-- What an argument is for. All but the entity are options. -/
inductive Slot where
  | entity
  | folder
  | filter
  | limit
  | offset
  | count
  | visibility
  | ownerUser
  | ownerGroup
  deriving DecidableEq, Repr

namespace Slot

def longName? : Slot → Option String
  | entity => none
  | folder => some "db-dir"
  | filter => some "filter"
  | limit => some "limit"
  | offset => some "offset"
  | count => some "count"
  | visibility => some "visibility"
  | ownerUser => some "owner-user"
  | ownerGroup => some "owner-group"

def letter? : Slot → Option Char
  | folder => some 'd'
  | filter => some 'f'
  | limit => some 'l'
  | offset => some 'o'
  | count => some 'c'
  | entity | visibility | ownerUser | ownerGroup => none

/-- Whether the value may start with a hyphen without being attached to the option. -/
def takesHyphen : Slot → Bool
  | limit | offset => true
  | _ => false

def repeats : Slot → Bool
  | ownerGroup => true
  | _ => false

end Slot

structure Arguments where
  entity : Option Entity := none
  folder : Option String := none
  raw : RawParams := {}
  visibility : Option Visibility := none
  ownerUser : Option Int := none
  ownerGroups : List Int := []
  deriving DecidableEq, Repr

/-- The word for an entity on the command line: its table's name with hyphens. -/
def entityWord (e : Entity) : String :=
  e.table.map fun c => if c = '_' then '-' else c

def entity? (s : String) : Option Entity :=
  Entity.all.find? fun e => entityWord e == s

def identity? (s : String) : Option Int :=
  match Text.readInteger .bits64 s.toList with
  | .ok n => some n
  | .error _ => none

namespace Arguments

def has (a : Arguments) : Slot → Bool
  | .entity => a.entity.isSome
  | .folder => a.folder.isSome
  | .filter => a.raw.filter.isSome
  | .limit => a.raw.limit.isSome
  | .offset => a.raw.offset.isSome
  | .count => a.raw.count.isSome
  | .visibility => a.visibility.isSome
  | .ownerUser => a.ownerUser.isSome
  | .ownerGroup => !a.ownerGroups.isEmpty

/-- Puts the text of a slot in. A parameter of a listing may be any text. -/
def put (a : Arguments) (s : String) : Slot → Except UsageFault Arguments
  | .entity =>
    match entity? s with
    | some e => .ok { a with entity := some e }
    | none => .error .invalidValue
  | .folder => if s.isEmpty then .error .invalidValue else .ok { a with folder := some s }
  | .filter => .ok { a with raw.filter := some s }
  | .limit => .ok { a with raw.limit := some s }
  | .offset => .ok { a with raw.offset := some s }
  | .count => .ok { a with raw.count := some s }
  | .visibility =>
    match Choice.ofWord? s with
    | some v => .ok { a with visibility := some v }
    | none => .error .rejectedValue
  | .ownerUser =>
    match identity? s with
    | some n => .ok { a with ownerUser := some n }
    | none => .error .rejectedValue
  | .ownerGroup =>
    match identity? s with
    | some n => .ok { a with ownerGroups := a.ownerGroups ++ [n] }
    | none => .error .rejectedValue

/-- Takes in what has been given for a slot. A missing text is noticed before a repetition, and a
repetition before a text that does not fit. -/
def take (a : Arguments) (slot : Slot) : Option String → Except UsageFault Arguments
  | none => .error .invalidValue
  | some s => if a.has slot && !slot.repeats then .error .repeated else a.put s slot

end Arguments

end AssetRegister.CommandLine
