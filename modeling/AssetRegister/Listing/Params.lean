import AssetRegister.Record.Document
import AssetRegister.Text.Blank
import AssetRegister.Text.Lower
import AssetRegister.Text.Quotation

/-!
# Parameters of a listing

`Params` is what a listing is asked with. `RawParams` is how it arrives: four texts, each of which
may be absent. `RawParams.resolve` always gives usable parameters, since a text that is no positive
number stands for the default.
-/

namespace AssetRegister

structure Params where
  limit : Int := 10
  offset : Int := 0
  count : Bool := true
  filter : Option String := none
  deriving DecidableEq, Repr

/-- A parameter that no listing can have. -/
inductive ParamFault where
  | limit (n : Int)
  | offset (n : Int)
  deriving DecidableEq, Repr

def ParamFault.message : ParamFault → String
  | limit n => "limit must be greater than 0, got " ++ Text.integerText n
  | offset n => "offset must not be negative, got " ++ Text.integerText n

/-- Checks the limit, then the offset. -/
def Params.validate (p : Params) : Except ParamFault Unit :=
  if p.limit ≤ 0 then .error (.limit p.limit)
  else if p.offset < 0 then .error (.offset p.offset)
  else .ok ()

structure RawParams where
  limit : Option String := none
  offset : Option String := none
  count : Option String := none
  filter : Option String := none
  deriving DecidableEq, Repr

namespace RawParams

/-- The positive 32-bit integer that a text denotes, or else the default. -/
def positiveOr (fallback : Int) : Option String → Int
  | none => fallback
  | some s =>
    match Text.readInteger .bits32 s.toList with
    | .ok n => if 0 < n then n else fallback
    | .error _ => fallback

/-- Whether a text affirms. No text and the empty text do. -/
def flag : Option String → Bool
  | none => true
  | some s => s == "" || ["true", "yes", "1"].contains (Text.lower (Text.trim s))

def resolve (raw : RawParams) : Params where
  limit := positiveOr 10 raw.limit
  offset := positiveOr 0 raw.offset
  count := flag raw.count
  filter := raw.filter

end RawParams

/-! ## Reading parameters from a document -/

/-- Why a document does not hold what is expected of it. -/
inductive DocumentFault where
  | invalidType (found : Document) (expected : String)
  | invalidLength (length : Nat)
  | invalidValue (found : Document) (expected : String)
  | unknownWord (word : String) (expected : List String)
  deriving Repr

namespace Document

def describe : Document → String
  | null => "null"
  | flag b => "boolean `" ++ (if b then "true" else "false") ++ "`"
  | integer n => "integer `" ++ Text.integerText n ++ "`"
  | real x => "floating point `" ++ realText x ++ "`"
  | text s => "string " ++ Text.quoted s
  | list _ => "sequence"
  | object _ => "map"

end Document

namespace DocumentFault

/-- Some words in backticks, as alternatives. -/
def alternatives (words : List String) : String :=
  match words.map fun w => "`" ++ w ++ "`" with
  | [] => "nothing"
  | [a] => a
  | [a, b] => a ++ " or " ++ b
  | quoted => "one of " ++ String.intercalate ", " quoted

def message : DocumentFault → String
  | invalidType found expected => "invalid type: " ++ found.describe ++ ", expected " ++ expected
  | invalidLength n =>
    "invalid length " ++ Text.integerText n ++ ", expected fewer elements in array"
  | invalidValue found expected => "invalid value: " ++ found.describe ++ ", expected " ++ expected
  | unknownWord word expected =>
    "unknown variant `" ++ word ++ "`, expected " ++ alternatives expected

end DocumentFault

namespace RawParams

def textOf : Document → Except DocumentFault (Option String)
  | .null => .ok none
  | .text s => .ok (some s)
  | d => .error (.invalidType d "a string")

/-- The parameters with the member of an object taken in. Other members are ignored. -/
def withMember (raw : RawParams) (name : String) (d : Document) :
    Except DocumentFault RawParams :=
  match name with
  | "limit" => (textOf d).map fun s => { raw with limit := s }
  | "offset" => (textOf d).map fun s => { raw with offset := s }
  | "count" => (textOf d).map fun s => { raw with count := s }
  | "filter" => (textOf d).map fun s => { raw with filter := s }
  | _ => .ok raw

/-- The parameters, in the order in which a list gives them. -/
def names : List String := ["limit", "offset", "count", "filter"]

def ofMembers (members : List (String × Document)) : Except DocumentFault RawParams :=
  members.foldlM (fun raw m => raw.withMember m.1 m.2) {}

/-- Reads parameters: an object's members by name, or a list's items by position. -/
def ofDocument : Document → Except DocumentFault RawParams
  | .object members => ofMembers members
  | .list items => do
    let raw ← ofMembers (names.zip items)
    if names.length < items.length then .error (.invalidLength items.length) else .ok raw
  | d => .error (.invalidType d "struct RawListParams")

end RawParams

end AssetRegister
