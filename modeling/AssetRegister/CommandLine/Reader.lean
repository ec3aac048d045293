import AssetRegister.CommandLine.Arguments

/-!
# Reading the command line

The words are taken from left to right. An option waits for its value in the next word, if none is
attached to it, and what has been given is looked at only when something else comes up: so the first
fault in this order is the one reported.
-/

namespace AssetRegister.CommandLine

/-! ## Words -/

inductive Word where
  | separator
  | long (name : String) (value : Option String)
  | short (letter : Char) (attached : List Char)
  | plain
  deriving DecidableEq, Repr

/-- The name of a long option and the value attached to it after an equals sign. -/
def longForm (s : List Char) : Word :=
  let name := String.ofList (s.takeWhile (· != '='))
  match s.dropWhile (· != '=') with
  | [] => .long name none
  | _ :: value => .long name (some (String.ofList value))

/-- The form of a word. A hyphen alone is a plain word. -/
def Word.of (s : String) : Word :=
  match s.toList with
  | ['-', '-'] => .separator
  | '-' :: '-' :: name => longForm name
  | '-' :: letter :: attached => .short letter attached
  | _ => .plain

/-- The value attached to the letter of an option, without an equals sign before it. -/
def attachedValue? : List Char → Option String
  | [] => none
  | '=' :: value => some (String.ofList value)
  | value => some (String.ofList value)

/-! ## Levels -/

inductive CommandName where
  | init
  | list
  | fields
  deriving DecidableEq, Repr

namespace CommandName

def word : CommandName → String
  | init => "init"
  | list => "list"
  | fields => "fields"

def all : List CommandName := [init, list, fields]

def ofWord? (s : String) : Option CommandName :=
  all.find? fun c => c.word == s

end CommandName

/-- The word for the command that explains others. -/
def helpWord : String := "help"

def isCommandWord (s : String) : Bool :=
  (CommandName.ofWord? s).isSome || s == helpWord

/-- Where on the command line a word stands: before the command, or among its arguments. -/
inductive Level where
  | top
  | under (c : CommandName)
  deriving DecidableEq, Repr

def Level.slots : Level → List Slot
  | top | under .init => [.folder]
  | under .list =>
    [.entity, .folder, .filter, .limit, .offset, .count, .visibility, .ownerUser, .ownerGroup]
  | under .fields => [.entity, .folder]

/-- What an option does: it fills a slot, or it shows something at once. -/
inductive Effect where
  | fill (slot : Slot)
  | display (what : UsageFault)
  deriving DecidableEq, Repr

def Level.ofLongName? (l : Level) (name : String) : Option Effect :=
  if name = "help" then some (.display .help)
  else if name = "version" ∧ l = .top then some (.display .version)
  else (l.slots.find? fun s => s.longName? == some name).map .fill

def Level.ofLetter? (l : Level) (c : Char) : Option Effect :=
  if c = 'h' then some (.display .help)
  else if c = 'V' ∧ l = .top then some (.display .version)
  else (l.slots.find? fun s => s.letter? == some c).map .fill

/-! ## Progress -/

/-- A slot that has come up but is not taken in yet, with its text once there is one. -/
structure Pending where
  slot : Slot
  text : Option String
  deriving DecidableEq, Repr

/-- How far the reading of a level has come. -/
structure Progress where
  taken : Arguments := {}
  pending : Option Pending := none
  separated : Bool := false
  deriving DecidableEq, Repr

namespace Progress

def awaiting? (p : Progress) : Option Slot :=
  match p.pending with
  | some ⟨slot, none⟩ => some slot
  | _ => none

/-- Takes in what is pending. -/
def settle (p : Progress) : Except UsageFault Progress :=
  match p.pending with
  | none => .ok p
  | some ⟨slot, text⟩ =>
    (p.taken.take slot text).map fun taken => { p with taken := taken, pending := none }

/-- Starts an option, with its value if one is attached. An attached value is taken in at once. -/
def start (p : Progress) (slot : Slot) (value : Option String) : Except UsageFault Progress := do
  let p ← p.settle
  let p := { p with pending := some ⟨slot, value⟩ }
  if value.isSome then p.settle else return p

/-- Shows something, unless what is pending is at fault. -/
def display (p : Progress) (what : UsageFault) : Except UsageFault Progress := do
  let _ ← p.settle
  throw what

def lacksEntity (p : Progress) (l : Level) : Bool :=
  l.slots.contains .entity && !p.taken.has .entity && p.pending.all (·.slot != .entity)

/-- Why a word that is neither an option nor a value has no place. -/
def misplaced (p : Progress) (l : Level) (s : String) : UsageFault :=
  if l != .top || (p.separated && isCommandWord s) then .unknownArgument
  else .unknownCommand

/-- Takes a word by its place: the first one is the entity. -/
def place (p : Progress) (l : Level) (s : String) : Except UsageFault Progress :=
  if p.lacksEntity l then
    p.settle.map fun p => { p with pending := some ⟨.entity, some s⟩ }
  else .error (p.misplaced l s)

def option (p : Progress) (value : Option String) : Option Effect → Except UsageFault Progress
  | none => .error .unknownArgument
  | some (.fill slot) => p.start slot value
  | some (.display what) => p.display what

/-- Takes a word that is no value: an option or the separator. -/
def mark (p : Progress) (l : Level) : Word → Except UsageFault Progress
  | .long name value =>
    match l.ofLongName? name, value with
    -- the value is refused before anything pending is looked at
    | some (.display _), some _ => .error .unwantedValue
    | effect, value => p.option value effect
  | .short letter attached => p.option (attachedValue? attached) (l.ofLetter? letter)
  -- a plain word never gets here
  | .separator | .plain => .ok { p with separated := true }

def step (l : Level) (p : Progress) (s : String) : Except UsageFault Progress :=
  if p.separated then p.place l s
  else
    match p.awaiting?, Word.of s with
    | some slot, w =>
      -- an option that lacks its value is found out when the next one comes up
      if slot.takesHyphen || w == .plain then .ok { p with pending := some ⟨slot, some s⟩ }
      else p.mark l w
    | none, .plain => p.place l s
    | none, w => p.mark l w

end Progress

/-! ## Commands -/

inductive Command where
  | init
  | list (e : Entity) (given : Arguments)
  | fields (e : Entity)
  deriving DecidableEq, Repr

/-- What a command line says: the folder of the database, if it names one, and what to do. -/
structure Invocation where
  folder : Option String
  command : Command
  deriving DecidableEq, Repr

def readArguments (c : CommandName) (words : List String) : Except UsageFault Arguments := do
  let p ← words.foldlM (Progress.step (.under c)) {}
  let p ← p.settle
  return p.taken

def CommandName.command (c : CommandName) (given : Arguments) : Except UsageFault Command :=
  match c, given.entity with
  | .init, _ => .ok .init
  | .list, some e => .ok (.list e given)
  | .fields, some e => .ok (.fields e)
  | _, none => .error .missingEntity

/-- What the help command shows: help, if the words after it name at most one command. -/
def explain : List String → UsageFault
  | [] => .help
  | [s] => if isCommandWord s then .help else .unknownCommand
  | _ => .unknownCommand

/-- What is wrong with a command line that ends before its command. -/
def unfinished (p : Progress) : UsageFault :=
  match p.settle with
  | .error fault => fault
  | .ok p => if p.taken = {} then .helpForMissing else .missingCommand

/-- Reads the words from where the level above all commands has come. A folder named after the
command counts more than one named before. -/
def readFrom (p : Progress) : List String → Except UsageFault Invocation
  | [] => .error (unfinished p)
  | s :: rest =>
    match p.separated || p.awaiting?.isSome, CommandName.ofWord? s with
    | false, some c => do
      let given ← readArguments c rest
      let command ← c.command given
      -- what is still pending above the command is taken in last
      let top ← p.settle
      return ⟨given.folder <|> top.taken.folder, command⟩
    | closed, _ => do
      if !closed && s == helpWord then throw (explain rest)
      readFrom (← p.step .top s) rest

def read (words : List String) : Except UsageFault Invocation := readFrom {} words

end AssetRegister.CommandLine
