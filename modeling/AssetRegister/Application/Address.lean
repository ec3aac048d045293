import AssetRegister.Settings.Quoted

/-!
# Addresses of databases

The path of a database is an address if it begins with `file:`. What follows is the path of a file
in which `%` and two hexadecimal digits stand for a byte. Options come after a question mark, and
what comes after a number sign is left out. An option can ask for a database in memory, or for one
that is only read.
-/

namespace AssetRegister

/-- Where a database is kept: in a file, or in memory for as long as the program runs. -/
structure Address where
  file : Option String
  writable : Bool := true
  created : Bool := true
  deriving DecidableEq, Repr

namespace Address

/-! ## Escapes -/

/-- The value of an escape at the front of a text. -/
def escape? : List Char → Option Nat
  | '%' :: a :: b :: _ => do
    return 16 * (← Scan.hexValue? a) + (← Scan.hexValue? b)
  | _ => none

/-- The bytes of a text with its escapes. The escape of a null ends it. -/
def bytes : List Char → List UInt8
  | [] => []
  | c :: s =>
    match escape? (c :: s) with
    | none => String.utf8EncodeChar c ++ bytes s
    | some 0 => []
    | some n => UInt8.ofNat n :: bytes (s.drop 2)
termination_by s => s.length
decreasing_by all_goals simp only [List.length_cons, List.length_drop]; omega

/-- The text that a text with escapes stands for. One that is none stands for what has no meaning
anywhere. -/
def unescaped (s : List Char) : String :=
  (String.fromUTF8? ⟨(bytes s).toArray⟩).getD "\uFFFD"

/-! ## Parts -/

/-- The part before a mark, and the part after it. -/
def cut (mark : Char) (s : List Char) : List Char × List Char :=
  (s.takeWhile (· != mark), (s.dropWhile (· != mark)).drop 1)

/-- The rest after the name of a machine, which can only be this one. -/
def withoutMachine? : List Char → Option (List Char)
  | '/' :: '/' :: s =>
    let machine := String.ofList (s.takeWhile (· != '/'))
    if machine = "" ∨ machine = "localhost" then some (s.dropWhile (· != '/')) else none
  | s => some s

/-- The option between two marks. -/
def option (s : String) : String × String :=
  let (name, value) := cut '=' s.toList
  (unescaped name, unescaped value)

/-- The options, from first to last. Those without a name have no effect. -/
def options (s : List Char) : List (String × String) :=
  (((String.ofList s).splitOn "&").map option).filter (·.1 ≠ "")

/-! ## Options -/

inductive Access where
  | readOnly
  | present
  | created
  | memory
  deriving DecidableEq, Repr

def Access.ofWord? : String → Option Access
  | "ro" => some readOnly
  | "rw" => some present
  | "rwc" => some created
  | "memory" => some memory
  | _ => none

def Access.rank : Access → Nat
  | readOnly => 0
  | present => 1
  | created => 2
  | memory => 3

/-- Takes an option in. No word after the first one can grant more, save for memory. -/
def Access.narrow (access : Access) (o : String × String) : Option Access :=
  if o.1 = "mode" then do
    let next ← ofWord? o.2
    guard (next = memory ∨ next.rank ≤ access.rank)
    return next
  else some access

def access? (os : List (String × String)) : Option Access := os.foldlM Access.narrow .created

/-- Whether the options that say how a database is shared have a meaning. -/
def sharesRightly (os : List (String × String)) : Bool :=
  os.all fun o => o.1 != "cache" || o.2 == "shared" || o.2 == "private"

/-- The ways of keeping files that there are, by name. -/
def keepers : List String := ["unix", "unix-none", "unix-dotfile", "unix-excl"]

def memoryKeeper : String := "memdb"

def keeper (os : List (String × String)) : String :=
  (os.reverse.lookup "vfs").getD "unix"

/-- Whether a word affirms: a number that is not zero, whatever follows it, or a word for it. -/
def affirms (s : String) : Bool :=
  let digits := s.toList.takeWhile Char.isDigit
  if digits.isEmpty then ["on", "yes", "true"].contains (s.map Char.toLower)
  else digits.any (· != '0')

def isFixed (os : List (String × String)) : Bool := (os.lookup "immutable").any affirms

/-! ## Reading an address -/

/-- Reads an address after its first word. -/
def read? (s : List Char) : Option Address := do
  let s ← withoutMachine? s
  -- the parts are cut before escapes are undone, so an escaped mark cuts nothing
  let (path, rest) := cut '?' (cut '#' s).1
  let path := unescaped path
  let os := options rest
  let access ← access? os
  guard (sharesRightly os)
  guard (keeper os == memoryKeeper || keepers.contains (keeper os))
  if access = .memory ∨ keeper os = memoryKeeper ∨ path = "" ∨ path = ":memory:" then
    return { file := none, writable := access ≠ .readOnly }
  else
    return {
      file := some path
      writable := access ≠ .readOnly && !isFixed os
      created := access = .created }

def scheme : String := "file:"

/-- The address that a path is, if it makes sense. -/
def ofPath? (path : String) : Option Address :=
  if path.startsWith scheme then read? (path.toList.drop scheme.length)
  else some { file := some path }

end Address

end AssetRegister
