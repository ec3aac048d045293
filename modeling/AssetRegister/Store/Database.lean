import AssetRegister.Store.Column

/-!
# The stored tables

A table keeps its rows in increasing order of identifiers, together with the largest identifier it
has ever given to a new row. The steps `insert`, `update` and `delete` either give the next state or
the first constraint that the step would break, and then nothing has changed.
-/

namespace AssetRegister

/-- A stored row: its identifier, and its other cells in the order of the table's columns. -/
structure Row where
  id : Int
  cells : List (String × Value)
  deriving DecidableEq, Repr

def Row.get (r : Row) (column : String) : Value :=
  if column = "id" then .integer r.id else (r.cells.lookup column).getD .null

/-- The rows of a table in increasing order of identifiers, and the largest identifier ever given. -/
structure Table where
  rows : List Row := []
  lastId : Int := 0
  deriving DecidableEq, Repr

/-- The five tables, and the version of the schema that the store says it has. -/
structure Database where
  users : Table := {}
  userGroups : Table := {}
  assets : Table := {}
  assetFiles : Table := {}
  suppliers : Table := {}
  schemaVersion? : Option Value := some (.text "1")
  deriving DecidableEq, Repr

inductive StoreFault where
  | noSuchColumn (table : Option Entity) (column : String)
  | notAnIdentifier
  | identifiersExhausted
  | notNull (table : Entity) (column : String)
  | unique (table : Entity) (column : String)
  | foreignKey
  deriving DecidableEq, Repr

def StoreFault.message : StoreFault → String
  | noSuchColumn (some e) column => "table " ++ e.table ++ " has no column named " ++ column
  | noSuchColumn none column => "no such column: " ++ column
  | notAnIdentifier => "datatype mismatch"
  | identifiersExhausted => "database or disk is full"
  | notNull e column => "NOT NULL constraint failed: " ++ e.qualified column
  | unique e column => "UNIQUE constraint failed: " ++ e.qualified column
  | foreignKey => "FOREIGN KEY constraint failed"

namespace Table

def row? (t : Table) (id : Int) : Option Row := t.rows.find? fun r => r.id == id

/-- The largest identifier in the table or ever given to a new row. -/
def topId (t : Table) : Int := t.rows.foldl (fun top r => max top r.id) t.lastId

def without (rows : List Row) (id : Int) : List Row := rows.filter fun r => r.id != id

def place (row : Row) : List Row → List Row
  | [] => [row]
  | r :: rows => if row.id < r.id then row :: r :: rows else r :: place row rows

end Table

namespace Database

def table (db : Database) : Entity → Table
  | .users => db.users
  | .userGroups => db.userGroups
  | .assets => db.assets
  | .assetFiles => db.assetFiles
  | .suppliers => db.suppliers

def withTable (db : Database) (t : Table) : Entity → Database
  | .users => { db with users := t }
  | .userGroups => { db with userGroups := t }
  | .assets => { db with assets := t }
  | .assetFiles => { db with assetFiles := t }
  | .suppliers => { db with suppliers := t }

def rows (db : Database) (e : Entity) : List Row := (db.table e).rows

/-! ## Constraints -/

/-- Whether a reference is absent or names a row of the target. -/
def referenceHolds (db : Database) (target : Entity) (v : Value) : Bool :=
  v == .null || (db.rows target).any fun r => v == .integer r.id

def rowReferencesHold (db : Database) (e : Entity) (r : Row) : Bool :=
  e.columns.all fun c =>
    match c.references? with
    | some target => db.referenceHolds target (r.get c.name)
    | none => true

def referencesHold (db : Database) : Bool :=
  Entity.all.all fun e => (db.rows e).all (db.rowReferencesHold e)

def checked (db : Database) : Except StoreFault Database :=
  if db.referencesHold then .ok db else .error .foreignKey

/-- The first column that has to be present and is not. -/
def missing? (e : Entity) (r : Row) : Option Column :=
  e.columns.find? fun c => c.required && r.get c.name == .null

/-- The first unique column whose content another row has too. -/
def repeated? (e : Entity) (others : List Row) (r : Row) : Option Column :=
  e.columns.find? fun c => c.unique && others.any fun o => (o.get c.name).equal (r.get c.name)

def checkRow (e : Entity) (others : List Row) (r : Row) : Except StoreFault Unit :=
  match missing? e r with
  | some c => .error (.notNull e c.name)
  | none =>
    if others.any fun o => o.id == r.id then .error (.unique e e.primaryKey)
    else match repeated? e others r with
      | some c => .error (.unique e c.name)
      | none => .ok ()

def unknownColumn? (e : Entity) (given : List (String × Value)) : Option String :=
  (given.find? fun g => g.1 != e.primaryKey && (e.column? g.1).isNone).map (·.1)

def identifier? (v : Value) : Option Int :=
  match Affinity.numeric.convert v with
  | .integer n => some n
  | _ => none

/-! ## Steps -/

/-- The identifier of a new row: the given one, or one more than the largest ever seen. -/
def newId (t : Table) : Option Value → Except StoreFault Int
  | none | some .null =>
    if t.topId < Width.bits64.greatest then .ok (t.topId + 1) else .error .identifiersExhausted
  | some v =>
    match identifier? v with
    | some n => .ok n
    | none => .error .notAnIdentifier

/-- The cells of a new row: the given values as their columns take them, defaults for the others. -/
def newCells (e : Entity) (given : List (String × Value)) : List (String × Value) :=
  e.columns.map fun c => (c.name, c.affinity.convert ((given.lookup c.name).getD c.default))

/-- Adds a row with the given columns and gives its identifier. -/
def insert (db : Database) (e : Entity) (given : List (String × Value)) :
    Except StoreFault (Database × Int) := do
  if let some column := unknownColumn? e given then
    throw (.noSuchColumn (some e) column)
  let t := db.table e
  let id ← newId t (given.lookup e.primaryKey)
  let row : Row := ⟨id, newCells e given⟩
  checkRow e t.rows row
  -- references are looked at last, so that a row may refer to itself
  let db ← (db.withTable ⟨Table.place row t.rows, max t.lastId id⟩ e).checked
  return (db, id)

def changedId (r : Row) : Option Value → Except StoreFault Int
  | none => .ok r.id
  | some v =>
    match identifier? v with
    | some n => .ok n
    | none => .error .notAnIdentifier

def changedCells (e : Entity) (r : Row) (given : List (String × Value)) : List (String × Value) :=
  e.columns.map fun c =>
    (c.name, match given.lookup c.name with
      | some v => c.affinity.convert v
      | none => r.get c.name)

/-- Changes the given columns of a row and gives the number of rows that it changed. -/
def update (db : Database) (e : Entity) (id : Int) (given : List (String × Value)) :
    Except StoreFault (Database × Nat) := do
  if let some column := unknownColumn? e given then
    throw (.noSuchColumn none column)
  let t := db.table e
  match t.row? id with
  | none => return (db, 0)
  | some r =>
    let row : Row := ⟨← changedId r (given.lookup e.primaryKey), changedCells e r given⟩
    -- a row does not stand in its own way
    let others := Table.without t.rows id
    checkRow e others row
    -- a changed identifier does not count as given
    let db ← (db.withTable { t with rows := Table.place row others } e).checked
    return (db, 1)

/-- Removes a row and gives the number of rows that it removed. -/
def delete (db : Database) (e : Entity) (id : Int) : Except StoreFault (Database × Nat) := do
  let t := db.table e
  match t.row? id with
  | none => return (db, 0)
  | some _ =>
    let db ← (db.withTable { t with rows := Table.without t.rows id } e).checked
    return (db, 1)

/-- Adds several rows to one table, or none of them. -/
def insertAll (db : Database) (e : Entity) :
    List (List (String × Value)) → Except StoreFault Database
  | [] => .ok db
  | given :: rest =>
    match db.insert e given with
    | .ok (db, _) => db.insertAll e rest
    | .error fault => .error fault

/-! ## The schema's version -/

/-- The version that this library's tables have. -/
def currentVersion : String := "1"

inductive VersionFault where
  | mismatch (found : String)
  | missing
  | unreadable (found : StorageClass)
  | garbled (fault : Utf8.Fault)
  deriving DecidableEq, Repr

/-- Checks that the store has the current version. It changes nothing. -/
def checkVersion (db : Database) : Except VersionFault Unit :=
  match db.schemaVersion? with
  | none => .error .missing
  | some (.text s) => if s = currentVersion then .ok () else .error (.mismatch s)
  | some (.garbled g) => .error (.garbled g.fault)
  | some v => .error (.unreadable v.storageClass)

/-- Sets the stored version, or removes it, and gives the number of rows changed. A version that has
been removed cannot be set again. -/
def setVersion (db : Database) : Value → Database × Nat
  | .null => ({ db with schemaVersion? := none }, db.schemaVersion?.toList.length)
  | v => ({ db with schemaVersion? := db.schemaVersion?.map fun _ => Affinity.text.convert v },
      db.schemaVersion?.toList.length)

end Database

end AssetRegister
