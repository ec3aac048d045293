import AssetRegister.Fault
import AssetRegister.Listing.Page
import AssetRegister.Store.Evaluate

/-!
# Listings

`Listing.query` turns parameters and an extra predicate into a query, or finds what is wrong with
them: the limit, the offset, a clause, a token, in this order. `Listing.run` hands the query to
whatever executes queries; nothing else does, and only a request without fault gets so far.
`Database.execute` executes a query on stored rows. It does not if the query goes beyond a limit of the
store.
-/

namespace AssetRegister

/-- What is asked of the store: one page of the rows that match, and their number if wished. -/
structure Query where
  entity : Entity
  predicate : Predicate
  page : Page
  withTotal : Bool
  deriving DecidableEq, Repr

def Query.statement (q : Query) : String :=
  "SELECT " ++ q.entity.selectList ++ "\nFROM " ++ q.entity.table ++ q.predicate.restriction
    ++ "\nORDER BY " ++ q.entity.qualified q.entity.primaryKey
    ++ "\nLIMIT " ++ Text.integerText q.page.size
    ++ " OFFSET " ++ Text.integerText q.page.offset

/-- One page of records, and the number of all matching rows if it was wished. -/
structure Items where
  records : List Record
  total : Option Nat
  deriving DecidableEq, Repr

def Items.document (items : Items) : Document :=
  .object [
    ("items", .list (items.records.map Record.document)),
    ("total", .optional (fun n => .integer n) items.total)]

namespace Listing

/-- The predicate of a filter text. No text means no condition. -/
def compile (e : Entity) (mode : ParseMode) : Option String → Except Fault Predicate
  | none => .ok .always
  | some filter =>
    match Token.ofFilter mode filter with
    | .error clause => .error (.malformed clause)
    | .ok tokens =>
      match Predicate.ofTokens e tokens with
      | .error fault => .error (.compile fault)
      | .ok p => .ok p

def query (e : Entity) (mode : ParseMode) (params : Params) (extra : Option Predicate) :
    Except Fault Query :=
  match params.validate with
  | .error fault => .error (.param fault)
  | .ok () =>
    (compile e mode params.filter).map fun p =>
      ⟨e, p.narrowed extra, .of params.limit params.offset, params.count⟩

/-- Lists a page of records by way of `execute`. The total is kept only if it was wished. -/
def run {m : Type → Type} [Monad m] (execute : Query → m (Except Fault Items)) (e : Entity)
    (mode : ParseMode) (params : Params) (extra : Option Predicate) : m (Except Fault Items) :=
  match query e mode params extra with
  | .error fault => pure (.error fault)
  | .ok q => do
    let answer ← execute q
    return answer.map fun items => { items with total := if q.withTotal then items.total else none }

end Listing

namespace Database

/-- Executes a query that keeps the limits of the store: the rows of the page are read into records, the
first that cannot be read being reported, and then the matching rows are counted. -/
def execute (db : Database) (q : Query) : Except Fault Items :=
  match db.excess? q.entity q.predicate with
  | some limit => .error (.excess limit q.statement)
  | none =>
    let rows := db.matching q.entity q.predicate
    match (q.page.window rows).mapM (Record.ofRow q.entity) with
    | .error fault => .error (.read fault)
    | .ok records => .ok ⟨records, if q.withTotal then some rows.length else none⟩

/-- Lists a page of records from stored rows. -/
def list (db : Database) (e : Entity) (mode : ParseMode) (params : Params)
    (extra : Option Predicate) : Except Fault Items :=
  Id.run (Listing.run (fun q => pure (db.execute q)) e mode params extra)

end Database

end AssetRegister
