import AssetRegister.Store.Evaluate

/-!
# The limits of the store

A query may ask too much of the store. Its statement is refused before a row is read if it has too many
placeholders or too deep an expression, or if one of its operands is too long. While rows are read, it
fails as soon as a pattern that is too long is tried on one of them, whatever that row holds.

`Database.excess?` finds the limit that a predicate goes beyond, and `Predicate.Within` says that it keeps
them all. Of these only the tries of patterns depend on what is stored. With a pattern that is too long in it
a predicate holds of no row, so the order in which conditions are tried shows only in whether the pattern is
reported or nothing is found, and never in what is found within the limits. The order is that of the store's
planner: the content that one condition asks of a column stands for the column in the others, rows are looked
up by one condition if there is an identifier or an index for it, and those that the same index answers are
tried next. Which of several conditions rows are looked up by goes here by their kinds. The planner estimates
numbers of rows, so it may choose another one if they list many values or limit a range, and it takes both
limits of a range at once; this is not followed.

What is stored is taken to be no longer than an operand may be, and its lowercase too.
-/

namespace AssetRegister

/-- The limit that a query goes beyond. -/
inductive Excess where
  | placeholders
  | depth
  | operand
  | pattern
  deriving DecidableEq, Repr

namespace Limit

def placeholders : Nat := 32766

def depth : Nat := 1000

/-- The most bytes of an operand. -/
def operandSize : Nat := 1000000000

/-- The most bytes of a pattern. -/
def patternSize : Nat := 50000

end Limit

namespace Excess

/-- The number of characters before the placeholder of a number, which is counted from zero. -/
def beforePlaceholder : Nat → List Char → Nat
  | _, [] => 0
  | 0, '?' :: _ => 0
  | n + 1, '?' :: s => beforePlaceholder n s + 1
  | n, _ :: s => beforePlaceholder n s + 1

/-- The wording of an excess in the query with the given statement. -/
def message (statement : String) : Excess → String
  | placeholders =>
    "too many SQL variables in " ++ statement ++ " at offset "
      ++ Text.integerText (beforePlaceholder Limit.placeholders statement.toList)
  | depth =>
    "Expression tree is too large (maximum depth " ++ Text.integerText Limit.depth ++ ")"
  | operand => "string or blob too big"
  | pattern => "LIKE or GLOB pattern too complex"

end Excess

/-! ## Depth

An expression is one deeper than the deepest of its parts. A qualified column has two levels. -/

namespace Test

def depth : Test → Nat
  | among [] => 2
  | ilike _ => 4
  | compare .. | like _ | among _ | isNull => 3

/-- Whether the test has a pattern that is too long. -/
def overlong : Test → Bool
  | like pattern | ilike pattern => Limit.patternSize < pattern.utf8ByteSize
  | compare .. | among _ | isNull => false

end Test

namespace Condition

/-- The depth of the condition's query text: each subquery is one level above the test inside it. -/
def depth (c : Condition) : Nat := c.test.depth + c.path.hops.length

/-- The depths of the subqueries' conditions together, which the store adds up as it enters them. -/
def nestedDepth (c : Condition) : Nat :=
  (List.range c.path.hops.length).foldl (fun total above => total + (c.test.depth + above)) 0

end Condition

namespace Predicate

/-- The depth of a conjunction with one condition more at its end. Nothing before it has depth zero. -/
def joinedDepth (depth : Nat) (c : Condition) : Nat :=
  if depth = 0 then c.depth else max depth c.depth + 1

/-- The depth of the predicate's query text, subqueries being entered one at a time. -/
def depth (p : Predicate) : Nat :=
  p.conditions.foldl joinedDepth 0
    + p.conditions.foldr (fun c deepest => max c.nestedDepth deepest) 0

/-- Reads conditions from left to right, after ones with the given number of placeholders and the given
depth, and gives the first limit that they go beyond. -/
def readingExcess? (placeholders depth : Nat) : List Condition → Option Excess
  | [] => none
  | c :: cs =>
    let placeholders := placeholders + c.test.operands.length
    let depth := joinedDepth depth c
    -- a condition is read as a whole before it is joined to those before it
    if Limit.placeholders < placeholders then some .placeholders
    else if Limit.depth < depth then some .depth
    else readingExcess? placeholders depth cs

/-- The limit that the predicate's statement goes beyond, whatever is stored: it is read, its
subqueries are entered, and its operands are bound. -/
def statementExcess? (p : Predicate) : Option Excess :=
  match readingExcess? 0 0 p.conditions with
  | some limit => some limit
  | none =>
    if Limit.depth < p.depth then some .depth
    else if p.operands.any fun v => Limit.operandSize < v.size then some .operand
    else none

end Predicate

/-! ## Conditions one by one -/

namespace Condition

/-- The column of its own entity's table that a condition is about. -/
def column (c : Condition) : String :=
  match c.path.hops with
  | [] => c.path.column
  | h :: _ => h.column

/-- The truth of a condition where its column has the given content. -/
def truthOf (db : Database) (c : Condition) (v : Value) : Truth :=
  match c.path.hops with
  | [] => c.test.eval (c.path.owner.affinity c.path.column) v
  | h :: hops =>
    let inner := (db.rows h.target).filter fun t => evalHops db c.evalLeaf hops t == some true
    v.amongIds (inner.map (·.id))

/-- The content that the condition asks of its column, if that is all it asks. -/
def asked? (c : Condition) : Option Operand :=
  match c.path.hops, c.test with
  | [], .compare .eq v | [], .among [v] => some v
  | _, _ => none

/-- Whether the condition is known to hold of no row, whatever is stored. -/
def never (e : Entity) (c : Condition) : Bool :=
  c.path.hops.isEmpty && match c.test with
    | .among [] => true
    | .isNull => (e.column? c.path.column).all (·.required)
    | _ => false

/-- What of a column an index can look up for a condition. -/
inductive Lookup where
  | value
  | few
  | values
  | subquery
  | range
  deriving DecidableEq, Repr

/-- What the condition looks up in its own entity's table. -/
def lookup? (c : Condition) : Option Lookup :=
  match c.path.hops, c.test with
  | _ :: _, _ => some .subquery
  | [], .compare .eq _ | [], .among [_] | [], .isNull => some .value
  | [], .compare .ne _ => none
  | [], .compare _ _ => some .range
  | [], .among vs => if vs.length ≤ 3 then some .few else some .values
  | [], .like _ | [], .ilike _ => none

end Condition

/-! ## The order of tries -/

/-- A condition as it is tried. Where another condition asks for a content of its column, that content
stands for the column. -/
structure Try where
  condition : Condition
  content? : Option Value
  deriving DecidableEq, Repr

namespace Try

/-- The content that the first one of some conditions that asks for one asks of a column. -/
def asked? (e : Entity) (column : String) (cs : List Condition) : Option Value :=
  (cs.filter (·.column = column)).findSome? fun c =>
    c.asked?.map fun v => (e.affinity column).convert v.value

/-- The tries of conditions that stand behind others, which are given from the last one to the first. The
last condition that asks for a content of a column goes by what is stored, and all others by its content. -/
def all (e : Entity) (before : List Condition) : List Condition → List Try
  | [] => []
  | c :: cs =>
    let content? := match asked? e c.column cs.reverse with
      | some v => some v
      | none => if c.asked?.isSome then none else asked? e c.column before
    ⟨c, content?⟩ :: all e (c :: before) cs

def truth (db : Database) (t : Try) (r : Row) : Truth :=
  t.condition.truthOf db (t.content?.getD (r.get t.condition.column))

/-- Whether the condition is settled before any row is read. One that needs a pattern or a subquery is not. -/
def isSettled (t : Try) : Bool :=
  t.content?.isSome && t.condition.path.hops.isEmpty && match t.condition.test with
    | .like _ | .ilike _ => false
    | .compare .. | .among _ | .isNull => true

def isRefuted (db : Database) (t : Try) : Bool :=
  t.isSettled && t.content?.any fun v => t.condition.truthOf db v != some true

/-- The place of a condition among the ways of looking rows up, the best of which comes first. -/
def rank? (e : Entity) (t : Try) : Option Nat :=
  match t.content?, t.condition.lookup?, e.column? t.condition.column with
  -- what is no stored column is the identifier
  | none, some .value, none => some 0
  | none, some .few, none => some 2
  | none, some .values, none => some 4
  | none, some .range, none => some 8
  | none, some lookup, some column =>
    match lookup, column.unique, column.indexed with
    | .value, true, _ => some 1
    | .value, false, true => some 3
    | .few, true, _ | .values, true, _ => some 5
    | .few, false, true | .values, false, true => some 6
    | .subquery, _, true => some 7
    | _, _, _ => none
  | _, _, _ => none

/-- The try by which rows are looked up, if there is one. -/
def lookingUp? (e : Entity) (ts : List Try) : Option Try :=
  (List.range 9).findSome? fun rank => ts.find? fun t => t.rank? e == some rank

/-- Tries in the order in which they are made on a row. Behind the one by which rows are looked up come
those that its index answers too. -/
def inOrder (e : Entity) (ts : List Try) : List Try :=
  match lookingUp? e ts with
  | none => ts
  | some t =>
    let others := ts.erase t
    if (e.column? t.condition.column).isNone then t :: others
    else
      let isAnswered (u : Try) : Bool := [t.condition.column, e.primaryKey].contains u.condition.column
      t :: (others.filter isAnswered ++ others.filter (!isAnswered ·))

end Try

namespace Database

/-- Whether the subqueries along links are run down to the last one. One of them is run for the rows of the
table before it, or to look these rows up. -/
def reaches (db : Database) : List Hop → Bool
  | [] => true
  | h :: hops =>
    let looksUp := hops.head?.any fun next => (next.owner.column? next.column).any (·.indexed)
    (looksUp || !(db.rows h.target).isEmpty) && db.reaches hops

/-- Whether a condition that is tried fails: its pattern is too long, and there are rows behind its links to
try it on. -/
def failsOn (db : Database) (c : Condition) : Bool := c.test.overlong && db.reaches c.path.hops

/-- Whether tries on a row fail, which are made one after the other until one is not true. -/
def failsAt (db : Database) (r : Row) : List Try → Bool
  | [] => false
  | t :: ts => db.failsOn t.condition || (t.truth db r == some true && db.failsAt r ts)

/-- Whether trying the predicate on the rows of an entity fails. -/
def fails (db : Database) (e : Entity) (p : Predicate) : Bool :=
  let tries := Try.all e [] p.conditions
  let unsettled := tries.filter (!·.isSettled)
  -- if a condition is known not to hold, no row is read at all
  !(p.conditions.any (·.never e) || tries.any (·.isRefuted db)) &&
    -- a subquery by which rows are looked up is run even if there are none
    ((Try.lookingUp? e unsettled).any (fun t => db.failsOn t.condition) ||
      (db.rows e).any fun r => db.failsAt r (Try.inOrder e unsettled))

/-- The limit that a predicate on the rows of an entity goes beyond. -/
def excess? (db : Database) (e : Entity) (p : Predicate) : Option Excess :=
  match p.statementExcess? with
  | some limit => some limit
  | none => if db.fails e p then some .pattern else none

end Database

/-! ## Predicates within the limits -/

/-- That a predicate keeps all limits of the store. -/
structure Predicate.Within (p : Predicate) : Prop where
  placeholders : p.operands.length ≤ Limit.placeholders
  depth : p.depth ≤ Limit.depth
  operands : ∀ v ∈ p.operands, v.size ≤ Limit.operandSize
  patterns : ∀ c ∈ p.conditions, c.test.overlong = false

instance (p : Predicate) : Decidable p.Within :=
  decidable_of_iff (p.operands.length ≤ Limit.placeholders ∧ p.depth ≤ Limit.depth ∧
      (∀ v ∈ p.operands, v.size ≤ Limit.operandSize) ∧
      ∀ c ∈ p.conditions, c.test.overlong = false)
    ⟨fun ⟨h₁, h₂, h₃, h₄⟩ => ⟨h₁, h₂, h₃, h₄⟩, fun h => ⟨h.1, h.2, h.3, h.4⟩⟩

end AssetRegister
