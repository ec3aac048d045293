import AssetRegister.Condition.Predicate
import AssetRegister.Store.Database
import AssetRegister.Text.Wildcard

/-!
# The meaning of a predicate

A condition is true, false or unknown of a row, unknown being what any test of an absent value but
`isNull` gives. A hop is evaluated as its query text says: its column is sought among the identifiers
of the target rows for which the inner condition is true. A row matches if the conjunction is true.
-/

namespace AssetRegister

/-- True, false, or unknown (`none`). -/
abbrev Truth := Option Bool

namespace Truth

/-- The conjunction: false if either side is, otherwise unknown if either side is. -/
def and : Truth → Truth → Truth
  | some false, _ => some false
  | _, some false => some false
  | some true, b => b
  | a, some true => a
  | none, none => none

/-- The disjunction: true if either side is, otherwise unknown if either side is. -/
def or : Truth → Truth → Truth
  | some true, _ => some true
  | _, some true => some true
  | some false, b => b
  | a, some false => a
  | none, none => none

end Truth

def Operand.value : Operand → Value
  | integer n => .integer n
  | text s => .text s

namespace Test

/-- A stored value against an operand, which is first converted as the column would take it. -/
def compareWith (affinity : Affinity) (v : Value) (c : Comparison) (operand : Operand) : Truth :=
  (v.order? (affinity.convert operand.value)).map c.holds

def eval (affinity : Affinity) (v : Value) : Test → Truth
  | compare c operand => compareWith affinity v c operand
  | like pattern => v.codePoints?.map (Wildcard.isLike pattern)
  | ilike pattern => v.lowerText?.map fun s => Wildcard.isLike pattern (CodePoint.ofText s)
  | among operands =>
    operands.foldr (fun operand rest => (compareWith affinity v .eq operand).or rest) (some false)
  | isNull => some (v == .null)

end Test

/-- Whether a value is among identifiers: never if there are none, unknown if it is absent. -/
def Value.amongIds (v : Value) (ids : List Int) : Truth :=
  -- asked first, since an absent value is not among none either
  if ids.isEmpty then some false
  else match v with
    | .null => none
    | v => some (ids.any fun id => v.equal (.integer id))

namespace Condition

def evalHops (db : Database) (leaf : Row → Truth) : List Hop → Row → Truth
  | [], r => leaf r
  | h :: hops, r =>
    let inner := (db.rows h.target).filter fun t => evalHops db leaf hops t == some true
    (r.get h.column).amongIds (inner.map (·.id))

def evalLeaf (c : Condition) (r : Row) : Truth :=
  c.test.eval (c.path.owner.affinity c.path.column) (r.get c.path.column)

def eval (db : Database) (c : Condition) (r : Row) : Truth :=
  evalHops db c.evalLeaf c.path.hops r

end Condition

namespace Predicate

/-- The truth of a predicate on a row: the conjunction of its conditions. -/
def eval (db : Database) (p : Predicate) (r : Row) : Truth :=
  p.conditions.foldr (fun c rest => (c.eval db r).and rest) (some true)

def holds (db : Database) (p : Predicate) (r : Row) : Bool := p.eval db r == some true

end Predicate

/-- The rows of an entity that match, in the order of their identifiers. -/
def Database.matching (db : Database) (e : Entity) (p : Predicate) : List Row :=
  (db.rows e).filter (p.holds db)

end AssetRegister
