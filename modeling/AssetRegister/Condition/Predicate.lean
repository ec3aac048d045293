import AssetRegister.Catalog.Path
import AssetRegister.Filter.Operator

/-!
# Conditions and predicates

A condition is a test of the attribute at the end of a path; a predicate is a conjunction of
conditions. A predicate has a query text with one placeholder for each bound operand
(`Predicate.queryText`, `Predicate.operands`); its meaning over stored rows is defined with the store.
-/

namespace AssetRegister

/-- A value that a condition is bound to. -/
inductive Operand where
  | integer (n : Int)
  | text (s : String)
  deriving DecidableEq, Repr

/-- The number of bytes of a text. -/
def Operand.size : Operand → Nat
  | integer _ => 0
  | text s => s.utf8ByteSize

/-- What is asked of an attribute. Patterns are kept with their percent signs. -/
inductive Test where
  | compare (c : Comparison) (operand : Operand)
  | like (pattern : String)
  | ilike (pattern : String)
  | among (operands : List Operand)
  | isNull
  deriving DecidableEq, Repr

namespace Test

/-- The operands bound by the test, in the order of its placeholders. -/
def operands : Test → List Operand
  | compare _ v => [v]
  | like pattern => [.text pattern]
  | ilike pattern => [.text pattern]
  | among vs => vs
  | isNull => []

/-- The query text of the test of a column. Membership in an empty list is a test that never holds,
since the list would have no text. -/
def queryText (column : String) : Test → String
  | compare c _ => column ++ " " ++ c.symbol ++ " ?"
  | like _ => column ++ " LIKE ?"
  | ilike _ => "unicode_lower(" ++ column ++ ") LIKE ?"
  | among [] => "0 = 1"
  | among vs => column ++ " IN (" ++ String.intercalate ", " (vs.map fun _ => "?") ++ ")"
  | isNull => column ++ " IS NULL"

end Test

/-- A text inside the subquery of a hop: the hop's column names a row of the target for which the
text holds. -/
def Hop.queryText (h : Hop) (inner : String) : String :=
  h.owner.qualified h.column ++ " IN (SELECT " ++ h.target.qualified h.target.primaryKey
    ++ " FROM " ++ h.target.table ++ " WHERE " ++ inner ++ ")"

/-- A test of the attribute that a path reaches. -/
structure Condition where
  path : Path
  test : Test
  deriving DecidableEq, Repr

namespace Condition

/-- The query text of the condition: the test inside one subquery for each hop, the first hop
outermost. -/
def queryText (c : Condition) : String :=
  c.path.hops.foldr Hop.queryText (c.test.queryText c.path.qualifiedColumn)

def equals (e : Entity) (field : String) (v : Operand) : Except UnknownField Condition :=
  (Path.resolve e .dotted field).map (⟨·, .compare .eq v⟩)

def isIn (e : Entity) (field : String) (vs : List Operand) : Except UnknownField Condition :=
  (Path.resolve e .dotted field).map (⟨·, .among vs⟩)

def isNull (e : Entity) (field : String) : Except UnknownField Condition :=
  (Path.resolve e .dotted field).map (⟨·, .isNull⟩)

end Condition

/-- A conjunction of conditions. -/
structure Predicate where
  conditions : List Condition
  deriving DecidableEq, Repr

namespace Predicate

def always : Predicate := ⟨[]⟩

def isAlways (p : Predicate) : Bool := p.conditions.isEmpty

def both (p q : Predicate) : Predicate := ⟨p.conditions ++ q.conditions⟩

def narrowed (p : Predicate) : Option Predicate → Predicate
  | none => p
  | some q => p.both q

/-- The query text: each condition in parentheses, joined by `AND`. -/
def queryText (p : Predicate) : String :=
  String.intercalate " AND " (p.conditions.map fun c => "(" ++ c.queryText ++ ")")

/-- The part of a statement that picks rows. There is none if every row is picked. -/
def restriction (p : Predicate) : String :=
  if p.isAlways then "" else "\nWHERE " ++ p.queryText

/-- The operands bound to the placeholders of the query text, from left to right. -/
def operands (p : Predicate) : List Operand :=
  p.conditions.flatMap fun c => c.test.operands

end Predicate

end AssetRegister
