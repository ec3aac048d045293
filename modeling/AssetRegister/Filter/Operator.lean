/-!
# Operators of a filter

Six comparisons and two substring tests. Each operator has one symbol, and a symbol names at most
one operator.
-/

namespace AssetRegister

inductive Comparison where
  | eq
  | ne
  | gt
  | lt
  | ge
  | le
  deriving DecidableEq, Repr

namespace Comparison

/-- The symbol of a comparison, in filters and in query text. -/
def symbol : Comparison → String
  | eq => "="
  | ne => "!="
  | gt => ">"
  | lt => "<"
  | ge => ">="
  | le => "<="

/-- Whether the comparison holds of two values that stand in the given order. -/
def holds : Comparison → Ordering → Bool
  | eq, o => o == .eq
  | ne, o => o != .eq
  | gt, o => o == .gt
  | lt, o => o == .lt
  | ge, o => o != .lt
  | le, o => o != .gt

end Comparison

/-- What a filter can ask of an attribute. `ilike` is `like` without regard to letter case. -/
inductive Operator where
  | comparison (c : Comparison)
  | like
  | ilike
  deriving DecidableEq, Repr

namespace Operator

def symbol : Operator → String
  | comparison c => c.symbol
  | like => "like"
  | ilike => "ilike"

def all : List Operator :=
  [comparison .eq, comparison .ne, comparison .gt, comparison .lt, comparison .ge, comparison .le,
    like, ilike]

def ofSymbol? (s : String) : Option Operator :=
  all.find? fun op => op.symbol == s

end Operator

end AssetRegister
