import AssetRegister.Filter.Clause

/-!
# Tokens of a filter

A filter text is read into one token for each clause that holds a comparison. A clause without one
is dropped in lenient mode and refused in strict mode, unless it is blank. `Token.render` writes a
token back with its value in quotes.
-/

namespace AssetRegister

/-- One comparison of a filter: a field, an operator and the value it is compared with. -/
structure Token where
  field : String
  operator : Operator
  value : String
  deriving DecidableEq, Repr

/-- What becomes of a clause that holds no comparison. -/
inductive ParseMode where
  | lenient
  | strict
  deriving DecidableEq, Repr

/-- A clause that strict reading refuses, as it stands in the filter. -/
structure MalformedClause where
  text : String
  deriving DecidableEq, Repr

namespace Token

def ofWritten (w : Filter.Written) : Token :=
  ⟨String.ofList w.field, w.operator, String.ofList (Filter.literalValue w.literal)⟩

def ofClause? (clause : List Char) : Option Token :=
  (Filter.comparison? clause).map ofWritten

/-- The tokens of the clauses that hold a comparison. Strict reading stops at the first clause that
holds none and is not blank. -/
def ofClauses (mode : ParseMode) : List (List Char) → Except MalformedClause (List Token)
  | [] => .ok []
  | clause :: rest =>
    match ofClause? clause with
    | some token => (ofClauses mode rest).map (token :: ·)
    | none =>
      if mode = .strict ∧ ¬ Text.isBlankText clause then .error ⟨String.ofList clause⟩
      else ofClauses mode rest

/-- The tokens of a filter text. A blank one has none. -/
def ofFilter (mode : ParseMode) (filter : String) : Except MalformedClause (List Token) :=
  if Text.isBlankText filter.toList then .ok []
  else ofClauses mode (Filter.clauses filter.toList)

/-- A clause for the token, its value quoted. -/
def render (t : Token) : List Char :=
  t.field.toList ++ ' ' :: t.operator.symbol.toList ++ ' ' :: '\x27' :: t.value.toList ++ ['\x27']

def renderAll (ts : List Token) : String :=
  String.ofList ((ts.map render).intersperse [' ', 'a', 'n', 'd', ' ']).flatten

end Token

end AssetRegister
