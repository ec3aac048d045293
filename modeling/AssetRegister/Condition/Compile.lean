import AssetRegister.Condition.Predicate
import AssetRegister.Filter.Token
import AssetRegister.Text.Lower

/-!
# From tokens to predicates

A token's field is resolved first, then its operator is checked against the attribute's kind, then
its value is read. Numeric attributes know the six comparisons of an integer of their width; all
others know equality and the two substring tests.
-/

namespace AssetRegister

/-- Why a token gives no condition. -/
inductive CompileFault where
  | unknownField (fault : UnknownField)
  | unknownOperator (symbol : String)
  | unsupportedOperator (op : Operator) (kind : Kind)
  | invalidOperand (value : String) (fault : IntegerFault)
  deriving DecidableEq, Repr

namespace Test

/-- The pattern of the texts that contain a match of `s`. -/
def containing (s : String) : String := "%" ++ s ++ "%"

/-- The test that an operator and a value ask of an attribute of the given kind. -/
def compile (kind : Kind) (op : Operator) (value : String) : Except CompileFault Test :=
  match kind, op with
  | .numeric w, .comparison c =>
    match Text.readInteger w value.toList with
    | .ok n => .ok (.compare c (.integer n))
    | .error fault => .error (.invalidOperand value fault)
  | .text, .comparison .eq => .ok (.compare .eq (.text value))
  | .text, .comparison .ne => .ok (.compare .ne (.text value))
  | .text, .like => .ok (.like (containing value))
  -- the store puts the column into lowercase, so the value is all that is left to do
  | .text, .ilike => .ok (.ilike (containing (Text.lower value)))
  | kind, op => .error (.unsupportedOperator op kind)

end Test

namespace Condition

def compile (p : Path) (op : Operator) (value : String) : Except CompileFault Condition :=
  (Test.compile p.kind op value).map (⟨p, ·⟩)

/-- The condition on a resolved attribute, the operator given by its symbol. -/
def compileSymbol (p : Path) (symbol value : String) : Except CompileFault Condition :=
  match Operator.ofSymbol? symbol with
  | some op => compile p op value
  | none => .error (.unknownOperator symbol)

def ofToken (e : Entity) (t : Token) : Except CompileFault Condition :=
  match Path.resolve e .underscored t.field with
  | .ok p => compile p t.operator t.value
  | .error fault => .error (.unknownField fault)

end Condition

/-- The conjunction of the tokens' conditions. The first token that gives none is reported. -/
def Predicate.ofTokens (e : Entity) (ts : List Token) : Except CompileFault Predicate :=
  (ts.mapM (Condition.ofToken e)).map (⟨·⟩)

end AssetRegister
