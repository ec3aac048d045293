import AssetRegister.Condition.Compile
import AssetRegister.Proofs.Catalog.Chain
import AssetRegister.Proofs.Text.Integer

/-!
# The comparisons that are refused

A comparison can have several things wrong with it, and one of them is reported. `Token.Refused` says
which, without the function that compiles: the field comes before the operator and the operator before
the operand. `Condition.ofToken_eq_error` says that compiling reports it.
-/

namespace AssetRegister

open Outcome

/-- The operators that attributes of a kind know. -/
def Kind.allows : Kind → Operator → Bool
  | numeric _, .comparison _ => true
  | text, .comparison .eq => true
  | text, .comparison .ne => true
  | text, .like => true
  | text, .ilike => true
  | _, _ => false

/-- What is reported of a comparison on an entity, of all that may be wrong with it: the leftmost name
that does not fit, else the operator, else the operand. -/
inductive Token.Refused (e : Entity) (t : Token) : CompileFault → Prop where
  | field {fault : UnknownField} {before after : List String}
      (hnames : Path.segments .underscored t.field = before ++ fault.segment :: after)
      (halong : e.along? before = some fault.entity)
      (hstops : fault.entity.Stops fault.segment after) :
      Refused e t (.unknownField fault)
  | operator {p : Path} (hp : Path.resolve e .underscored t.field = .ok p)
      (hop : p.kind.allows t.operator = false) :
      Refused e t (.unsupportedOperator t.operator p.kind)
  | operand {p : Path} {w : Width} {fault : IntegerFault}
      (hp : Path.resolve e .underscored t.field = .ok p) (hkind : p.kind = .numeric w)
      (hop : p.kind.allows t.operator = true)
      (hvalue : ¬∃ n, Text.Denotes t.value.toList n ∧ w.Holds n)
      (hfault : Text.readInteger w t.value.toList = .error fault) :
      Refused e t (.invalidOperand t.value fault)

/-- A test is refused for its operator or else for its operand. One case for each operator and kind. -/
theorem Test.compile_eq_error {kind : Kind} {op : Operator} {value : String} {fault : CompileFault} :
    Test.compile kind op value = .error fault ↔
      kind.allows op = false ∧ fault = .unsupportedOperator op kind ∨
        kind.allows op = true ∧ ∃ w reason, kind = .numeric w ∧
          Text.readInteger w value.toList = .error reason ∧ fault = .invalidOperand value reason := by
  cases kind with
  | numeric w =>
    cases op with
    | comparison c =>
      unfold Test.compile
      dsimp only
      cases hread : Text.readInteger w value.toList with
      | ok n => simp [Kind.allows, hread]
      | error reason =>
        dsimp only
        constructor
        -- every operator is known for numbers, so only the operand can be at fault
        · rintro ⟨⟩
          exact .inr ⟨rfl, w, reason, rfl, hread, rfl⟩
        · rintro (⟨⟨⟩, -⟩ | ⟨-, _, _, ⟨⟩, hreason, rfl⟩)
          cases hreason.symm.trans hread
          rfl
    | like | ilike => simp [Test.compile, Kind.allows, eq_comm]
  | text =>
    cases op with
    | comparison c => cases c <;> simp [Test.compile, Kind.allows, eq_comm]
    | like | ilike => simp [Test.compile, Kind.allows]

/-- A comparison is refused for its field, or else for the test of what the field leads to. -/
theorem Condition.ofToken_eq_error_cases {e : Entity} {t : Token} {fault : CompileFault} :
    Condition.ofToken e t = .error fault ↔
      (∃ stop, Path.resolve e .underscored t.field = .error stop ∧ fault = .unknownField stop) ∨
        ∃ p, Path.resolve e .underscored t.field = .ok p ∧
          Test.compile p.kind t.operator t.value = .error fault := by
  unfold Condition.ofToken
  cases Path.resolve e .underscored t.field with
  | error stop => simp [eq_comm]
  | ok p =>
    show (Test.compile p.kind t.operator t.value).map _ = .error fault ↔ _
    rw [map_eq_error]
    simp

/-- **A comparison is refused for the first thing that is wrong with it.** -/
theorem Condition.ofToken_eq_error {e : Entity} {t : Token} {fault : CompileFault} :
    Condition.ofToken e t = .error fault ↔ t.Refused e fault := by
  rw [Condition.ofToken_eq_error_cases]
  constructor
  · rintro (⟨stop, hstop, rfl⟩ | ⟨p, hp, htest⟩)
    · obtain ⟨before, after, hnames, halong, hstops⟩ := Path.resolve_eq_error.mp hstop
      exact .field hnames halong hstops
    · rcases Test.compile_eq_error.mp htest with ⟨hop, rfl⟩ | ⟨hop, w, reason, hkind, hreason, rfl⟩
      · exact .operator hp hop
      -- an operand is refused exactly if it denotes no integer of the width
      · have hvalue := Text.exists_readInteger_eq_error.mp ⟨reason, hreason⟩
        exact .operand hp hkind hop hvalue hreason
  · intro h
    cases h with
    | field hnames halong hstops =>
      exact .inl ⟨_, Path.resolve_eq_error.mpr ⟨_, _, hnames, halong, hstops⟩, rfl⟩
    | operator hp hop =>
      exact .inr ⟨_, hp, Test.compile_eq_error.mpr (.inl ⟨hop, rfl⟩)⟩
    | operand hp hkind hop _ hfault =>
      exact .inr ⟨_, hp, Test.compile_eq_error.mpr (.inr ⟨hop, _, _, hkind, hfault, rfl⟩)⟩

/-- A comparison compiles exactly if nothing is wrong with it. -/
theorem Condition.exists_ofToken_eq_ok {e : Entity} {t : Token} :
    (∃ c, Condition.ofToken e t = .ok c) ↔ ∀ fault, ¬t.Refused e fault := by
  simp only [← Condition.ofToken_eq_error]
  cases Condition.ofToken e t <;> simp

/-- Comparisons are refused for the leftmost of them that is. -/
theorem Predicate.ofTokens_eq_error {e : Entity} {ts : List Token} {fault : CompileFault} :
    Predicate.ofTokens e ts = .error fault ↔
      ∃ before t after, ts = before ++ t :: after ∧
        (∀ u ∈ before, ∃ c, Condition.ofToken e u = .ok c) ∧ t.Refused e fault := by
  unfold Predicate.ofTokens
  simp only [map_eq_error, mapM_eq_error, Condition.ofToken_eq_error]

end AssetRegister
