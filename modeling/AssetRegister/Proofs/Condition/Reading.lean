import AssetRegister.Proofs.Condition.Built
import AssetRegister.Proofs.Condition.Reach

/-!
# The direct reading of a comparison

A comparison of a filter can be read without paths, conditions and query text: start at a row, follow
the relations that the field names one by one, and hold the content of the attribute named last against
the operand. `Token.fits` is this reading. It has two truth values only, since an absent content, an
absent key or a missing row simply does not fit.

`Token.fits_iff` says that a comparison that compiles becomes a condition with the same truth.
-/

namespace AssetRegister

open Outcome

/-! ## What a field leads to -/

/-- What a chain of names leads to from a row: an entity, one of its attributes, and the content that
the attribute has there. -/
structure Reading where
  owner : Entity
  named : Attribute
  content : Value

/-- Reads a chain of names at a row of an entity. -/
def Database.read? (db : Database) : Entity → List String → Row → Option Reading
  | _, [], _ => none
  | e, [name], r => do
    let a ← e.attribute? name
    return ⟨e, a, r.get a.column⟩
  | e, name :: next :: rest, r => do
    let a ← e.attribute? name
    let target ← a.type.target?
    let t ← db.referred? target (r.get a.column)
    db.read? target (next :: rest) t

/-! ## What an operator asks -/

namespace Reading

/-- The value that an operand stands for: the integer that it denotes if the attribute is numeric, and
otherwise the text itself. -/
def operand? (x : Reading) (operand : String) : Option Value :=
  match x.named.type.kind with
  | .numeric w => (Text.readInteger w operand.toList).toOption.map .integer
  | .text => some (.text operand)

/-- The order of the content and an operand, which is converted as the attribute's column would take
it. There is none if the content is absent. -/
def order? (x : Reading) (operand : String) : Option Ordering := do
  let v ← x.operand? operand
  x.content.order? ((x.owner.affinity x.named.column).convert v)

/-- Whether the content stands to the operand as the operator says. -/
def fits (x : Reading) (op : Operator) (operand : String) : Bool :=
  match op with
  | .comparison c => (x.order? operand).any c.holds
  | .like => x.content.codePoints?.any (Wildcard.isLike ("%" ++ operand ++ "%"))
  | .ilike => x.content.lowerText?.any fun s =>
      Wildcard.isLike ("%" ++ Text.lower operand ++ "%") (CodePoint.ofText s)

end Reading

/-- Whether a comparison, read directly, holds of a row. -/
def Token.fits (db : Database) (e : Entity) (t : Token) (r : Row) : Bool :=
  (db.read? e (Path.segments .underscored t.field) r).any (·.fits t.operator t.value)

/-- Whether a condition, read directly, holds of a row: its path leads to a row that passes its test. -/
def Condition.fits (db : Database) (c : Condition) (r : Row) : Bool :=
  (db.reach? c.path.hops r).any fun t => c.evalLeaf t == some true

/-! ## The two readings agree -/

/-- Names that resolve are read at the row to which the path's hops lead. Induction on the names, along
the cases of `Path.follow`. -/
theorem Database.read?_of_follow (db : Database) {names : List String} {e : Entity} {p : Path}
    (h : Path.follow e names = .ok p) :
    ∃ a : Attribute, p.column = a.column ∧ p.kind = a.type.kind ∧
      ∀ r, db.read? e names r =
        (db.reach? p.hops r).map fun t => ⟨p.owner, a, t.get p.column⟩ := by
  induction names generalizing e p with
  | nil => cases h
  | cons name rest ih =>
    cases rest with
    | nil =>
      obtain ⟨a, ha, rfl⟩ := Path.follow_singleton_eq_ok.mp h
      refine ⟨a, rfl, rfl, fun r => ?_⟩
      simp [Database.read?, Database.reach?, ha]
    | cons next rest =>
      obtain ⟨a, target, q, ha, htype, hq, rfl⟩ := Path.follow_cons_eq_ok.mp h
      obtain ⟨leaf, hcolumn, hkind, hread⟩ := ih hq
      refine ⟨leaf, hcolumn, hkind, fun r => ?_⟩
      simp only [Database.read?, Database.reach?, ha, htype, AttributeType.target?,
        Option.bind_eq_bind, Option.bind_some]
      -- without a row to go on from, neither reading gives anything
      cases db.referred? target (r.get a.column) with
      | none => rfl
      | some t => exact hread t

theorem Option.map_eq_some_true {α : Type} {x : Option α} {f : α → Bool} :
    x.map f = some true ↔ x.any f = true := by
  cases x <;> simp

/-- A comparison with the value that an operand stands for holds of a content that fits the operand. -/
theorem Reading.fits_comparison {x : Reading} {value : String} {operand : Operand}
    (h : x.operand? value = some operand.value) (c : Comparison) :
    (Test.compare c operand).eval (x.owner.affinity x.named.column) x.content = some true ↔
      x.fits (.comparison c) value = true := by
  simp only [Test.eval, Test.compareWith, Reading.fits, Reading.order?, h, Option.bind_eq_bind,
    Option.bind_some]
  exact Option.map_eq_some_true

/-- A test that an operator and an operand compile to is true of a content exactly if the content fits
them. One case for each operator and kind that compile. -/
theorem Reading.fits_iff {x : Reading} {op : Operator} {value : String} {test : Test}
    (h : Test.compile x.named.type.kind op value = .ok test) :
    test.eval (x.owner.affinity x.named.column) x.content = some true ↔ x.fits op value = true := by
  cases hkind : x.named.type.kind with
  | numeric w =>
    rw [hkind] at h
    cases op with
    | comparison c =>
      cases hn : Text.readInteger w value.toList with
      | error fault => simp [Test.compile, hn] at h
      | ok n =>
        have hoperand : x.operand? value = some (Operand.integer n).value := by
          simp [Reading.operand?, hkind, hn, Except.toOption, Operand.value]
        simp only [Test.compile, hn, Except.ok.injEq] at h
        subst h
        exact Reading.fits_comparison hoperand c
    -- a number has no pattern
    | like => cases h
    | ilike => cases h
  | text =>
    rw [hkind] at h
    have hoperand : x.operand? value = some (Operand.text value).value := by
      simp [Reading.operand?, hkind, Operand.value]
    cases op with
    | comparison c =>
      cases c with
      | eq => cases h; exact Reading.fits_comparison hoperand .eq
      | ne => cases h; exact Reading.fits_comparison hoperand .ne
      -- texts are only compared for equality
      | gt => cases h
      | lt => cases h
      | ge => cases h
      | le => cases h
    | like => cases h; exact Option.map_eq_some_true
    | ilike => cases h; exact Option.map_eq_some_true

/-- A condition is true of a row exactly if it fits the row. -/
theorem Condition.fits_iff {db : Database} (hdb : db.Ordered) {c : Condition} {r : Row} :
    c.eval db r = some true ↔ c.fits db r = true := by
  rw [Condition.eval_eq_true hdb, Condition.fits, Option.any_eq_true]
  refine exists_congr fun t => and_congr_right fun _ => ?_
  rw [beq_iff_eq]

/-- **A comparison that compiles means what it says.** -/
theorem Token.fits_iff {db : Database} (hdb : db.Ordered) {e : Entity} {t : Token} {c : Condition}
    (h : Condition.ofToken e t = .ok c) {r : Row} :
    c.eval db r = some true ↔ t.fits db e r = true := by
  unfold Condition.ofToken at h
  split at h
  · next p hp =>
    obtain ⟨test, htest, rfl⟩ := map_eq_ok.mp h
    obtain ⟨a, hcolumn, hkind, hread⟩ := db.read?_of_follow hp
    -- both readings end at the same row, or at none
    rw [Condition.eval_eq_true hdb, Token.fits, hread, Option.any_map, Option.any_eq_true]
    refine exists_congr fun u => and_congr_right fun _ => ?_
    rw [hkind] at htest
    show test.eval (p.owner.affinity p.column) (u.get p.column) = some true ↔ _
    rw [hcolumn]
    exact Reading.fits_iff (x := ⟨p.owner, a, u.get a.column⟩) htest
  · cases h

/-- The comparisons of a filter that compiles hold of a row exactly if its predicate does. -/
theorem Predicate.holds_of_ofTokens {db : Database} (hdb : db.Ordered) {e : Entity} {ts : List Token}
    {p : Predicate} (h : Predicate.ofTokens e ts = .ok p) {r : Row} :
    p.holds db r = true ↔ ∀ t ∈ ts, t.fits db e r = true := by
  have hall := Predicate.ofTokens_eq_ok.mp h
  rw [Predicate.holds_eq_true]
  generalize p.conditions = cs at hall
  clear h
  induction hall with
  | nil => simp
  | cons htoken _ ih =>
    rw [List.forall_mem_cons, List.forall_mem_cons]
    exact and_congr (Token.fits_iff hdb htoken) ih

end AssetRegister
