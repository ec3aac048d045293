import AssetRegister.Listing.Scope
import AssetRegister.Proofs.Condition.Nested
import AssetRegister.Proofs.Listing.Selected

/-!
# Being one of some values

The test that an attribute is one of some values is true of a row exactly if a test of equality with one
of them is, also behind links and also where the column takes a value in another form than it is given.
So the order of the values and their repetitions do not matter, no value at all is never met, and a single
value is met as by a test of equality. The scopes of groups are unions in the same way.

Main statement: `Condition.isIn_iff_exists_equals`.
-/

namespace AssetRegister

open Outcome

namespace Test

/-- Induction on the values: one more is one more alternative. -/
theorem eval_among {affinity : Affinity} {v : Value} {operands : List Operand} :
    (among operands).eval affinity v = some true ↔
      ∃ operand ∈ operands, (compare .eq operand).eval affinity v = some true := by
  induction operands with
  | nil => simp [eval]
  | cons operand operands ih =>
    show Truth.or ((compare .eq operand).eval affinity v) ((among operands).eval affinity v) =
      some true ↔ _
    rw [Truth.or_eq_true, ih]
    simp only [List.mem_cons, exists_eq_or_imp]

end Test

namespace Condition

/-- Whatever value is met, it is met at the row to which the links lead, so the alternatives can be told
apart before the links are followed. -/
theorem eval_among {db : Database} {p : Path} {vs : List Operand} {r : Row} :
    (Condition.mk p (.among vs)).eval db r = some true ↔
      ∃ v ∈ vs, (Condition.mk p (.compare .eq v)).eval db r = some true := by
  show evalHops db _ p.hops r = some true ↔ ∃ v ∈ vs, evalHops db _ p.hops r = some true
  simp only [evalHops_iff_leads]
  constructor
  · rintro ⟨t, ht, hleaf⟩
    obtain ⟨v, hv, heq⟩ := Test.eval_among.mp hleaf
    exact ⟨v, hv, t, ht, heq⟩
  · rintro ⟨v, hv, t, ht, heq⟩
    exact ⟨t, ht, Test.eval_among.mpr ⟨v, hv, heq⟩⟩

/-- Being one of a single value is being equal to it, unknown truths included. -/
theorem eval_among_singleton (db : Database) (p : Path) (v : Operand) (r : Row) :
    (Condition.mk p (.among [v])).eval db r = (Condition.mk p (.compare .eq v)).eval db r := by
  have hleaf : (Condition.mk p (.among [v])).evalLeaf = (Condition.mk p (.compare .eq v)).evalLeaf :=
    funext fun t => Truth.or_false _
  unfold eval
  rw [hleaf]

/-- The alternatives as predicates. -/
theorem holds_among {db : Database} {p : Path} {vs : List Operand} {r : Row} :
    (Predicate.mk [⟨p, .among vs⟩]).holds db r = true ↔
      ∃ v ∈ vs, (Predicate.mk [⟨p, .compare .eq v⟩]).holds db r = true := by
  simp only [Predicate.holds_single, eval_among]

/-- Neither order nor repetitions of the values matter. -/
theorem holds_among_congr {db : Database} {p : Path} {vs ws : List Operand}
    (h : ∀ v, v ∈ ws ↔ v ∈ vs) (r : Row) :
    (Predicate.mk [⟨p, .among ws⟩]).holds db r = (Predicate.mk [⟨p, .among vs⟩]).holds db r := by
  rw [Bool.eq_iff_iff, holds_among, holds_among]
  exact exists_congr fun v => and_congr_left' (h v)

end Condition

/-! ## Scopes of groups -/

/-- That an asset is owned by one of some groups. -/
def Scope.ownedByOneOf (groups : List Int) : Condition :=
  ⟨⟨[], .assets, "owner_group_id", .numeric .bits64⟩, .among (groups.map .integer)⟩

theorem Scope.assetGroups_eq (groups : List Int) :
    assetGroups groups = .ok ⟨[ownedByOneOf groups]⟩ := rfl

/-- The scope of more groups is the union of their scopes. -/
theorem Scope.holds_ownedByOneOf_append {db : Database} {r : Row} (g h : List Int) :
    (Predicate.mk [ownedByOneOf (g ++ h)]).holds db r = true ↔
      (Predicate.mk [ownedByOneOf g]).holds db r = true ∨
        (Predicate.mk [ownedByOneOf h]).holds db r = true := by
  unfold ownedByOneOf
  rw [Condition.holds_among, Condition.holds_among, Condition.holds_among, List.map_append]
  simp only [List.mem_append, or_and_right, exists_or]

namespace Condition

/-- **Being one of some values is to equal one of them.** For every field and all values, whatever the
attribute's type:

* the test is refused exactly if the test of equality is, for the same reason;
* otherwise it holds of a row exactly if a test of equality with one of the values does, it holds of the
  same rows whatever the order and the repetitions of the values, and has the same listings within the
  limits of the store, with no values it holds of no row, and with a single one it has the truth of the
  test of equality;
* the assets of the groups in two lists are those of the one list and those of the other. -/
theorem isIn_iff_exists_equals (e : Entity) (field : String) (vs : List Operand) :
    (∀ v fault, isIn e field vs = .error fault ↔ equals e field v = .error fault) ∧
    (∀ c, isIn e field vs = .ok c → ∃ d : Operand → Condition,
      (∀ v, equals e field v = .ok (d v)) ∧
      (∀ db r, (Predicate.mk [c]).holds db r = true ↔
        ∃ v ∈ vs, (Predicate.mk [d v]).holds db r = true) ∧
      (∀ ws, (∀ v, v ∈ ws ↔ v ∈ vs) → ∃ c', isIn e field ws = .ok c' ∧
        (∀ db r, (Predicate.mk [c']).holds db r = (Predicate.mk [c]).holds db r) ∧
        ∀ (db : Database) root mode params,
          (∀ f, Listing.compile root mode params.filter = .ok f →
            (f.both ⟨[c']⟩).Within ∧ (f.both ⟨[c]⟩).Within) →
          db.list root mode params (some ⟨[c']⟩) = db.list root mode params (some ⟨[c]⟩)) ∧
      (vs = [] → ∀ (db : Database) root, db.matching root ⟨[c]⟩ = []) ∧
      ∀ v, vs = [v] → ∀ db r, c.eval db r = (d v).eval db r) ∧
    ∀ g h : List Int, ∃ p q both,
      Scope.assetGroups g = .ok p ∧ Scope.assetGroups h = .ok q ∧
      Scope.assetGroups (g ++ h) = .ok both ∧
      ∀ db r, both.holds db r = true ↔ p.holds db r = true ∨ q.holds db r = true := by
  refine ⟨fun v fault => ?_, fun c hc => ?_, fun g h => ?_⟩
  · unfold isIn equals
    rw [map_eq_error, map_eq_error]
  -- the field resolves in the same way for a list as for one value
  · obtain ⟨p, hp, rfl⟩ := map_eq_ok.mp hc
    refine ⟨fun v => ⟨p, .compare .eq v⟩, fun v => map_eq_ok.mpr ⟨p, hp, rfl⟩,
      fun db r => holds_among, fun ws hws => ?_, ?_, ?_⟩
    · have hsame : ∀ (db : Database) r, (Predicate.mk [⟨p, .among ws⟩]).holds db r =
          (Predicate.mk [⟨p, .among vs⟩]).holds db r := fun db => holds_among_congr hws
      exact ⟨_, map_eq_ok.mpr ⟨p, hp, rfl⟩, hsame,
        fun db root mode params hwithin => Database.list_congr_of_holds hwithin (hsame db)⟩
    · rintro rfl db root
      refine List.filter_eq_nil_iff.mpr fun r _ hr => ?_
      obtain ⟨v, hv, -⟩ := holds_among.mp hr
      exact List.not_mem_nil hv
    · rintro v rfl db r
      exact eval_among_singleton db p v r
  · exact ⟨_, _, _, Scope.assetGroups_eq g, Scope.assetGroups_eq h, Scope.assetGroups_eq (g ++ h),
      fun db r => Scope.holds_ownedByOneOf_append g h⟩

/-- That the user who owns a file's asset has one of three numbers, two of them given as texts. -/
def ownedByFew : Condition :=
  ⟨⟨[⟨.assetFiles, "asset_id", .assets⟩], .assets, "owner_user_id", .numeric .bits64⟩,
    .among [.text "bob", .integer 9, .text " +1 "]⟩

/-- A text that is the owner's number is met, and the file of the asset without owner meets nothing. -/
theorem isIn_twoOwnings :
    isIn .assetFiles "asset.ownerUserId" [.text "bob", .integer 9, .text " +1 "] =
      .ok ownedByFew ∧
    (Predicate.mk [ownedByFew]).holds twoOwnings ⟨1, [("asset_id", .integer 1)]⟩ = true ∧
    (Predicate.mk [ownedByFew]).holds twoOwnings ⟨2, [("asset_id", .integer 2)]⟩ = false := by
  have hin : isIn .assetFiles "asset.ownerUserId" [.text "bob", .integer 9, .text " +1 "] =
      .ok ownedByFew := rfl
  obtain ⟨d, hd, hholds, -⟩ := (isIn_iff_exists_equals .assetFiles "asset.ownerUserId" _).2.1 _ hin
  have hequals : ∀ v, d v = ⟨ownedByFew.path, .compare .eq v⟩ := fun v =>
    Except.ok.inj ((hd v).symm.trans rfl)
  refine ⟨hin, (hholds _ _).mpr ⟨.text " +1 ", by decide, ?_⟩, ?_⟩
  · rw [hequals]
    decide
  · rw [Bool.eq_false_iff]
    intro h
    obtain ⟨v, hv, htrue⟩ := (hholds _ _).mp h
    rw [hequals] at htrue
    simp only [List.mem_cons, List.not_mem_nil, or_false] at hv
    rcases hv with rfl | rfl | rfl <;> exact absurd htrue (by decide)

end Condition

end AssetRegister
