import AssetRegister.Proofs.Listing.Fitting

/-!
# Filters and extra predicates only narrow each other

A request selects the rows that its filter selects and that its extra predicate selects, so neither can
widen the other, and totals only shrink. Extra predicates are put together by `Predicate.narrowed`; how
they are grouped, in what order they stand and how often one is repeated does not matter. A filter that
does not compile is reported in the same way with every extra predicate.

Main statement: `Database.list_narrowed`.
-/

namespace AssetRegister

open Outcome

/-! ## Compositions -/

/-- A way of putting predicates together: one after another, by `Predicate.narrowed`. -/
inductive Composition where
  | single (p : Predicate)
  | unchanged (a : Composition)
  | both (a b : Composition)

namespace Composition

/-- The predicate that results. -/
def predicate : Composition → Predicate
  | single p => p
  | unchanged a => a.predicate.narrowed none
  | both a b => a.predicate.narrowed (some b.predicate)

/-- The predicates that are put together. -/
def parts : Composition → List Predicate
  | single p => [p]
  | unchanged a => a.parts
  | both a b => a.parts ++ b.parts

theorem parts_ne_nil (a : Composition) : a.parts ≠ [] := by
  induction a with
  | single p => exact List.cons_ne_nil _ _
  | unchanged a ih => exact ih
  | both a b iha _ => exact List.append_ne_nil_of_left_ne_nil iha _

/-- A composition holds exactly where all its parts hold. One case for each way of composing. -/
theorem holds_predicate {db : Database} {r : Row} (a : Composition) :
    a.predicate.holds db r = true ↔ ∀ q ∈ a.parts, q.holds db r = true := by
  induction a with
  | single p =>
    show p.holds db r = true ↔ ∀ q ∈ [p], q.holds db r = true
    rw [List.forall_mem_singleton]
  | unchanged a ih => exact ih
  | both a b iha ihb =>
    show (a.predicate.both b.predicate).holds db r = true ↔ ∀ q ∈ a.parts ++ b.parts, _
    rw [Predicate.holds_both, iha, ihb, List.forall_mem_append]

end Composition

theorem Predicate.holds_always (db : Database) (r : Row) : Predicate.always.holds db r = true :=
  holds_eq_true.mpr fun _ hc => absurd hc List.not_mem_nil

/-! ## What requests select -/

/-- The request without its filter. -/
def Params.unfiltered (params : Params) : Params := { params with filter := none }

namespace Database

variable {db : Database} {e : Entity} {mode : ParseMode} {params : Params}

/-- A row matches both predicates exactly if it matches each. -/
theorem mem_matching_both {p q : Predicate} {r : Row} :
    r ∈ db.matching e (p.both q) ↔ r ∈ db.matching e p ∧ r ∈ db.matching e q := by
  rw [mem_matching, mem_matching, mem_matching, Predicate.holds_both]
  constructor
  · rintro ⟨hr, hp, hq⟩
    exact ⟨⟨hr, hp⟩, hr, hq⟩
  · rintro ⟨⟨hr, hp⟩, -, hq⟩
    exact ⟨hr, hp, hq⟩

/-- A conjunction matches no more rows than either part. -/
theorem length_matching_both_le (db : Database) (e : Entity) (p q : Predicate) :
    (db.matching e (p.both q)).length ≤ min (db.matching e p).length (db.matching e q).length := by
  have hq : (db.matching e (p.both q)).length ≤ (db.matching e q).length := by
    rw [matching_both]
    exact List.length_filter_le _ _
  -- the conjunction the other way round picks the same rows
  have hp : (db.matching e (p.both q)).length ≤ (db.matching e p).length := by
    have hswap : db.matching e (p.both q) = db.matching e (q.both p) :=
      List.filter_congr fun r _ => by
        rw [Bool.eq_iff_iff, Predicate.holds_both, Predicate.holds_both, and_comm]
    rw [hswap, matching_both]
    exact List.length_filter_le _ _
  omega

/-- Without a filter the extra predicate selects alone. -/
theorem selected_unfiltered (db : Database) (e : Entity) (mode : ParseMode)
    (hvalid : params.validate = .ok ()) (q : Predicate) :
    db.selected e mode params.unfiltered (some q) = .ok (db.matching e q) :=
  selected_eq_ok.mpr ⟨hvalid, .always, rfl, rfl⟩

/-- A row that matches within a scope is one that matches without, and is in the scope. -/
theorem matching_narrowed {p : Predicate} {extra : Option Predicate} {keep : Row → Bool}
    (hkeep : ∀ r, (∀ q ∈ extra, q.holds db r = true) ↔ keep r = true) :
    db.matching e (p.narrowed extra) = (db.matching e p).filter keep := by
  unfold matching
  rw [List.filter_filter]
  refine List.filter_congr fun r _ => ?_
  rw [Bool.eq_iff_iff, Predicate.holds_narrowed, hkeep, Bool.and_eq_true, and_comm]

/-- The rows of a composition are those that each of its parts selects on its own. -/
theorem mem_matching_composition {a : Composition} {r : Row} :
    r ∈ db.matching e a.predicate ↔ ∀ q ∈ a.parts, r ∈ db.matching e q := by
  rw [mem_matching, a.holds_predicate]
  constructor
  · rintro ⟨hr, hall⟩ q hq
    exact mem_matching.mpr ⟨hr, hall q hq⟩
  · intro hall
    obtain ⟨q, hq⟩ := List.exists_mem_of_ne_nil _ a.parts_ne_nil
    exact ⟨(mem_matching.mp (hall q hq)).1, fun q hq => (mem_matching.mp (hall q hq)).2⟩

/-- Compositions of the same parts, `always` aside, give the same listing within the limits. -/
theorem list_congr_of_parts {a b : Composition}
    (h : ∀ q, q ≠ .always → (q ∈ a.parts ↔ q ∈ b.parts))
    (hwithin : ∀ f, Listing.compile e mode params.filter = .ok f →
      (f.both a.predicate).Within ∧ (f.both b.predicate).Within) :
    db.list e mode params (some a.predicate) = db.list e mode params (some b.predicate) := by
  refine list_congr_of_holds hwithin fun r => ?_
  rw [Bool.eq_iff_iff, a.holds_predicate, b.holds_predicate]
  refine forall_congr' fun q => ?_
  -- the parts are the same but for `always`, which holds of every row
  by_cases hq : q = .always
  · rw [hq, Predicate.holds_always]
    exact iff_of_true (fun _ => rfl) (fun _ => rfl)
  · rw [h q hq]

/-- A filter that does not compile is reported whatever the extra predicate is. -/
theorem list_of_compile_error {fault : Fault} (hvalid : params.validate = .ok ())
    (h : Listing.compile e mode params.filter = .error fault) (extra : Option Predicate) :
    db.list e mode params extra = .error fault := by
  rw [list_eq]
  unfold Listing.query
  rw [hvalid, h]
  rfl

/-- **Filters and extra predicates only narrow each other.** For a request with valid parameters:

* if its filter compiles, the rows that it selects with an extra predicate, however composed, are those
  that the filter selects alone and each part of the extra predicate selects alone, and totals are at
  most the lesser of the two totals;
* `always` and no predicate are neutral, and compositions of the same parts give the same listing if
  they keep the limits of the store together with the filter;
* if its filter does not compile, it is refused for the same reason with every extra predicate. -/
theorem list_narrowed (db : Database) (e : Entity) (mode : ParseMode) (params : Params)
    (hlimit : 0 < params.limit) (hoffset : 0 ≤ params.offset) :
    (∀ p, Listing.compile e mode params.filter = .ok p → ∀ extra : Composition,
      ∃ both filtered allowed,
        db.selected e mode params (some extra.predicate) = .ok both ∧
        db.selected e mode params none = .ok filtered ∧
        db.selected e mode params.unfiltered (some extra.predicate) = .ok allowed ∧
        (∀ r, r ∈ both ↔ r ∈ filtered ∧ r ∈ allowed) ∧
        (∀ r, r ∈ allowed ↔ ∀ q ∈ extra.parts, ∃ rows,
          db.selected e mode params.unfiltered (some q) = .ok rows ∧ r ∈ rows) ∧
        both.length ≤ min filtered.length allowed.length ∧
        ∀ x y z,
          db.list e mode params (some extra.predicate) = .ok x →
          db.list e mode params none = .ok y →
          db.list e mode params.unfiltered (some extra.predicate) = .ok z →
          ∀ n ∈ x.total, ∀ m ∈ y.total, ∀ k ∈ z.total, n ≤ min m k) ∧
    (db.list e mode params (some .always) = db.list e mode params none ∧
      ∀ q : Predicate, q.narrowed none = q ∧ q.narrowed (some .always) = q ∧
        Predicate.always.narrowed (some q) = q) ∧
    (∀ a b : Composition, (∀ q, q ≠ .always → (q ∈ a.parts ↔ q ∈ b.parts)) →
      (∀ f, Listing.compile e mode params.filter = .ok f →
        (f.both a.predicate).Within ∧ (f.both b.predicate).Within) →
      db.list e mode params (some a.predicate) = db.list e mode params (some b.predicate)) ∧
    ∀ fault, Listing.compile e mode params.filter = .error fault →
      ∀ extra, db.list e mode params extra = .error fault := by
  have hvalid := Params.validate_eq_ok.mpr ⟨hlimit, hoffset⟩
  refine ⟨?_, ⟨?_, ?_⟩, fun a b => list_congr_of_parts, fun fault => list_of_compile_error hvalid⟩
  -- the filter compiles, so all three requests select rows
  · intro p hp extra
    have hboth := selected_of_compile db hvalid hp (some extra.predicate)
    have hfiltered := selected_of_compile db hvalid hp none
    have hallowed := selected_unfiltered db e mode hvalid extra.predicate
    have hlength := length_matching_both_le db e p extra.predicate
    refine ⟨_, _, _, hboth, hfiltered, hallowed, fun r => mem_matching_both, ?_, hlength, ?_⟩
    · intro r
      rw [mem_matching_composition]
      refine forall₂_congr fun q _ => ?_
      rw [selected_unfiltered db e mode hvalid]
      constructor
      · intro hr
        exact ⟨_, rfl, hr⟩
      · rintro ⟨rows, ⟨⟩, hr⟩
        exact hr
    -- reported totals count the selected rows
    · intro x y z hx hy hz n hn m hm k hk
      rw [total_of_list hx hboth n hn, total_of_list hy hfiltered m hm,
        total_of_list hz hallowed k hk]
      exact hlength
  -- `always` adds no condition
  · refine list_congr fun p _ => ?_
    show db.execute (Listing.asking e params ⟨p.conditions ++ []⟩) = _
    rw [List.append_nil]
    rfl
  · intro q
    refine ⟨rfl, ?_, rfl⟩
    show Predicate.mk (q.conditions ++ []) = q
    rw [List.append_nil]

set_option maxRecDepth 10000 in
/-- Of four groups a filter selects three and a scope two, and the two together select their common
group. An attribute that groups do not have is reported within every scope. -/
theorem fourGroups_narrowed :
    (∃ both,
      fourGroups.selected .userGroups .lenient bobsGroups
        (some (Composition.both (.single (groupsAmong [1, 4])) (.single .always)).predicate) =
        .ok both ∧
      ∀ r, r ∈ both ↔ r ∈ [groupRow 4 2 2, groupRow 6 2 8, groupRow 9 2 4] ∧
        r ∈ [groupRow 1 1 3, groupRow 4 2 2]) ∧
    ∀ extra, fourGroups.list .userGroups .lenient { filter := some "color = red" } extra =
      .error (.compile (.unknownField ⟨"color", .userGroups⟩)) := by
  constructor
  · have hvalid : bobsGroups.validate = .ok () := rfl
    have hcompile := Listing.compile_eq_ok.mpr
      ⟨_, tokens_bobsGroups, (rfl : Predicate.ofTokens .userGroups bobsTokens = .ok _)⟩
    obtain ⟨both, filtered, allowed, hboth, hfiltered, hallowed, hmem, -⟩ :=
      (list_narrowed fourGroups .userGroups .lenient bobsGroups (by decide) (by decide)).1 _
        hcompile (.both (.single (groupsAmong [1, 4])) (.single .always))
    refine ⟨both, hboth, fun r => ?_⟩
    -- the filter alone and the scope alone select what evaluation gives
    rw [selected_of_compile fourGroups hvalid hcompile] at hfiltered
    rw [selected_unfiltered fourGroups .userGroups .lenient hvalid] at hallowed
    cases hfiltered
    cases hallowed
    exact hmem r
  · have htokens : Listing.compile .userGroups .lenient (some "color = red") =
        .error (.compile (.unknownField ⟨"color", .userGroups⟩)) := by
      unfold Listing.compile
      dsimp only
      rw [Token.ofFilter, if_neg (by decide)]
      rw [Filter.clauses_eq_singleton "color = red".toList (by decide)]
      rfl
    exact (list_narrowed fourGroups .userGroups .lenient { filter := some "color = red" }
      (by decide) (by decide)).2.2.2 _ htokens

end Database

end AssetRegister
