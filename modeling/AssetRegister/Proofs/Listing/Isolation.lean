import AssetRegister.Proofs.Condition.Built
import AssetRegister.Proofs.Listing.Fitting
import Mathlib.Data.List.Sort

/-!
# A scoped listing reveals nothing outside its scope

A request may carry a scope: a predicate that the owner of the request adds to the filter. Two stores
that agree on the rows in scope, and on what relations lead to from these rows, cannot be told apart by
any filter, limit, offset or total, if no pattern in it is too long. The nested queries of a filter read
whole tables, and a row that cannot be read is reported; both depend only on the rows in scope.

A pattern that is too long does tell stores apart: it is tried on rows out of scope as well, and fails
there.

* `Database.list_eq_of_agreeOn`: scoped listings in stores that agree on the scope.
* `Database.list_outOfScope`: a pattern that shows whether there are rows out of scope.
-/

namespace AssetRegister

open Outcome

/-- Two stores with the same rows of an entity in scope, from which all chains of relations lead to the
same rows in both, or to none in both. -/
structure Database.AgreeOn (d₁ d₂ : Database) (e : Entity) (scope : Predicate) : Prop where
  rows : ∀ r, r ∈ d₁.matching e scope ↔ r ∈ d₂.matching e scope
  reached : ∀ r ∈ d₁.matching e scope, ∀ hops last, Chain e hops last →
    d₁.reach? hops r = d₂.reach? hops r

namespace Database

section

/-! ## Rows in scope -/

variable {d₁ d₂ : Database} {e : Entity} {scope : Predicate}

/-- The same rows in scope are listed in the same order, since identifiers order them. -/
theorem AgreeOn.matching_eq (h : AgreeOn d₁ d₂ e scope) (h₁ : d₁.Ordered) (h₂ : d₂.Ordered) :
    d₁.matching e scope = d₂.matching e scope := by
  -- lists in strict order with the same members are the same
  have : Std.Irrefl fun a b : Row => a.id < b.id := ⟨fun a => Int.lt_irrefl a.id⟩
  have : Std.Antisymm fun a b : Row => a.id < b.id :=
    ⟨fun a b hab hba => absurd hba (Int.lt_asymm hab)⟩
  exact (pairwise_matching h₁ e scope).eq_of_mem_iff (pairwise_matching h₂ e scope) h.rows

/-- On a row in scope a condition is true in both stores or in neither. It may be false in one and
unknown in the other: an empty target table makes no key unknown. -/
theorem AgreeOn.eval_iff (h : AgreeOn d₁ d₂ e scope) (h₁ : d₁.Ordered) (h₂ : d₂.Ordered)
    {c : Condition} (hc : c.path.Resolved e) {r : Row} (hr : r ∈ d₁.matching e scope) :
    c.eval d₁ r = some true ↔ c.eval d₂ r = some true := by
  rw [Condition.eval_eq_true h₁, Condition.eval_eq_true h₂]
  rw [h.reached r hr c.path.hops c.path.owner hc.chain]

/-- On the rows of the scope a predicate says the same in both stores. -/
theorem AgreeOn.holds_eq (h : AgreeOn d₁ d₂ e scope) (h₁ : d₁.Ordered) (h₂ : d₂.Ordered)
    {p : Predicate} (hp : ∀ c ∈ p.conditions, c.path.Resolved e) {r : Row}
    (hr : r ∈ d₁.matching e scope) : p.holds d₁ r = p.holds d₂ r := by
  rw [Bool.eq_iff_iff, Predicate.holds_eq_true, Predicate.holds_eq_true]
  exact forall₂_congr fun c hc => h.eval_iff h₁ h₂ (hp c hc) hr

/-! ## Listings -/

/-- Of the rows in scope a filter picks the same in both stores. -/
theorem AgreeOn.matching_both_eq (h : AgreeOn d₁ d₂ e scope) (h₁ : d₁.Ordered) (h₂ : d₂.Ordered)
    {mode : ParseMode} {filter : Option String} {p : Predicate}
    (hp : Listing.compile e mode filter = .ok p) :
    d₁.matching e (p.both scope) = d₂.matching e (p.both scope) := by
  -- the predicate of the filter comes from its comparisons, so its paths resolve
  obtain ⟨ts, -, hts⟩ := Listing.compile_eq_ok.mp hp
  have hresolved := Predicate.resolved_of_ofTokens hts
  -- both stores filter the rows in scope, which are the same
  rw [matching_both, matching_both, ← h.matching_eq h₁ h₂]
  exact List.filter_congr fun r hr => h.holds_eq h₁ h₂ hresolved hr

/-- **A scoped listing is the same in stores that agree on its scope**: the same records and total, or
the same fault, whatever the filter, the page and the way of reading, as long as the filter and the scope
have no pattern that is too long. -/
theorem list_eq_of_agreeOn (h₁ : d₁.Ordered) (h₂ : d₂.Ordered) (h : AgreeOn d₁ d₂ e scope)
    (mode : ParseMode) (params : Params)
    (hpatterns : ∀ p, Listing.compile e mode params.filter = .ok p →
      ∀ c ∈ (p.both scope).conditions, c.test.overlong = false) :
    d₁.list e mode params (some scope) = d₂.list e mode params (some scope) := by
  refine list_congr fun p hp => ?_
  have hshort := hpatterns p hp
  -- what is left to be refused is refused whatever is stored
  have hexcess : d₁.excess? e (p.both scope) = d₂.excess? e (p.both scope) := by
    rw [excess?_of_patterns hshort, excess?_of_patterns hshort]
  refine execute_congr hexcess ?_
  show Listing.answer e params (d₁.matching e (p.both scope)) =
    Listing.answer e params (d₂.matching e (p.both scope))
  rw [h.matching_both_eq h₁ h₂ hp]

end

/-! ## Four groups with an intruder

Outside the scope another user is added, and the first group becomes one of his that cannot be read. -/

def intruded : Database where
  users := ⟨[⟨1, [("user_name", .text "alice")]⟩, ⟨2, [("user_name", .text "bob")]⟩,
    ⟨3, [("user_name", .text "mallory")]⟩], 3⟩
  userGroups := ⟨[⟨1, [("created_by", .integer 3), ("created_at", .text "never")]⟩,
    groupRow 4 2 2, groupRow 6 2 8, groupRow 9 2 4], 9⟩

theorem ordered_intruded : intruded.Ordered := by
  intro e
  cases e <;> decide

/-- The stores agree on the groups of the scope. -/
theorem agreeOn_intruded : AgreeOn fourGroups intruded .userGroups (groupsAmong [4, 6, 9]) := by
  have h₁ : fourGroups.matching .userGroups (groupsAmong [4, 6, 9]) =
      [groupRow 4 2 2, groupRow 6 2 8, groupRow 9 2 4] := by decide
  have h₂ : intruded.matching .userGroups (groupsAmong [4, 6, 9]) =
      [groupRow 4 2 2, groupRow 6 2 8, groupRow 9 2 4] := by decide
  constructor
  · intro r
    rw [h₁, h₂]
  · intro r hr hops last hchain
    -- from a group either nothing is followed or its creator
    rw [h₁] at hr
    rcases hchain.hops_of_userGroups with rfl | rfl
    · rfl
    · revert r
      decide

/-- Groups that another user than the second created. -/
def groupsOfOthers : Params := { filter := some "createdBy_userName != bob and memberCount >= 0" }

set_option maxRecDepth 10000 in
theorem tokens_groupsOfOthers : Listing.tokens .strict groupsOfOthers.filter =
    .ok [⟨"createdBy_userName", .comparison .ne, "bob"⟩, ⟨"memberCount", .comparison .ge, "0"⟩] := by
  show Token.ofFilter .strict "createdBy_userName != bob and memberCount >= 0" = _
  rw [Token.ofFilter, if_neg (by decide)]
  rw [Filter.clauses_eq_cons "createdBy_userName != bob".toList "memberCount >= 0".toList (by decide)]
  rw [Filter.clauses_eq_singleton "memberCount >= 0".toList (by decide)]
  decide

/-- The intruder cannot be found from inside the scope. -/
theorem list_intruded :
    fourGroups ≠ intruded ∧
    fourGroups.list .userGroups .strict groupsOfOthers (some (groupsAmong [4, 6, 9])) =
      intruded.list .userGroups .strict groupsOfOthers (some (groupsAmong [4, 6, 9])) := by
  refine ⟨by decide,
    list_eq_of_agreeOn ordered_fourGroups ordered_intruded agreeOn_intruded _ _ fun p hp => ?_⟩
  obtain ⟨ts, hts, htokens⟩ := Listing.compile_eq_ok.mp hp
  cases tokens_groupsOfOthers.symm.trans hts
  cases htokens
  decide

/-! ## An administrator out of scope

A store without users agrees with a store of one administrator on the ordinary users, since neither has
any. A pattern that is too long is tried on the administrator nevertheless. -/

/-- The users with the role of an ordinary user. -/
def ordinaryUsers : Predicate :=
  ⟨[⟨⟨[], .users, "role", .text⟩, .compare .eq (.text "USER")⟩]⟩

theorem matching_ordinaryUsers : oneAdmin.matching .users ordinaryUsers = [] := by decide

/-- Both stores have no ordinary users, so they agree on these. -/
theorem agreeOn_oneAdmin : AgreeOn {} oneAdmin .users ordinaryUsers := by
  constructor
  · intro r
    rw [matching_ordinaryUsers]
    rfl
  · intro r hr
    exact absurd hr List.not_mem_nil

/-- What is asked of the users within the scope by a request for so many letters in their names. -/
def ordinaryNamed (n : Nat) : Predicate :=
  (Predicate.mk [userContains "user_name" n]).both ordinaryUsers

/-- What is asked keeps all limits but the one on patterns. -/
theorem statementExcess?_ordinaryNamed {n : Nat} (h : n ≤ 999999998) :
    (ordinaryNamed n).statementExcess? = none :=
  Predicate.statementExcess?_eq_none.mpr
    ⟨show 2 ≤ 32766 by decide, show 4 ≤ 1000 by decide,
      List.forall_mem_cons.mpr
        ⟨size_containing_letters h, List.forall_mem_singleton.mpr (by decide)⟩⟩

/-- The two stores agree on the ordinary users, and yet the same request finds nobody in the one and fails
in the other, where the administrator is. -/
theorem list_outOfScope :
    Ordered {} ∧ oneAdmin.Ordered ∧ AgreeOn {} oneAdmin .users ordinaryUsers ∧
    list {} .users .lenient (seekingLetters "userName" 49999) (some ordinaryUsers) =
      .ok ⟨[], some 0⟩ ∧
    ∃ fault,
      oneAdmin.list .users .lenient (seekingLetters "userName" 49999) (some ordinaryUsers) =
        .error fault ∧
      fault.message = "Database error: LIKE or GLOB pattern too complex" := by
  have hcompile := compile_seekingLetters "userName" (by decide) (by decide) rfl .lenient 49999
  have hstatement := statementExcess?_ordinaryNamed (n := 49999) (by omega)
  have hown : ∀ c ∈ (ordinaryNamed 49999).conditions,
      c.path.hops = [] ∧ Try.rank? .users ⟨c, none⟩ = none ∧ c.never .users = false :=
    List.forall_mem_cons.mpr ⟨⟨rfl, rfl, rfl⟩, List.forall_mem_singleton.mpr ⟨rfl, rfl, rfl⟩⟩
  -- without rows there is nothing to try the pattern on
  have hnone : excess? {} .users (ordinaryNamed 49999) = none :=
    (excess?_of_rows_eq_nil rfl fun c hc => (hown c hc).1).trans hstatement
  have hexcess : oneAdmin.excess? .users (ordinaryNamed 49999) = some .pattern :=
    excess?_eq_pattern (List.mem_singleton_self _) rfl (show ["user_name", "role"].Nodup by decide)
      (fun c hc => (hown c hc).2.1) (fun c hc => (hown c hc).2.2)
      (failsOn_userContains oneAdmin "user_name" (by omega)) hstatement
  refine ⟨ordered_empty, ordered_oneAdmin, agreeOn_oneAdmin, ?_, _, list_of_excess rfl hcompile hexcess,
    rfl⟩
  rw [list_of_compile {} rfl hcompile]
  exact execute_eq_ok.mpr ⟨hnone, rfl⟩

end Database

end AssetRegister
