import AssetRegister.Proofs.CommandLine.Listing
import AssetRegister.Proofs.Listing.FileScope
import AssetRegister.Proofs.Listing.Membership
import AssetRegister.Proofs.Listing.Narrowing
import AssetRegister.Proofs.Listing.Paging
import AssetRegister.Proofs.Listing.Refusal

/-!
# What ownership options leave of a listing

A visibility, an owner and some groups may be given to any listing. For some entities they make no sense,
and then the listing is refused before its filter is looked at. Otherwise they leave some of the rows that
the filter selects: `Ownership.Refused` and `Ownership.Admits` say which listings and which rows, without
predicates.

Main statement: `CommandLine.answer_scoped`.
-/

namespace AssetRegister

open Outcome

namespace Scope

instance (column : String) (owner : Option Int) (asset : Row) :
    Decidable (HasOwner column owner asset) := Option.decidableExistsMem owner

instance (v : Visibility) (user group : Option Int) (asset : Row) :
    Decidable (Owned v user group asset) := by
  cases v <;> unfold Owned <;> infer_instance

instance (db : Database) (v : Visibility) (user group : Option Int) (file : Row) :
    Decidable (InScope db v user group file) := by unfold InScope; infer_instance

end Scope

namespace CommandLine

namespace Ownership

/-- Some ownership option is given. -/
def IsGiven (o : Ownership) : Prop := o.visibility ≠ none ∨ o.user ≠ none ∨ o.groups ≠ []

/-- The options make no sense for listings of an entity. -/
def Refused (o : Ownership) : Entity → Prop
  | .users | .userGroups | .suppliers => o.IsGiven
  | .assets => o.visibility ≠ none
  | .assetFiles =>
    match o.visibility with
    | none => o.user ≠ none ∨ o.groups ≠ []
    | some v => 1 < o.groups.length ∨ Scope.Unfit v o.user o.groups.head?

/-- The options leave a row of an entity in the listing. -/
def Admits (db : Database) (o : Ownership) : Entity → Row → Prop
  | .users, _ | .userGroups, _ | .suppliers, _ => True
  | .assets, r =>
    (∀ id ∈ o.user, Scope.HasOwner "owner_user_id" (some id) r) ∧
      (o.groups ≠ [] → ∃ id ∈ o.groups, Scope.HasOwner "owner_group_id" (some id) r)
  | .assetFiles, r => ∀ v ∈ o.visibility, Scope.InScope db v o.user o.groups.head? r

instance (db : Database) (o : Ownership) (e : Entity) (r : Row) : Decidable (o.Admits db e r) := by
  cases e <;> unfold Admits <;> infer_instance

end Ownership

/-! ## The scopes of the entities -/

section

variable {o : Ownership} {raw : RawParams} {e : Entity}

/-- No ownership option is given exactly if all of them are missing. -/
theorem isUnowned_iff : (listArguments e raw o).isUnowned = true ↔ ¬o.IsGiven := by
  simp [Arguments.isUnowned, listArguments, Ownership.IsGiven, and_assoc]

/-- That a column of an asset holds an owner. -/
def heldBy (column : String) (id : Int) : Condition :=
  ⟨⟨[], .assets, column, .numeric .bits64⟩, .compare .eq (.integer id)⟩

/-- The test is about an owner if the column takes identifiers as they are. -/
theorem holds_heldBy {db : Database} {column : String}
    (hcolumn : Entity.affinity .assets column = .numeric) {id : Int} {r : Row} :
    (Predicate.mk [heldBy column id]).holds db r = true ↔ Scope.HasOwner column (some id) r := by
  rw [Predicate.holds_single]
  show (Test.compare .eq (.integer id)).eval (Entity.affinity .assets column) (r.get column) =
    some true ↔ _
  rw [hcolumn, Test.eval_equals rfl]
  simp [Scope.HasOwner, Operand.value]

/-- The test of groups holds of the assets that one of them owns. -/
theorem holds_ownedByOneOf {db : Database} {groups : List Int} {r : Row} :
    (Predicate.mk [Scope.ownedByOneOf groups]).holds db r = true ↔
      ∃ id ∈ groups, Scope.HasOwner "owner_group_id" (some id) r := by
  unfold Scope.ownedByOneOf
  rw [Condition.holds_among]
  simp only [List.mem_map, exists_exists_and_eq_and]
  exact exists_congr fun id => and_congr_right fun _ => holds_heldBy rfl

/-- The predicate of the options for assets, if any of them concerns assets. -/
def assetPredicate (o : Ownership) : Option Predicate :=
  match o.user, o.groups with
  | none, [] => none
  | none, groups => some ⟨[Scope.ownedByOneOf groups]⟩
  | some id, [] => some ⟨[heldBy "owner_user_id" id]⟩
  | some id, groups => some ⟨[heldBy "owner_user_id" id, Scope.ownedByOneOf groups]⟩

/-- Without a visibility the options of assets make this predicate. -/
theorem assetScope_eq (h : o.visibility = none) :
    (listArguments e raw o).assetScope = .ok (assetPredicate o) := by
  obtain ⟨visibility, user, groups⟩ := o
  obtain rfl : visibility = none := h
  cases user <;> cases groups <;> rfl

/-- It holds of the assets that the options admit. One case for each combination of options. -/
theorem holds_assetPredicate {db : Database} {r : Row} :
    (∀ q ∈ assetPredicate o, q.holds db r = true) ↔ o.Admits db .assets r := by
  obtain ⟨visibility, user, groups⟩ := o
  have hboth (id : Int) (groups : List Int) :
      (Predicate.mk [heldBy "owner_user_id" id, Scope.ownedByOneOf groups]).holds db r = true ↔
        (Predicate.mk [heldBy "owner_user_id" id]).holds db r = true ∧
          (Predicate.mk [Scope.ownedByOneOf groups]).holds db r = true :=
    Predicate.holds_both (p := ⟨[heldBy "owner_user_id" id]⟩)
  have huser : Entity.affinity .assets "owner_user_id" = .numeric := rfl
  cases user <;> cases groups <;>
    simp [assetPredicate, Ownership.Admits, hboth, holds_heldBy huser, holds_ownedByOneOf]

/-- Without options files have no scope. -/
theorem fileScope_of_not_given (h : ¬o.IsGiven) : (listArguments e raw o).fileScope = .ok none := by
  have hunowned : (listArguments e raw o).isUnowned = true := isUnowned_iff.mpr h
  have hv : (listArguments e raw o).visibility = none := by
    by_contra hv
    exact h (.inl hv)
  simp [Arguments.fileScope, hunowned, hv]

/-- With a visibility and one group at most, files have the scope of the visibility. -/
theorem fileScope_eq {v : Visibility} (hv : o.visibility = some v) (hgroups : ¬1 < o.groups.length) :
    (listArguments e raw o).fileScope = (Scope.fileVisibility v o.user o.groups.head?).map some := by
  obtain ⟨visibility, user, groups⟩ := o
  obtain rfl : visibility = some v := hv
  rcases groups with _ | ⟨g, _ | ⟨g', groups⟩⟩
  · rfl
  · rfl
  · simp at hgroups

theorem fileScope_of_several {v : Visibility} (hv : o.visibility = some v) (hgroups : 1 < o.groups.length) :
    (listArguments e raw o).fileScope = .error (.scope .severalGroups) := by
  obtain ⟨visibility, user, groups⟩ := o
  obtain rfl : visibility = some v := hv
  rcases groups with _ | ⟨g, _ | ⟨g', groups⟩⟩
  · simp at hgroups
  · simp at hgroups
  · rfl

/-- The listings that have no scopes. -/
theorem scope_of_unscoped (he : e ≠ .assets ∧ e ≠ .assetFiles) :
    (listArguments e raw o).scope e =
      if (listArguments e raw o).isUnowned then .ok none else .error (.scope (.notScoped e)) := by
  cases e <;> first | rfl | simp at he

/-! ## Refusals and what is left -/

/-- Options that make no sense are refused whatever else is asked for. -/
theorem exists_scope_eq_error (h : o.Refused e) :
    ∃ fault, ∀ raw, (listArguments e raw o).scope e = .error (.scope fault) := by
  have hgiven (raw : RawParams) (h : o.IsGiven) : (listArguments e raw o).isUnowned = false := by
    rw [← Bool.not_eq_true, isUnowned_iff]
    exact not_not_intro h
  have hunscoped (he : e ≠ .assets ∧ e ≠ .assetFiles) (h : o.IsGiven) (raw : RawParams) :
      (listArguments e raw o).scope e = .error (.scope (.notScoped e)) := by
    rw [scope_of_unscoped he, hgiven raw h]
    rfl
  cases e with
  | users => exact ⟨_, hunscoped (by decide) h⟩
  | userGroups => exact ⟨_, hunscoped (by decide) h⟩
  | suppliers => exact ⟨_, hunscoped (by decide) h⟩
  -- a visibility is refused before the owners are looked at
  | assets =>
    obtain ⟨v, hv⟩ := Option.ne_none_iff_exists'.mp h
    refine ⟨.visibilityOfAssets, fun raw => ?_⟩
    simp [Arguments.scope, Arguments.assetScope, listArguments, hv]
    rfl
  -- here owners need a visibility, and a visibility needs owners that go with it
  | assetFiles =>
    cases hv : o.visibility with
    | none =>
      simp only [Ownership.Refused, hv] at h
      refine ⟨.ownerWithoutVisibility, fun raw => ?_⟩
      have hunowned := hgiven raw (.inr h)
      simp only [Arguments.scope, Arguments.fileScope, hunowned]
      simp [listArguments, hv]
    | some v =>
      simp only [Ownership.Refused, hv] at h
      by_cases hgroups : 1 < o.groups.length
      · exact ⟨.severalGroups, fun raw => fileScope_of_several hv hgroups⟩
      · obtain ⟨fault, hfault⟩ := Scope.exists_fileVisibility_eq_error.mpr (h.resolve_left hgroups)
        refine ⟨fault, fun raw => ?_⟩
        show (listArguments .assetFiles raw o).fileScope = _
        rw [fileScope_eq hv hgroups, hfault]
        rfl

/-- Other options make a scope, or none, that leaves the rows which the options admit. -/
theorem exists_scope_eq_ok (h : ¬o.Refused e) :
    ∃ extra : Option Predicate, (∀ raw, (listArguments e raw o).scope e = .ok extra) ∧
      ∀ db : Database, db.Ordered → ∀ r, (∀ q ∈ extra, q.holds db r = true) ↔ o.Admits db e r := by
  have hunscoped (he : e ≠ .assets ∧ e ≠ .assetFiles) (h : ¬o.IsGiven) (raw : RawParams) :
      (listArguments e raw o).scope e = .ok none := by
    rw [scope_of_unscoped he, if_pos (isUnowned_iff.mpr h)]
  have hnone (db : Database) (r : Row) : (∀ q ∈ (none : Option Predicate), q.holds db r = true) ↔ True := by
    simp
  cases e with
  | users => exact ⟨none, hunscoped (by decide) h, fun db _ => hnone db⟩
  | userGroups => exact ⟨none, hunscoped (by decide) h, fun db _ => hnone db⟩
  | suppliers => exact ⟨none, hunscoped (by decide) h, fun db _ => hnone db⟩
  | assets =>
    have hv : o.visibility = none := not_not.mp h
    exact ⟨assetPredicate o, fun raw => assetScope_eq hv, fun db _ r => holds_assetPredicate⟩
  | assetFiles =>
    cases hv : o.visibility with
    | none =>
      simp only [Ownership.Refused, hv] at h
      have hgiven : ¬o.IsGiven := by simp [Ownership.IsGiven, hv, not_or.mp h]
      refine ⟨none, fun raw => fileScope_of_not_given hgiven, fun db _ r => ?_⟩
      simp [Ownership.Admits, hv]
    | some v =>
      simp only [Ownership.Refused, hv, not_or] at h
      -- options that fit make a scope, which says the same as the options
      obtain ⟨p, hp⟩ : ∃ p, Scope.fileVisibility v o.user o.groups.head? = .ok p :=
        ⟨_, Scope.fileVisibility_eq_ok h.2⟩
      refine ⟨some p, fun raw => ?_, fun db hdb r => ?_⟩
      · show (listArguments .assetFiles raw o).fileScope = _
        rw [fileScope_eq hv h.1, hp]
        rfl
      · simpa [Ownership.Admits, hv] using Scope.holds_of_fileVisibility hdb hp

/-- A listing is at fault in its scope exactly if its options are refused. -/
theorem exists_answer_eq_scope {db : Database} {mode : ParseMode} :
    (∃ fault, answer db e mode raw o = .error (.scope fault)) ↔ o.Refused e := by
  constructor
  · rintro ⟨fault, hfault⟩
    by_contra h
    obtain ⟨extra, hextra, -⟩ := exists_scope_eq_ok h
    rcases bind_eq_error.mp hfault with hscope | ⟨_, -, hlist⟩
    · cases (hextra raw).symm.trans hscope
    -- neither a request, nor a limit, nor a row is at fault in a scope
    · rcases Listing.cases_of_list_eq_error hlist with hrefusal | ⟨limit, statement, ⟨⟩⟩ | ⟨reason, ⟨⟩⟩
      nomatch hrefusal
  · intro h
    obtain ⟨fault, hfault⟩ := exists_scope_eq_error h
    exact ⟨fault, bind_eq_error.mpr (.inl (hfault raw))⟩

/-- Other options make a listing of what they leave. -/
theorem answer_of_scope {extra : Option Predicate} (h : (listArguments e raw o).scope e = .ok extra)
    (db : Database) (mode : ParseMode) : answer db e mode raw o = db.list e mode raw.resolve extra := by
  show ((listArguments e raw o).scope e >>= fun scope => db.list e mode raw.resolve scope) = _
  rw [h]
  rfl

/-- Within the limits of the store a listing shows what the options leave of the rows that the filter
selects. -/
theorem list_of_admits {extra : Option Predicate} {db : Database} {mode : ParseMode} {params : Params}
    (hadmits : ∀ r, (∀ q ∈ extra, q.holds db r = true) ↔ o.Admits db e r)
    (hwithin : ∀ f, Listing.compile e mode params.filter = .ok f → (f.narrowed extra).Within) :
    db.list e mode params extra =
      db.selected e mode params none >>= fun rows =>
        Listing.answer e params (rows.filter (o.Admits db e ·)) := by
  have hkeep (r : Row) : (∀ q ∈ extra, q.holds db r = true) ↔ decide (o.Admits db e r) = true := by
    rw [hadmits, decide_eq_true_eq]
  rcases Database.refused_or_compiles e mode params with ⟨fault, hfault⟩ | ⟨hvalid, f, hf⟩
  · have hquery : Listing.query e mode params extra = .error fault := map_eq_error.mp (hfault db extra)
    rw [Database.list_eq, hquery, hfault]
    rfl
  -- the rows of the narrowed filter are those of the filter that the options admit
  · rw [Database.list_of_within db hvalid hf (hwithin f hf), Database.matching_narrowed hkeep,
      Database.selected_of_compile db hvalid hf]
    rfl

end

/-! ## Files -/

/-- One file, which is in no bucket and cannot be read. -/
def strayFile : Database where
  assetFiles := ⟨[⟨1, []⟩], 1⟩

theorem ordered_strayFile : strayFile.Ordered := by
  intro e
  cases e <;> decide

/-- Files are listed without restriction exactly if no option is given. -/
theorem unrestricted_iff {o : Ownership} :
    (∀ db : Database, db.Ordered → ∀ mode raw,
      answer db .assetFiles mode raw o = db.list .assetFiles mode raw.resolve none) ↔ ¬o.IsGiven := by
  constructor
  · intro hall hgiven
    -- without restriction the stray file keeps its page from being shown
    have hlist : strayFile.list .assetFiles .lenient (RawParams.resolve {}) none =
        .error (.read (.wrongClass .null 1 "asset_id")) := by
      rw [Database.list_of_within (p := .always) strayFile rfl rfl (by decide)]
      rfl
    have hanswer := (hall strayFile ordered_strayFile .lenient {}).trans hlist
    by_cases h : o.Refused .assetFiles
    · obtain ⟨fault, hfault⟩ := exists_answer_eq_scope.mpr h
      cases hfault.symm.trans hanswer
    · obtain ⟨v, hv⟩ : ∃ v, o.visibility = some v := by
        cases hv : o.visibility with
        | some v => exact ⟨v, rfl⟩
        | none =>
          simp only [Ownership.Refused, hv] at h
          exact absurd hgiven (by simp [Ownership.IsGiven, hv, not_or.mp h])
      have hstray : ¬o.Admits strayFile .assetFiles ⟨1, []⟩ := by
        intro hadmits
        obtain ⟨hbucket, -⟩ := hadmits v hv
        cases hbucket
      obtain ⟨extra, hextra, hadmits⟩ := exists_scope_eq_ok h
      have hnone : strayFile.matching .assetFiles (Predicate.always.narrowed extra) = [] := by
        refine List.filter_eq_nil_iff.mpr (List.forall_mem_singleton.mpr fun hholds => hstray ?_)
        exact (hadmits _ ordered_strayFile _).mp (Predicate.holds_narrowed.mp hholds).2
      -- a row that is not listed is not what keeps the page from being shown
      rw [answer_of_scope (hextra {}), Database.list_of_compile strayFile rfl rfl] at hanswer
      have hread := (Database.execute_eq_read.mp hanswer).2
      rw [hnone] at hread
      cases hread
  · intro h db hdb mode raw
    exact answer_of_scope (e := .assetFiles) (fileScope_of_not_given h) db mode

/-- **Ownership options limit every listing as they are declared to.** For all options of all listings:

* options that make no sense for the entity are refused, whatever is stored and whatever else is asked for,
  also with a filter or parameters that are at fault themselves, and no other options are refused;
* otherwise they make a scope, and with a filter that keeps the limits of the store together with it the
  listing is that of the rows which the filter selects and the options admit; it fails as the filter does;
* files are listed without restriction exactly if no option is given;
* no groups do not restrict a listing of assets, although nothing is in the scope of no groups. -/
theorem answer_scoped (o : Ownership) (e : Entity) :
    (o.Refused e → ∃ fault, ∀ db mode raw,
      answer db e mode raw o = .error (.scope fault) ∧
      (Command.list e (listArguments e raw o)).run db mode = .error (.scope fault)) ∧
    (∀ db mode raw fault, answer db e mode raw o = .error (.scope fault) → o.Refused e) ∧
    (¬o.Refused e → ∃ extra, (∀ raw, (listArguments e raw o).scope e = .ok extra) ∧
      ∀ db : Database, db.Ordered → ∀ mode raw,
        (∀ f, Listing.compile e mode raw.resolve.filter = .ok f → (f.narrowed extra).Within) →
        answer db e mode raw o =
          db.selected e mode raw.resolve none >>= fun rows =>
            Listing.answer e raw.resolve (rows.filter (o.Admits db e ·))) ∧
    ((∀ db : Database, db.Ordered → ∀ mode raw,
      answer db .assetFiles mode raw o = db.list .assetFiles mode raw.resolve none) ↔ ¬o.IsGiven) ∧
    ∃ p, Scope.assetGroups [] = .ok p ∧ ∀ db r, p.holds db r = false := by
  refine ⟨fun h => ?_, fun db mode raw fault hfault => exists_answer_eq_scope.mp ⟨fault, hfault⟩,
    fun h => ?_, unrestricted_iff, ?_⟩
  · obtain ⟨fault, hfault⟩ := exists_scope_eq_error h
    refine ⟨fault, fun db mode raw => ?_⟩
    have hanswer : answer db e mode raw o = .error (.scope fault) :=
      bind_eq_error.mpr (.inl (hfault raw))
    exact ⟨hanswer, run_list_of_error hanswer⟩
  -- the scope depends on the ownership alone, and within the limits it leaves the rows that it admits
  · obtain ⟨extra, hextra, hadmits⟩ := exists_scope_eq_ok h
    refine ⟨extra, hextra, fun db hdb mode raw hwithin => ?_⟩
    rw [answer_of_scope (hextra raw)]
    exact list_of_admits (hadmits db hdb) hwithin
  · refine ⟨_, Scope.assetGroups_eq [], fun db r => ?_⟩
    simp [← Bool.not_eq_true, holds_ownedByOneOf]

/-! ## Assets of a user and of groups

Two of four assets belong to the user and to one of the groups, and the filter leaves one of them. -/

def jointAsset (id user group version : Int) : Row :=
  ⟨id, [("asset_name", .text "plan"), ("owner_user_id", .integer user),
    ("owner_group_id", .integer group), ("asset_type", .text "BOOK"), ("visibility", .text "GROUP"),
    ("created_at", .text "2024-01-06 12:00:00"), ("related_resource_count", .integer 0),
    ("version", .integer version)]⟩

def jointAssets : Database where
  assets := ⟨[jointAsset 1 7 2 1, jointAsset 2 7 3 4, jointAsset 3 8 2 4, jointAsset 4 7 5 4], 4⟩

def jointOwners : Ownership := { user := some 7, groups := [2, 5, 2] }

/-- One asset is left of those that the filter selects. Two groups are refused for files, before the filter
is found to be no filter. -/
theorem answer_jointAssets :
    ¬jointOwners.Refused .assets ∧
    (∃ items, answer jointAssets .assets .strict { filter := some "version > 1" } jointOwners =
      .ok items ∧ items.records.map Record.id = [4] ∧ items.total = some 1) ∧
    Ownership.Refused { groups := [2, 5] } .assetFiles ∧
    ∃ fault, answer jointAssets .assetFiles .strict { filter := some "oops" } { groups := [2, 5] } =
      .error (.scope fault) := by
  have hfit : ¬jointOwners.Refused .assets := not_not_intro rfl
  have hdb : jointAssets.Ordered := by
    intro e
    cases e <;> decide
  have hrefused : Ownership.Refused { groups := [2, 5] } .assetFiles := .inr (by decide)
  have htokens : Listing.tokens .strict (some "version > 1") = .ok [⟨"version", .comparison .gt, "1"⟩] := by
    show Token.ofFilter .strict "version > 1" = _
    rw [Token.ofFilter, if_neg (by decide)]
    rw [Filter.clauses_eq_singleton "version > 1".toList (by decide)]
    decide
  have hcompile := Listing.compile_eq_ok.mpr
    ⟨_, htokens, (rfl : Predicate.ofTokens .assets [⟨"version", .comparison .gt, "1"⟩] = .ok _)⟩
  have hvalid : (RawParams.resolve { filter := some "version > 1" }).validate = .ok () := rfl
  have hselected := Database.selected_of_compile jointAssets hvalid hcompile none
  refine ⟨hfit, ?_, hrefused, ?_⟩
  · obtain ⟨extra, hextra, hanswer⟩ := (answer_scoped jointOwners .assets).2.2.1 hfit
    -- the scope of the user and of the three groups
    have hscope : extra = assetPredicate jointOwners := Except.ok.inj ((hextra {}).symm.trans rfl)
    rw [hanswer jointAssets hdb, hselected]
    · exact ⟨_, rfl, rfl, rfl⟩
    · intro f hf
      cases hcompile.symm.trans hf
      rw [hscope]
      decide
  · obtain ⟨fault, hfault⟩ := (answer_scoped { groups := [2, 5] } .assetFiles).1 hrefused
    exact ⟨fault, (hfault _ _ _).1⟩

/-- Of the user's assets none is left in an empty store, but with too many comparisons that is not found
out. -/
theorem answer_manyBounds :
    ¬Ownership.Refused { user := some 7 } .assets ∧
    (∃ rows, Database.selected {} .assets .strict (boundedTimes 999) none = .ok rows ∧
      Listing.answer .assets (boundedTimes 999) (rows.filter (Ownership.Admits {} { user := some 7 } .assets ·)) =
        .ok ⟨[], some 0⟩) ∧
    ∃ fault,
      answer {} .assets .strict { filter := (boundedTimes 999).filter } { user := some 7 } =
        .error fault ∧
      fault.message = "Database error: Expression tree is too large (maximum depth 1000)" := by
  have hcompile := compile_boundedTimes .assets .strict 999
  have hscope : (listArguments .assets { filter := (boundedTimes 999).filter } { user := some 7 }).scope
      .assets = .ok (some ⟨[heldBy "owner_user_id" 7]⟩) := rfl
  -- 999 comparisons and the owner
  have hexcess : Database.excess? {} .assets
      ((Predicate.mk (List.replicate 999 Entity.assets.idBound)).narrowed
        (some ⟨[heldBy "owner_user_id" 7]⟩)) = some .depth :=
    Database.excess?_boundedTimes {} .assets (by omega) (show 1000 ≤ 32766 by decide)
  refine ⟨not_not_intro rfl, ⟨_, Database.selected_of_compile {} rfl hcompile none, rfl⟩, ?_⟩
  rw [answer_of_scope hscope]
  show ∃ fault, Database.list {} .assets .strict (boundedTimes 999) _ = .error fault ∧ _
  exact ⟨_, Database.list_of_excess rfl hcompile hexcess, rfl⟩

end CommandLine

end AssetRegister
