import AssetRegister.Listing.Scope
import AssetRegister.Proofs.Listing.Fitting

/-!
# The files of a visibility

A scope of files asks for a bucket and for the ownership of the file's asset: a given user owns it, a
given group does, or nobody does. Options that do not go with the visibility make no scope. What a scope
asks for is said here of rows (`Scope.InScope`), without conditions and paths.

Main statement: `Scope.fileVisibility_exact`. No file is in two scopes of different visibilities, owners
or groups.
-/

namespace AssetRegister.Scope

/-- The options that go with a visibility are missing, or others are given. -/
def Unfit : Visibility → Option Int → Option Int → Prop
  | .private, user, _ => user = none
  | .group, _, group => group = none
  | .public, user, group => user ≠ none ∨ group ≠ none

/-- A column of an asset holds the owner that is given. -/
def HasOwner (column : String) (owner : Option Int) (asset : Row) : Prop :=
  ∃ id ∈ owner, (asset.get column).equal (.integer id) = true

/-- The owners that a visibility asks of an asset. -/
def Owned : Visibility → Option Int → Option Int → Row → Prop
  | .private, user, _, asset => HasOwner "owner_user_id" user asset
  | .group, _, group, asset => HasOwner "owner_group_id" group asset
  | .public, _, _, asset => asset.get "owner_user_id" = .null ∧ asset.get "owner_group_id" = .null

/-- A file is in the bucket of a visibility, and its asset has the owners that go with it. -/
def InScope (db : Database) (v : Visibility) (user group : Option Int) (file : Row) : Prop :=
  file.get "bucket_type" = .text (Choice.word v.bucket) ∧
    ∃ asset ∈ db.rows .assets,
      (file.get "asset_id").equal (.integer asset.id) = true ∧ Owned v user group asset

/-- Two scopes ask for different visibilities, or for different owners where the visibility has one. -/
def Differ : Visibility → Option Int → Option Int → Visibility → Option Int → Option Int → Prop
  | .private, user, _, .private, user', _ => user ≠ user'
  | .group, _, group, .group, _, group' => group ≠ group'
  | .public, _, _, .public, _, _ => False
  | _, _, _, _, _, _ => True

/-! ## The conditions of a scope -/

/-- The condition that a file is in a bucket. -/
def inBucket (b : BucketType) : Condition :=
  ⟨⟨[], .assetFiles, "bucket_type", .text⟩, .compare .eq (.text (Choice.word b))⟩

/-- A test of an owner of a file's asset. -/
def ownerTest (column : String) (test : Test) : Condition :=
  ⟨⟨[⟨.assetFiles, "asset_id", .assets⟩], .assets, column, .numeric .bits64⟩, test⟩

/-- The conditions on the owners that a visibility asks for. -/
def ownerTests : Visibility → Option Int → Option Int → List Condition
  | .private, user, _ =>
    user.toList.map fun id => ownerTest "owner_user_id" (.compare .eq (.integer id))
  | .group, _, group =>
    group.toList.map fun id => ownerTest "owner_group_id" (.compare .eq (.integer id))
  | .public, _, _ => [ownerTest "owner_user_id" .isNull, ownerTest "owner_group_id" .isNull]

/-- Options that go with a visibility make a scope of these conditions. -/
theorem fileVisibility_eq_ok {v : Visibility} {user group : Option Int} (h : ¬Unfit v user group) :
    fileVisibility v user group = .ok ⟨inBucket v.bucket :: ownerTests v user group⟩ := by
  cases v with
  | «public» =>
    obtain ⟨rfl, rfl⟩ : user = none ∧ group = none := by simpa [Unfit] using h
    rfl
  | group =>
    obtain ⟨id, rfl⟩ := Option.ne_none_iff_exists'.mp h
    rfl
  | «private» =>
    obtain ⟨id, rfl⟩ := Option.ne_none_iff_exists'.mp h
    rfl

/-- Options make no scope exactly if they do not go with the visibility. -/
theorem exists_fileVisibility_eq_error {v : Visibility} {user group : Option Int} :
    (∃ fault, fileVisibility v user group = .error (.scope fault)) ↔ Unfit v user group := by
  constructor
  · rintro ⟨fault, hfault⟩
    by_contra h
    cases (fileVisibility_eq_ok h).symm.trans hfault
  · intro h
    cases v with
    | «public» =>
      -- either owner is one too many
      cases user with
      | none =>
        cases group with
        | none => exact absurd h (by simp [Unfit])
        | some id => exact ⟨.publicWithOwner, rfl⟩
      | some id => exact ⟨.publicWithOwner, rfl⟩
    | group =>
      obtain rfl : group = none := h
      exact ⟨.groupWithoutGroup, rfl⟩
    | «private» =>
      obtain rfl : user = none := h
      exact ⟨.privateWithoutUser, rfl⟩

/-! ## What the conditions say -/

/-- A file is in the bucket whose word it holds. -/
theorem eval_inBucket {db : Database} {r : Row} (b : BucketType) :
    (inBucket b).eval db r = some true ↔ r.get "bucket_type" = .text (Choice.word b) := by
  show (Test.compare .eq (.text (Choice.word b))).eval (Entity.affinity .assetFiles "bucket_type")
    (r.get "bucket_type") = some true ↔ _
  rw [Test.eval_equals rfl]
  exact Value.equal_text

section

variable {db : Database} (hdb : db.Ordered) {r : Row}

include hdb

/-- A test of an owner is about the row that the file's key names. -/
theorem eval_ownerTest {column : String} {test : Test} :
    (ownerTest column test).eval db r = some true ↔
      ∃ asset, db.referred? .assets (r.get "asset_id") = some asset ∧
        test.eval (Entity.affinity .assets column) (asset.get column) = some true := by
  have hreach : db.reach? [⟨.assetFiles, "asset_id", .assets⟩] r =
      db.referred? .assets (r.get "asset_id") := Option.bind_fun_some _
  rw [Condition.eval_eq_true hdb]
  show (∃ asset, db.reach? [⟨.assetFiles, "asset_id", .assets⟩] r = some asset ∧ _) ↔ _
  rw [hreach]
  rfl

/-- A test of equality is about an owner if the column takes identifiers as they are. -/
theorem eval_ownerTest_equals {column : String}
    (hcolumn : Entity.affinity .assets column = .numeric) {id : Int} :
    (ownerTest column (.compare .eq (.integer id))).eval db r = some true ↔
      ∃ asset, db.referred? .assets (r.get "asset_id") = some asset ∧
        HasOwner column (some id) asset := by
  rw [eval_ownerTest hdb, hcolumn]
  refine exists_congr fun asset => and_congr_right fun _ => ?_
  rw [Test.eval_equals rfl]
  simp [HasOwner, Operand.value]

/-- All tests of owners together say that the one asset has the owners that are asked for. -/
theorem eval_ownerTests {v : Visibility} {user group : Option Int} (h : ¬Unfit v user group) :
    (∀ c ∈ ownerTests v user group, c.eval db r = some true) ↔
      ∃ asset, db.referred? .assets (r.get "asset_id") = some asset ∧ Owned v user group asset := by
  cases v with
  | «public» =>
    show (∀ c ∈ [_, _], _) ↔ _
    rw [List.forall_mem_cons, List.forall_mem_singleton, eval_ownerTest hdb, eval_ownerTest hdb]
    simp only [Test.eval_isNull]
    constructor
    -- a file has one asset, so both tests are about it
    · rintro ⟨⟨asset, hasset, huser⟩, asset', hasset', hgroup⟩
      cases hasset.symm.trans hasset'
      exact ⟨asset, hasset, huser, hgroup⟩
    · rintro ⟨asset, hasset, huser, hgroup⟩
      exact ⟨⟨asset, hasset, huser⟩, asset, hasset, hgroup⟩
  | group =>
    obtain ⟨id, rfl⟩ := Option.ne_none_iff_exists'.mp h
    exact List.forall_mem_singleton.trans (eval_ownerTest_equals hdb rfl)
  | «private» =>
    obtain ⟨id, rfl⟩ := Option.ne_none_iff_exists'.mp h
    exact List.forall_mem_singleton.trans (eval_ownerTest_equals hdb rfl)

/-- A scope holds exactly of the files that are in it. -/
theorem holds_of_fileVisibility {v : Visibility} {user group : Option Int} {p : Predicate}
    (hp : fileVisibility v user group = .ok p) :
    p.holds db r = true ↔ InScope db v user group r := by
  have hfit : ¬Unfit v user group := by
    intro hunfit
    obtain ⟨fault, hfault⟩ := exists_fileVisibility_eq_error.mpr hunfit
    cases hp.symm.trans hfault
  cases hp.symm.trans (fileVisibility_eq_ok hfit)
  rw [Predicate.holds_eq_true]
  show (∀ c ∈ inBucket v.bucket :: ownerTests v user group, _) ↔ _
  rw [List.forall_mem_cons, eval_inBucket, eval_ownerTests hdb hfit]
  simp only [Database.referred?_eq_some hdb, InScope, and_assoc]

end

/-! ## Scopes that differ -/

/-- No two visibilities share a bucket. -/
theorem bucket_injective {v v' : Visibility}
    (h : Choice.word v.bucket = Choice.word v'.bucket) : v = v' := by
  revert h
  cases v <;> cases v' <;> decide

/-- A column of an asset holds at most one owner. -/
theorem HasOwner.unique {column : String} {asset : Row} {owner owner' : Option Int}
    (h : HasOwner column owner asset) (h' : HasOwner column owner' asset) : owner = owner' := by
  obtain ⟨id, rfl, hid⟩ := h
  obtain ⟨id', rfl, hid'⟩ := h'
  rw [Value.eq_of_equal_integer hid hid']

/-- No file is in two scopes that differ. -/
theorem InScope.not_differ {db : Database} (hdb : db.Ordered) {r : Row} {v v' : Visibility}
    {user group user' group' : Option Int} (h : InScope db v user group r)
    (h' : InScope db v' user' group' r) :
    ¬Differ v user group v' user' group' := by
  obtain ⟨hbucket, asset, hasset, hkey, howned⟩ := h
  obtain ⟨hbucket', asset', hasset', hkey', howned'⟩ := h'
  -- one bucket, so one visibility; one key, so one asset
  rw [hbucket] at hbucket'
  obtain rfl := bucket_injective (Value.text.inj hbucket')
  have hid := Value.eq_of_equal_integer hkey hkey'
  obtain rfl := (hdb .assets).eq_of_id_eq hasset hasset' hid
  intro hdiffer
  cases v with
  | «public» => exact hdiffer
  | group => exact hdiffer (HasOwner.unique howned howned')
  | «private» => exact hdiffer (HasOwner.unique howned howned')

/-- **The files of a visibility are scoped exactly.**

* Options make no scope exactly if they do not go with the visibility.
* Otherwise the scope holds of the files in the bucket of the visibility whose asset has the owners that
  go with it.
* Two scopes that differ hold of no common file, and listings within them show no common record, whatever
  their filters and pages. -/
theorem fileVisibility_exact (v : Visibility) (user group : Option Int) :
    ((∃ fault, fileVisibility v user group = .error (.scope fault)) ↔ Unfit v user group) ∧
    (¬Unfit v user group → ∃ p, fileVisibility v user group = .ok p ∧
      ∀ db : Database, db.Ordered →
        (∀ r, p.holds db r = true ↔ InScope db v user group r) ∧
        ∀ v' user' group' q, fileVisibility v' user' group' = .ok q →
          Differ v user group v' user' group' →
          (∀ r, ¬(p.holds db r = true ∧ q.holds db r = true)) ∧
          ∀ mode mode' params params' items items',
            db.list .assetFiles mode params (some p) = .ok items →
            db.list .assetFiles mode' params' (some q) = .ok items' →
            ∀ x ∈ items.records, ∀ y ∈ items'.records, x.id ≠ y.id) := by
  refine ⟨exists_fileVisibility_eq_error, fun hfit => ?_⟩
  have hp := fileVisibility_eq_ok hfit
  refine ⟨_, hp, fun db hdb => ⟨fun r => holds_of_fileVisibility hdb hp, ?_⟩⟩
  intro v' user' group' q hq hdiffer
  have hdisjoint : ∀ r, ¬(Predicate.holds db _ r = true ∧ q.holds db r = true) := fun r h =>
    InScope.not_differ hdb ((holds_of_fileVisibility hdb hp).mp h.1)
      ((holds_of_fileVisibility hdb hq).mp h.2) hdiffer
  refine ⟨hdisjoint, ?_⟩
  intro mode mode' params params' items items' hitems hitems' x hx y hy hid
  -- equal identifiers are read from the same row, which would be in both scopes
  obtain ⟨r, hr, hread⟩ := Database.exists_row_of_list hitems x hx
  obtain ⟨r', hr', hread'⟩ := Database.exists_row_of_list hitems' y hy
  obtain ⟨hr, hholds⟩ := Database.mem_matching.mp hr
  obtain ⟨hr', hholds'⟩ := Database.mem_matching.mp hr'
  rw [Record.id_of_ofRow hread, Record.id_of_ofRow hread'] at hid
  obtain rfl := (hdb .assetFiles).eq_of_id_eq hr hr' hid
  exact hdisjoint r ⟨hholds, hholds'⟩

/-! ## Two files of one asset

The asset belongs to a user and to a group. One of its files is not in the bucket of private files. -/

def fileRow (id asset : Int) (bucket : String) : Row :=
  ⟨id, [("asset_id", .integer asset), ("bucket_type", .text bucket)]⟩

def oneAsset : Database where
  users := ⟨[⟨1, [("user_name", .text "alice")]⟩, ⟨2, [("user_name", .text "bob")]⟩], 2⟩
  userGroups := ⟨[Database.groupRow 1 1 2], 1⟩
  assets := ⟨[⟨1, [("owner_user_id", .integer 1), ("owner_group_id", .integer 1)]⟩], 1⟩
  assetFiles := ⟨[fileRow 1 1 "PRIVATE", fileRow 2 1 "PUBLIC"], 2⟩

theorem ordered_oneAsset : oneAsset.Ordered := by
  intro e
  cases e <;> decide

/-- The private files of the owner are the file in their bucket, which is in no scope of another user. No
scope of public files has an owner. -/
theorem fileVisibility_oneAsset :
    (∃ p q, fileVisibility .private (some 1) (some 2) = .ok p ∧
      fileVisibility .private (some 2) none = .ok q ∧
      p.holds oneAsset (fileRow 1 1 "PRIVATE") = true ∧
      p.holds oneAsset (fileRow 2 1 "PUBLIC") = false ∧
      ∀ r, ¬(p.holds oneAsset r = true ∧ q.holds oneAsset r = true)) ∧
    ∃ fault, fileVisibility .public none (some 1) = .error (.scope fault) := by
  constructor
  · obtain ⟨p, hp, hall⟩ :=
      (fileVisibility_exact .private (some 1) (some 2)).2 (Option.some_ne_none 1)
    obtain ⟨q, hq, -⟩ := (fileVisibility_exact .private (some 2) none).2 (Option.some_ne_none 2)
    obtain ⟨hholds, hdiffer⟩ := hall oneAsset ordered_oneAsset
    have hne : Differ .private (some 1) (some 2) .private (some 2) none := by
      show (some 1 : Option Int) ≠ some 2
      decide
    refine ⟨p, q, hp, hq, ?_, ?_, (hdiffer _ _ _ q hq hne).1⟩
    · exact (hholds _).mpr ⟨rfl, _, List.mem_cons_self, by decide, 1, rfl, by decide⟩
    · rw [Bool.eq_false_iff]
      intro h
      have hbucket := ((hholds _).mp h).1
      exact absurd hbucket (by decide)
  · exact (fileVisibility_exact .public none (some 1)).1.mpr (.inr (Option.some_ne_none 1))

end AssetRegister.Scope
