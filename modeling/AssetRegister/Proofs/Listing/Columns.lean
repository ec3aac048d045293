import AssetRegister.Listing.Scope
import AssetRegister.Proofs.Condition.Built
import AssetRegister.Proofs.Listing.Fitting

/-!
# A listing reads declared columns only

The catalog declares which columns of a table a listing reads: those it selects, and those that its
attributes name. Two stores that show the same in these columns, and in the attributes' columns of every
table that relations lead to, give the same listings, whatever their other columns hold. The hash of a
user's password is in no declared column, so no listing depends on it.

* `Path.Resolved.column_mem`: a path that resolves ends on the column of an attribute.
* `Record.ofRow_congr`: a record is read from the selected columns.
* `Database.list_eq_of_declared`: listings depend on declared columns only.
-/

namespace AssetRegister

open Outcome

/-! ## Lists whose members correspond -/

/-- Lists have the same images exactly if their members do, one after another. -/
theorem map_eq_map_iff_forall₂ {α β γ : Type} {f : α → γ} {g : β → γ} {xs : List α} {ys : List β} :
    xs.map f = ys.map g ↔ List.Forall₂ (fun x y => f x = g y) xs ys := by
  rw [← List.forall₂_eq_eq_eq, List.forall₂_map_left_iff, List.forall₂_map_right_iff]

/-- Filters that agree on corresponding members leave corresponding members. -/
theorem forall₂_filter {α β : Type} {R : α → β → Prop} {p : α → Bool} {q : β → Bool} {xs : List α}
    {ys : List β} (h : List.Forall₂ R xs ys) (hpq : ∀ x y, R x y → p x = q y) :
    List.Forall₂ R (xs.filter p) (ys.filter q) :=
  List.rel_filter (fun x y hxy => Bool.eq_iff_iff.mp (hpq x y hxy)) h

/-! ## Columns that the catalog declares -/

namespace Entity

/-- The columns of the entity's attributes. -/
def attributeColumns (e : Entity) : List String := e.attributes.map Attribute.column

/-- The columns that a listing of the entity reads: the selected ones and those of attributes. -/
def declaredColumns (e : Entity) : List String := e.selectColumns ++ e.attributeColumns

/-- Every entity has its identifier for an attribute. -/
theorem id_mem_attributeColumns (e : Entity) : "id" ∈ e.attributeColumns := by
  cases e <;> decide

/-- No entity declares a column for the hash of a password. -/
theorem passwordHash_notMem_declaredColumns (e : Entity) :
    "password_hash" ∉ e.declaredColumns := by
  cases e <;> decide

theorem column_mem_attributeColumns {e : Entity} {name : String} {a : Attribute}
    (h : e.attribute? name = some a) : a.column ∈ e.attributeColumns :=
  List.mem_map_of_mem (mem_of_attribute? h)

end Entity

/-- A path that resolves ends on the column of an attribute of its owner. -/
theorem Path.Resolved.column_mem {e : Entity} {p : Path} (h : p.Resolved e) :
    p.column ∈ p.owner.attributeColumns := by
  obtain ⟨a, ha, hcolumn, -⟩ := h.leaf
  rw [hcolumn]
  exact List.mem_map_of_mem ha

/-- The hops of a chain go along columns of attributes. -/
theorem Chain.column_mem {e last : Entity} {hops : List Hop} (h : Chain e hops last) :
    ∀ hop ∈ hops, hop.column ∈ hop.owner.attributeColumns := by
  induction h with
  | nil => exact List.forall_mem_nil _
  | cons hname _ _ ih =>
    exact List.forall_mem_cons.mpr ⟨Entity.column_mem_attributeColumns hname, ih⟩

/-- Relations do not lead out of a set of entities that contains the targets of its members. -/
theorem Chain.last_mem {entities : List Entity}
    (hclosed : ∀ e ∈ entities, ∀ a ∈ e.attributes, ∀ target ∈ a.type.target?, target ∈ entities)
    {e last : Entity} {hops : List Hop} (h : Chain e hops last) (he : e ∈ entities) :
    last ∈ entities := by
  induction h with
  | nil => exact he
  | cons hname htype _ ih =>
    have htarget := hclosed _ he _ (Entity.mem_of_attribute? hname) _ (by rw [htype]; rfl)
    exact ih htarget

/-! ## Rows that show the same in some columns -/

/-- Two rows have the same content in each of some columns. -/
def Row.SameOn (columns : List String) (r s : Row) : Prop := ∀ c ∈ columns, r.get c = s.get c

namespace Row

theorem SameOn.mono {columns columns' : List String} {r s : Row} (h : SameOn columns r s)
    (hsub : columns' ⊆ columns) : SameOn columns' r s :=
  fun c hc => h c (hsub hc)

/-- Rows that are the same in the attributes' columns have the same identifier. -/
theorem SameOn.id_eq {e : Entity} {r s : Row} (h : SameOn e.attributeColumns r s) : r.id = s.id := by
  have hid : Value.integer r.id = Value.integer s.id := h "id" e.id_mem_attributeColumns
  exact Value.integer.inj hid

theorem map_get_eq_iff {columns : List String} {r s : Row} :
    columns.map r.get = columns.map s.get ↔ SameOn columns r s :=
  List.map_inj_left

end Row

/-- A record is read from the selected columns: rows that show the same there give the same record, or
the same fault. One case for each entity. -/
theorem Record.ofRow_congr {e : Entity} {r s : Row} (h : Row.SameOn e.selectColumns r s) :
    Record.ofRow e r = Record.ofRow e s := by
  unfold Row.SameOn at h
  cases e with
  | users => simp (disch := decide) only [Record.ofRow, User.ofRow, Row.cell, h]
  | userGroups => simp (disch := decide) only [Record.ofRow, UserGroup.ofRow, Row.cell, h]
  | assets => simp (disch := decide) only [Record.ofRow, Asset.ofRow, Row.cell, h]
  | assetFiles => simp (disch := decide) only [Record.ofRow, AssetFile.ofRow, Row.cell, h]
  | suppliers => simp (disch := decide) only [Record.ofRow, Supplier.ofRow, Row.cell, h]

/-! ## Stores that show the same in declared columns -/

namespace Database

/-- The table of an entity, restricted to some columns. -/
def restricted (db : Database) (e : Entity) (columns : List String) : List (List Value) :=
  (db.rows e).map fun r => columns.map r.get

/-- Tables agree in some columns exactly if their rows do, one after another. -/
theorem restricted_eq_iff {d₁ d₂ : Database} {e : Entity} {columns : List String} :
    d₁.restricted e columns = d₂.restricted e columns ↔
      List.Forall₂ (Row.SameOn columns) (d₁.rows e) (d₂.rows e) := by
  unfold restricted
  rw [map_eq_map_iff_forall₂]
  simp only [Row.map_get_eq_iff]

/-- Two stores that show the same in the declared columns of an entity, and in the attributes' columns of
every entity that relations lead to from it. -/
structure SameDeclared (d₁ d₂ : Database) (e : Entity) : Prop where
  own : d₁.restricted e e.declaredColumns = d₂.restricted e e.declaredColumns
  related : ∀ hops target, Chain e hops target →
    d₁.restricted target target.attributeColumns = d₂.restricted target target.attributeColumns

/-- Two stores that differ at most in one column of an entity. -/
structure SameBut (e : Entity) (column : String) (d₁ d₂ : Database) : Prop where
  others : ∀ e', e' ≠ e → d₁.rows e' = d₂.rows e'
  rows : List.Forall₂ (fun r s => ∀ c, c ≠ column → r.get c = s.get c) (d₁.rows e) (d₂.rows e)

/-- Restricted to other columns, the stores are the same. -/
theorem SameBut.restricted_eq {e : Entity} {column : String} {d₁ d₂ : Database}
    (h : SameBut e column d₁ d₂) (e' : Entity) {columns : List String} (hcolumn : column ∉ columns) :
    d₁.restricted e' columns = d₂.restricted e' columns := by
  by_cases he : e' = e
  · subst he
    refine restricted_eq_iff.mpr (h.rows.imp fun r s hrs c hc => hrs c ?_)
    rintro rfl
    exact hcolumn hc
  · unfold restricted
    rw [h.others e' he]

/-- A column that no listing declares does not count. -/
theorem SameBut.sameDeclared {e : Entity} {column : String} {d₁ d₂ : Database}
    (h : SameBut e column d₁ d₂) (hcolumn : ∀ e' : Entity, column ∉ e'.declaredColumns)
    (e' : Entity) : SameDeclared d₁ d₂ e' where
  own := h.restricted_eq e' (hcolumn e')
  related _ target _ :=
    h.restricted_eq target fun hmem => hcolumn target (List.mem_append_right _ hmem)

/-- Tables that relations do not lead to do not count. -/
theorem sameDeclared_of_rows {entities : List Entity}
    (hclosed : ∀ e ∈ entities, ∀ a ∈ e.attributes, ∀ target ∈ a.type.target?, target ∈ entities)
    {d₁ d₂ : Database} (h : ∀ e ∈ entities, d₁.rows e = d₂.rows e) {e : Entity}
    (he : e ∈ entities) : SameDeclared d₁ d₂ e := by
  have hrestricted : ∀ e' ∈ entities, ∀ columns,
      d₁.restricted e' columns = d₂.restricted e' columns := by
    intro e' he' columns
    unfold restricted
    rw [h e' he']
  exact ⟨hrestricted e he _, fun hops target hchain =>
    hrestricted target (hchain.last_mem hclosed he) _⟩

end Database

/-! ## Conditions -/

section

variable {d₁ d₂ : Database}

/-- The targets that pass a test have the same identifiers in both stores, if it has the same truth on
targets that show the same. -/
theorem passingIds_congr {target : Entity} {f g : Row → Truth}
    (htargets : List.Forall₂ (Row.SameOn target.attributeColumns) (d₁.rows target) (d₂.rows target))
    (h : ∀ t u, Row.SameOn target.attributeColumns t u → f t = g u) :
    ((d₁.rows target).filter fun t => f t == some true).map (·.id) =
      ((d₂.rows target).filter fun t => g t == some true).map (·.id) := by
  have hpassing := forall₂_filter htargets fun t u htu => congrArg (· == some true) (h t u htu)
  exact map_eq_map_iff_forall₂.mpr (hpassing.imp fun t u htu => htu.id_eq)

/-- A test behind hops has the same truth on rows that show the same in the attributes' columns, if the
tables on the way do. Induction on the chain of relations: the targets that pass the rest of the hops have
the same identifiers in both stores. -/
theorem Chain.evalHops_congr {e last : Entity} {hops : List Hop} (h : Chain e hops last)
    (htables : ∀ hops target, Chain e hops target →
      List.Forall₂ (Row.SameOn target.attributeColumns) (d₁.rows target) (d₂.rows target))
    {leaf : Row → Truth}
    (hleaf : ∀ r s, Row.SameOn last.attributeColumns r s → leaf r = leaf s) {r s : Row}
    (hrs : Row.SameOn e.attributeColumns r s) :
    Condition.evalHops d₁ leaf hops r = Condition.evalHops d₂ leaf hops s := by
  induction h generalizing r s with
  | nil e => exact hleaf r s hrs
  | @cons e target last name a hops hname htype rest ih =>
    -- the same key is sought among the same identifiers
    have hkey : r.get a.column = s.get a.column :=
      hrs a.column (Entity.column_mem_attributeColumns hname)
    have hids := passingIds_congr (htables _ target (.cons hname htype (.nil target)))
      fun t u htu => ih (fun hops' target' hchain => htables _ target' (.cons hname htype hchain)) hleaf htu
    unfold Condition.evalHops
    dsimp only
    rw [hkey, hids]

/-- The column that a condition is about is one of an attribute. -/
theorem Condition.column_mem {e : Entity} {c : Condition} (hc : c.path.Resolved e) :
    c.column ∈ e.attributeColumns := by
  have hchain := hc.chain
  have hleaf := hc.column_mem
  unfold column
  cases hhops : c.path.hops with
  | nil =>
    rw [hhops] at hchain
    cases hchain
    exact hleaf
  | cons h hops =>
    rw [hhops] at hchain
    cases hchain with
    | cons hname => exact Entity.column_mem_attributeColumns hname

namespace Database

variable {e : Entity}

/-- The tables on the way of any chain show the same. -/
theorem SameDeclared.tables (h : SameDeclared d₁ d₂ e) (hops : List Hop) (target : Entity)
    (hchain : Chain e hops target) :
    List.Forall₂ (Row.SameOn target.attributeColumns) (d₁.rows target) (d₂.rows target) :=
  restricted_eq_iff.mp (h.related hops target hchain)

/-- Whatever content its column has, a condition is as true in the one store as in the other. -/
theorem SameDeclared.truthOf_eq (h : SameDeclared d₁ d₂ e) {c : Condition} (hc : c.path.Resolved e)
    (v : Value) : c.truthOf d₁ v = c.truthOf d₂ v := by
  have hchain := hc.chain
  have hleaf : ∀ t u, Row.SameOn c.path.owner.attributeColumns t u → c.evalLeaf t = c.evalLeaf u := by
    intro t u htu
    unfold Condition.evalLeaf
    rw [htu _ hc.column_mem]
  unfold Condition.truthOf
  cases hhops : c.path.hops with
  | nil => rfl
  | cons hop hops =>
    rw [hhops] at hchain
    -- the same content is sought among the same identifiers
    generalize c.path.owner = last at hchain hleaf
    cases hchain with
    | @cons _ target _ _ a _ hname htype rest =>
      have hids := passingIds_congr (h.tables _ target (.cons hname htype (.nil target)))
        fun t u htu => rest.evalHops_congr
          (fun hops' target' hchain => h.tables _ target' (.cons hname htype hchain)) hleaf htu
      dsimp only
      rw [hids]

/-- A condition is as true of a row as of the row in its place. -/
theorem SameDeclared.eval_eq (h : SameDeclared d₁ d₂ e) {c : Condition} (hc : c.path.Resolved e)
    {r s : Row} (hrs : Row.SameOn e.attributeColumns r s) : c.eval d₁ r = c.eval d₂ s := by
  rw [c.eval_eq_truthOf d₁ r, c.eval_eq_truthOf d₂ s, hrs _ (Condition.column_mem hc), h.truthOf_eq hc]

/-- So is a predicate. -/
theorem SameDeclared.holds_eq (h : SameDeclared d₁ d₂ e) {p : Predicate}
    (hp : ∀ c ∈ p.conditions, c.path.Resolved e) {r s : Row}
    (hrs : Row.SameOn e.attributeColumns r s) : p.holds d₁ r = p.holds d₂ s := by
  rw [Bool.eq_iff_iff, Predicate.holds_eq_true, Predicate.holds_eq_true]
  refine forall₂_congr fun c hc => ?_
  rw [h.eval_eq (hp c hc) hrs]

/-- The rows that match are the same in the declared columns. -/
theorem SameDeclared.matching (h : SameDeclared d₁ d₂ e) {p : Predicate}
    (hp : ∀ c ∈ p.conditions, c.path.Resolved e) :
    List.Forall₂ (Row.SameOn e.declaredColumns) (d₁.matching e p) (d₂.matching e p) := by
  refine forall₂_filter (restricted_eq_iff.mp h.own) fun r s hrs => ?_
  have hattributes := hrs.mono (List.subset_append_right e.selectColumns e.attributeColumns)
  exact h.holds_eq hp hattributes

end Database

end

/-! ## Listings -/

/-- Rows that are the same in the selected columns are answered in the same way. -/
theorem Listing.answer_congr {e : Entity} {params : Params} {rows rows' : List Row}
    (h : List.Forall₂ (Row.SameOn e.selectColumns) rows rows') :
    answer e params rows = answer e params rows' := by
  have hread := h.imp fun r s hrs => Record.ofRow_congr hrs
  have hpage : List.Forall₂ (fun r s => Record.ofRow e r = Record.ofRow e s)
      ((Page.of params.limit params.offset).window rows)
      ((Page.of params.limit params.offset).window rows') :=
    List.forall₂_take _ (List.forall₂_drop _ hread)
  unfold answer
  rw [mapM_congr hpage, h.length_eq]

namespace Scope

/-- The predicates that scopes give, with the entity that they are about. -/
inductive Gives : Entity → Predicate → Prop where
  | files {v : Visibility} {user group : Option Int} {p : Predicate}
      (h : fileVisibility v user group = .ok p) : Gives .assetFiles p
  | groups {groups : List Int} {p : Predicate} (h : assetGroups groups = .ok p) : Gives .assets p
  | owner {user : Int} {p : Predicate} (h : assetOwner user = .ok p) : Gives .assets p

/-- A predicate of one test is there if the test is. -/
theorem single_eq_ok {c : Except UnknownField Condition} {p : Predicate} :
    single c = .ok p ↔ ∃ d, c = .ok d ∧ p = ⟨[d]⟩ := by
  cases c <;> simp [single, eq_comm]

theorem built_of_filesWith {field : String} {v : Operand} {p : Predicate}
    (h : filesWith field v = .ok p) : p.Built .assetFiles := by
  obtain ⟨c, hc, rfl⟩ := single_eq_ok.mp h
  exact .equals hc

/-- The tests of owners are built from fields. One case for each visibility and the options given. -/
theorem built_of_ownership {v : Visibility} {user group : Option Int} {p : Predicate}
    (h : ownership v user group = .ok p) : p.Built .assetFiles := by
  unfold ownership at h
  split at h
  · exact built_of_filesWith h
  · cases h
  · exact built_of_filesWith h
  · cases h
  · obtain ⟨q, hq, h⟩ := bind_eq_ok.mp h
    obtain ⟨q', hq', h⟩ := bind_eq_ok.mp h
    -- for public files two tests for absence are put together
    obtain ⟨c, hc, rfl⟩ := single_eq_ok.mp hq
    obtain ⟨c', hc', rfl⟩ := single_eq_ok.mp hq'
    cases h
    have hextra : ∀ q ∈ some (Predicate.mk [c']), Predicate.Built .assetFiles q := by
      rintro q ⟨⟩
      exact .isNull hc'
    exact .narrowed (.isNull hc) hextra
  · cases h

/-- Scopes are built from tests of fields, like any other extra predicate. -/
theorem Gives.built {e : Entity} {p : Predicate} (h : Gives e p) : p.Built e := by
  cases h with
  | files h =>
    obtain ⟨bucket, hbucket, h⟩ := bind_eq_ok.mp h
    obtain ⟨owner, howner, h⟩ := bind_eq_ok.mp h
    cases h
    -- the bucket narrows the owner's part, which is a test of one field
    have hextra : ∀ q ∈ some owner, Predicate.Built .assetFiles q := by
      rintro q ⟨⟩
      exact built_of_ownership howner
    exact .narrowed (built_of_filesWith hbucket) hextra
  | groups h =>
    obtain ⟨c, hc, rfl⟩ := single_eq_ok.mp h
    exact .isIn hc
  | owner h =>
    obtain ⟨c, hc, rfl⟩ := single_eq_ok.mp h
    exact .equals hc

end Scope

namespace Database

variable {d₁ d₂ : Database} {e : Entity} {mode : ParseMode} {params : Params}
  {extra : Option Predicate}

/-- The paths of a filter and of an extra predicate that can be built resolve. -/
theorem resolved_of_narrowed {p : Predicate} (hp : Listing.compile e mode params.filter = .ok p)
    (hextra : ∀ q ∈ extra, q.Built e) : ∀ c ∈ (p.narrowed extra).conditions, c.path.Resolved e := by
  obtain ⟨ts, -, hts⟩ := Listing.compile_eq_ok.mp hp
  exact (Predicate.Built.narrowed (.ofTokens hts) hextra).resolved

/-- Which limit a query goes beyond depends on declared columns too: patterns are tried on the rows of the
entity, behind tables that are empty in both stores or in neither. -/
theorem SameDeclared.excess?_eq (h : SameDeclared d₁ d₂ e) {p : Predicate}
    (hp : ∀ c ∈ p.conditions, c.path.Resolved e) : d₁.excess? e p = d₂.excess? e p := by
  have hattributes := List.subset_append_right e.selectColumns e.attributeColumns
  have hrows := (restricted_eq_iff.mp h.own).imp fun r s hrs => hrs.mono hattributes
  have hfails : d₁.fails e p = d₂.fails e p := by
    refine fails_congr hrows (fun c hc r s hrs => hrs _ (Condition.column_mem (hp c hc)))
      (fun c hc => h.truthOf_eq (hp c hc)) fun c hc hop hhop => ?_
    obtain ⟨hops, hchain⟩ := (hp c hc).chain.exists_to_target hhop
    have hlength := (h.tables hops hop.target hchain).length_eq
    rw [Bool.eq_iff_iff, List.isEmpty_iff_length_eq_zero, List.isEmpty_iff_length_eq_zero, hlength]
  unfold excess?
  rw [hfails]

/-- Two stores that show the same have the same listings, faults included. -/
theorem SameDeclared.list_eq (h : SameDeclared d₁ d₂ e) (hextra : ∀ q ∈ extra, q.Built e) :
    d₁.list e mode params extra = d₂.list e mode params extra := by
  refine list_congr fun p hp => ?_
  have hresolved := resolved_of_narrowed hp hextra
  refine execute_congr (h.excess?_eq hresolved) (Listing.answer_congr ?_)
  have hselect := List.subset_append_left e.selectColumns e.attributeColumns
  exact (h.matching hresolved).imp fun r s hrs => hrs.mono hselect

/-- **A listing depends on declared columns only.** For every request whose extra predicate can be built,
as those of scopes are:

* stores that show the same in the declared columns give the same listing, or the same fault;
* so do stores that differ at most in the hashes of passwords;
* a listing of assets or of their files depends neither on groups nor on suppliers.

A path that resolves, in whatever style, goes along columns of attributes and ends on one. No declared
column holds the hash of a password. -/
theorem list_eq_of_declared (e : Entity) :
    (∀ mode params extra, (∀ q ∈ extra, Predicate.Built e q) →
      (∀ d₁ d₂ : Database, SameDeclared d₁ d₂ e →
        d₁.list e mode params extra = d₂.list e mode params extra) ∧
      (∀ d₁ d₂ : Database, SameBut .users "password_hash" d₁ d₂ →
        d₁.list e mode params extra = d₂.list e mode params extra) ∧
      (e = .assets ∨ e = .assetFiles → ∀ d₁ d₂ : Database,
        (∀ e', e' ≠ .userGroups → e' ≠ .suppliers → d₁.rows e' = d₂.rows e') →
        d₁.list e mode params extra = d₂.list e mode params extra)) ∧
    (∀ q, Scope.Gives e q → q.Built e) ∧
    (∀ style field p, Path.resolve e style field = .ok p →
      p.column ∈ p.owner.attributeColumns ∧
      ∀ h ∈ p.hops, h.column ∈ h.owner.attributeColumns) ∧
    ∀ e' : Entity, "password_hash" ∉ e'.declaredColumns := by
  have hhash : ∀ e' : Entity, "password_hash" ∉ e'.declaredColumns :=
    Entity.passwordHash_notMem_declaredColumns
  refine ⟨fun mode params extra hextra => ⟨?_, ?_, ?_⟩, fun q hq => hq.built, ?_, hhash⟩
  · intro d₁ d₂ h
    exact h.list_eq hextra
  · intro d₁ d₂ h
    exact (h.sameDeclared hhash e).list_eq hextra
  · intro he d₁ d₂ h
    -- relations lead from these entities to users, assets and files only
    have hclosed : ∀ e ∈ [Entity.users, .assets, .assetFiles], ∀ a ∈ e.attributes,
        ∀ target ∈ a.type.target?, target ∈ [Entity.users, .assets, .assetFiles] := by decide
    have hrows : ∀ e ∈ [Entity.users, .assets, .assetFiles], d₁.rows e = d₂.rows e := by
      intro e he
      apply h
      · rintro rfl
        revert he
        decide
      · rintro rfl
        revert he
        decide
    have hmem : e ∈ [Entity.users, .assets, .assetFiles] := by
      rcases he with rfl | rfl <;> decide
    exact (sameDeclared_of_rows hclosed hrows hmem).list_eq hextra
  · intro style field p hp
    have hresolved : p.Resolved e := ⟨style, field, hp⟩
    exact ⟨hresolved.column_mem, hresolved.chain.column_mem⟩

/-! ## Four groups with other passwords

The users have other password hashes, there is a supplier, and the groups have grown. -/

/-- A user with a password's hash. -/
def userRow (id : Int) (name hash : String) : Row :=
  ⟨id, [("user_name", .text name), ("password_hash", .text hash)]⟩

def rehashed : Database :=
  { fourGroups with users := ⟨[userRow 1 "alice" "$2b$10$x", userRow 2 "bob" "$2b$10$y"], 2⟩ }

theorem sameBut_rehashed : SameBut .users "password_hash" fourGroups rehashed where
  others e he := by cases e <;> first | rfl | exact absurd rfl he
  rows := by
    have hget : ∀ (id : Int) (name hash : String) (c : String), c ≠ "password_hash" →
        Row.get ⟨id, [("user_name", .text name)]⟩ c = (userRow id name hash).get c := by
      intro id name hash c hc
      have hlookup : List.lookup c [("password_hash", Value.text hash)] = none := by
        simp [List.lookup_cons, beq_eq_false_iff_ne.mpr hc]
      unfold Row.get userRow
      simp [List.lookup_cons, hlookup]
    exact .cons (hget 1 "alice" _) (.cons (hget 2 "bob" _) .nil)

def otherGroups : Database :=
  { fourGroups with
    userGroups := ⟨[groupRow 1 2 90], 9⟩
    suppliers := ⟨[⟨1, [("supplier_name", .text "Acme")]⟩], 1⟩ }

/-- The page of a user's groups shows nothing of the users' passwords, and a listing of assets nothing
of groups and suppliers. -/
theorem list_rehashed :
    fourGroups ≠ rehashed ∧ fourGroups ≠ otherGroups ∧
    fourGroups.list .userGroups .lenient bobsGroups (some (groupsAmong [1, 4, 6, 9])) =
      rehashed.list .userGroups .lenient bobsGroups (some (groupsAmong [1, 4, 6, 9])) ∧
    fourGroups.list .assets .strict { filter := some "owner_userName ilike B" } none =
      otherGroups.list .assets .strict { filter := some "owner_userName ilike B" } none := by
  have hextra : ∀ q ∈ some (groupsAmong [1, 4, 6, 9]), Predicate.Built .userGroups q := by
    have hids : Condition.isIn .userGroups "id" ([1, 4, 6, 9].map .integer) =
        .ok ⟨⟨[], .userGroups, "id", .numeric .bits64⟩, .among ([1, 4, 6, 9].map .integer)⟩ := rfl
    rintro q ⟨⟩
    exact .isIn hids
  refine ⟨by decide, by decide, ?_, ?_⟩
  · exact ((list_eq_of_declared .userGroups).1 _ _ _ hextra).2.1 _ _ sameBut_rehashed
  · refine ((list_eq_of_declared .assets).1 _ _ none nofun).2.2 (.inl rfl) _ _ ?_
    intro e hgroups hsuppliers
    cases e <;> first | rfl | exact absurd rfl hgroups | exact absurd rfl hsuppliers

end Database

end AssetRegister
