import AssetRegister.Proofs.Condition.Reach
import Mathlib.Data.List.Nodup

/-!
# What the tables hold in every state

The constraints of the columns are checked when a row is added or changed, and the references of all rows
after every step. `Database.Consistent` says what follows for the tables: identifiers and unique columns
are distinct, required columns are present, and references name rows.

* `Database.Consistent.run`: a consistent store stays consistent, whatever steps are taken.
* `Database.Consistent.leadsToOne`: in a consistent store a required reference leads to exactly one row,
  and a nested condition asks about that row.
-/

namespace AssetRegister

/-- A value that is present equals itself. -/
theorem Value.equal_self {v : Value} (h : v ≠ .null) : v.equal v = true := by
  rw [Value.equal_iff]
  cases v with
  | null => exact absurd rfl h
  | integer n => simp [order?]
  | text s => simp [order?]
  | garbled g => simp [order?, orderBytes_eq_eq]
  | blob bytes => simp [order?, orderBytes_eq_eq]
  | real x =>
    cases x with
    | finite s m e => simp [order?, Binary64.order, Binary64.compareScaled]
    | infinite s => simp [order?, Binary64.order]

/-! ## The constraints of one table -/

/-- The rows of an entity have the required columns, and no two of them have the same content in a unique
column. -/
structure Constrained (e : Entity) (rows : List Row) : Prop where
  present : ∀ r ∈ rows, ∀ c ∈ e.columns, c.required = true → r.get c.name ≠ .null
  unique : ∀ c ∈ e.columns, c.unique = true → (rows.map (·.get c.name)).Nodup

/-- Unique columns are required, so two rows cannot both leave one out. -/
theorem Entity.required_of_unique :
    ∀ e : Entity, ∀ c ∈ e.columns, c.unique = true → c.required = true := by
  intro e
  cases e <;> decide

namespace Database

theorem missing?_eq_none {e : Entity} {r : Row} :
    missing? e r = none ↔ ∀ c ∈ e.columns, c.required = true → r.get c.name ≠ .null := by
  simp [missing?, List.find?_eq_none]

/-- No other row has the same content in a unique column. -/
theorem repeated?_eq_none {e : Entity} {others : List Row} {r : Row} :
    repeated? e others r = none ↔ ∀ c ∈ e.columns, c.unique = true →
      ∀ o ∈ others, (o.get c.name).equal (r.get c.name) = false := by
  simp [repeated?, List.find?_eq_none]

end Database

namespace Constrained

variable {e : Entity} {rows others : List Row} {row : Row}

theorem nil (e : Entity) : Constrained e [] :=
  ⟨List.forall_mem_nil _, fun _ _ _ => List.nodup_nil⟩

theorem sublist (h : Constrained e rows) (hothers : others.Sublist rows) : Constrained e others :=
  ⟨fun r hr => h.present r (hothers.subset hr),
    fun c hc hunique => (h.unique c hc hunique).sublist (hothers.map _)⟩

/-- A row that passes its checks keeps the constraints of the rows among which it is placed. -/
theorem place (h : Constrained e others) (hrow : Database.checkRow e others row = .ok ()) :
    Constrained e (Table.place row others) := by
  obtain ⟨hmissing, -, hrepeated⟩ := Database.checkRow_eq_ok.mp hrow
  have hpresent := Database.missing?_eq_none.mp hmissing
  refine ⟨fun r hr => ?_, fun c hc hunique => ?_⟩
  · rcases Table.mem_place.mp hr with rfl | hr
    · exact hpresent
    · exact h.present r hr
  · rw [((Table.perm_place row others).map _).nodup_iff, List.map_cons, List.nodup_cons]
    refine ⟨fun hmem => ?_, h.unique c hc hunique⟩
    -- a row with the same content would have been found to be equal
    obtain ⟨o, ho, hsame⟩ := List.mem_map.mp hmem
    have hdiffer := Database.repeated?_eq_none.mp hrepeated c hc hunique o ho
    rw [hsame, Value.equal_self (hpresent c hc (e.required_of_unique c hc hunique))] at hdiffer
    cases hdiffer

end Constrained

/-! ## Consistent stores -/

namespace Database

/-- The identifiers of every table are ordered, so they are distinct; every table keeps its constraints;
and a reference is absent or names a row of its target. -/
structure Consistent (db : Database) : Prop where
  ordered : db.Ordered
  constrained : ∀ e, Constrained e (db.rows e)
  references : ∀ e, ∀ r ∈ db.rows e, ∀ c ∈ e.columns, ∀ target, c.references? = some target →
    r.get c.name = .null ∨ ∃ t ∈ db.rows target, r.get c.name = .integer t.id

example : Entity.all.map (fun e => (e.columns.filter (·.unique)).map (e.qualified ·.name)) =
    [["users.user_name"], ["user_groups.group_name"], [], ["asset_files.cos_key"], []] := by decide

example : Entity.all.flatMap (fun e => e.columns.filterMap fun c =>
      c.references?.map fun target => (e.qualified c.name, target)) =
    [("user_groups.created_by", .users), ("assets.owner_user_id", .users),
      ("assets.owner_group_id", .userGroups), ("asset_files.asset_id", .assets),
      ("asset_files.upload_user_id", .users)] := by decide

/-- What the check of the references says of each row. -/
theorem referencesHold_iff {db : Database} :
    db.referencesHold = true ↔
      ∀ e, ∀ r ∈ db.rows e, ∀ c ∈ e.columns, ∀ target, c.references? = some target →
        r.get c.name = .null ∨ ∃ t ∈ db.rows target, r.get c.name = .integer t.id := by
  have hall : ∀ e, e ∈ Entity.all := fun e => by cases e <;> decide
  have hrow : ∀ e r, db.rowReferencesHold e r = true ↔
      ∀ c ∈ e.columns, ∀ target, c.references? = some target →
        r.get c.name = .null ∨ ∃ t ∈ db.rows target, r.get c.name = .integer t.id := by
    intro e r
    unfold rowReferencesHold
    rw [List.all_eq_true]
    refine forall_congr' fun c => imp_congr_right fun _ => ?_
    cases c.references? with
    | none => simp
    | some target => simp [referenceHolds]
  unfold referencesHold
  simp only [List.all_eq_true, hrow]
  exact ⟨fun h e => h e (hall e), fun h e _ => h e⟩

theorem consistent_empty : ({} : Database).Consistent := by
  have hrows : ∀ e, ({} : Database).rows e = [] := fun e => by cases e <;> rfl
  refine ⟨ordered_empty, fun e => ?_, fun e r hr => ?_⟩
  · rw [hrows]
    exact .nil e
  · rw [hrows] at hr
    cases hr

/-! ## Consistency is kept -/

/-- **A step keeps the store consistent.** -/
theorem Consistent.effect {db db' : Database} (h : db.Consistent) (heffect : Effect db db') :
    db'.Consistent := by
  have hordered := h.ordered.effect heffect
  -- the references are checked with the whole store, the constraints with the one row that is placed
  cases heffect with
  | none hsame =>
    have hrows : ∀ e, db'.rows e = db.rows e := fun e => by rw [rows, hsame, rows]
    refine ⟨hordered, fun e => ?_, fun e => ?_⟩
    · rw [hrows]
      exact h.constrained e
    · simp only [hrows]
      exact h.references e
  | placed e hothers hrow _ href =>
    refine ⟨hordered, ?_, referencesHold_iff.mp href⟩
    refine forall_table_withTable (P := fun e t => Constrained e t.rows) h.constrained ?_
    exact ((h.constrained e).sublist hothers).place hrow
  | removed e hothers href =>
    refine ⟨hordered, ?_, referencesHold_iff.mp href⟩
    refine forall_table_withTable (P := fun e t => Constrained e t.rows) h.constrained ?_
    exact (h.constrained e).sublist hothers

/-- So does any number of steps. -/
theorem Consistent.run {db : Database} (h : db.Consistent) (steps : List Step) :
    (db.run steps).Consistent :=
  run_induction Consistent.effect h steps

/-- The store with the sample rows is consistent, being made by inserts. -/
theorem consistent_seeded : seeded.Consistent :=
  seeded_induction (fun h hok => h.effect (effect_of_insert hok)) consistent_empty

/-! ## Links between rows -/

/-- A hop leads from a row to exactly one row of its target, and a test behind the hop is true of the
row exactly if it is true of the one it leads to. -/
def LeadsToOne (db : Database) (h : Hop) (r : Row) : Prop :=
  ∃ t ∈ db.rows h.target,
    (∀ u ∈ db.rows h.target, (r.get h.column).equal (.integer u.id) = true ↔ u = t) ∧
    ∀ leaf hops, Condition.evalHops db leaf (h :: hops) r = some true ↔
      Condition.evalHops db leaf hops t = some true

/-- A required reference leads to exactly one row. -/
theorem Consistent.leadsToOne {db : Database} (h : db.Consistent) {e target : Entity} {name : String}
    (hcolumn : ∃ c ∈ e.columns, c.name = name ∧ c.required = true ∧ c.references? = some target) :
    ∀ r ∈ db.rows e, db.LeadsToOne ⟨e, name, target⟩ r := by
  obtain ⟨c, hc, rfl, hrequired, href⟩ := hcolumn
  intro r hr
  have hpresent := (h.constrained e).present r hr c hc hrequired
  obtain habsent | ⟨t, ht, hkey⟩ := h.references e r hr c hc target href
  · exact absurd habsent hpresent
  have hequal : (r.get c.name).equal (.integer t.id) = true := by
    rw [hkey]
    exact Value.equal_self Value.noConfusion
  -- identifiers are distinct, so the key names no other row
  refine ⟨t, ht, fun u hu => ⟨fun hu' => ?_, fun hut => hut ▸ hequal⟩, fun leaf hops => ?_⟩
  · have hid := Value.eq_of_equal_integer hu' hequal
    exact (h.ordered target).eq_of_id_eq hu ht hid
  · -- the key names `t`, so the first of the hops is to `t`
    have hfound := (referred?_eq_some h.ordered).mpr ⟨ht, hequal⟩
    rw [Condition.evalHops_eq_true h.ordered, Condition.evalHops_eq_true h.ordered, reach?,
      hfound, Option.bind_some]

end Database

end AssetRegister
