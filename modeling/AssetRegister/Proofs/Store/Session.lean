import AssetRegister.Proofs.Store.Consistent

/-!
# Sessions

A session takes steps from a new store, with the sample rows or without. `Database.told` lists what its
steps tell, each one in the store in which it is taken: the identifiers that inserts used, that updates
wrote and that deletes freed.

* `Database.usedIds_le_lastId`: a table remembers an identifier that no insert has gone beyond.
* `Database.freedIds_le_lastId`: nor has a delete, unless an update wrote what it freed.
* `Database.fresh_of_run`: an insert that leaves the identifier open gives one that was not in use.
* `Database.consistent_of_run`: what holds in every state of a session.

What an update writes into the identifier of a row is not remembered once the row is gone
(`Database.freed_id_reused`).
-/

namespace AssetRegister

open Outcome

/-! ## Identifiers of new rows -/

/-- The largest identifier is at least the one remembered and those of the rows. -/
theorem Table.le_topId (t : Table) : t.lastId ≤ t.topId ∧ ∀ r ∈ t.rows, r.id ≤ t.topId := by
  have hfold : ∀ (rows : List Row) (n : Int), n ≤ rows.foldl (fun top r => max top r.id) n ∧
      ∀ r ∈ rows, r.id ≤ rows.foldl (fun top r => max top r.id) n := by
    intro rows
    induction rows with
    | nil => exact fun n => ⟨Int.le_refl n, List.forall_mem_nil _⟩
    | cons r rows ih =>
      intro n
      obtain ⟨hmax, hrows⟩ := ih (max n r.id)
      rw [List.foldl_cons]
      exact ⟨by omega, List.forall_mem_cons.mpr ⟨by omega, hrows⟩⟩
  exact hfold t.rows t.lastId

namespace Database

/-- An identifier that is left open is one more than the largest. -/
theorem newId_open {t : Table} {v? : Option Value} (hopen : v? = none ∨ v? = some .null) {id : Int}
    (h : newId t v? = .ok id) : id = t.topId + 1 := by
  have hnew : newId t v? =
      if t.topId < Width.bits64.greatest then .ok (t.topId + 1) else .error .identifiersExhausted := by
    rcases hopen with rfl | rfl <;> rfl
  rw [hnew] at h
  split at h <;> cases h
  rfl

/-- An insert that leaves the identifier open gives one beyond those of the rows and the one that the
table remembers. -/
theorem fresh_of_insert {db db' : Database} {e : Entity} {given : List (String × Value)} {id : Int}
    (hopen : given.lookup e.primaryKey = none ∨ given.lookup e.primaryKey = some .null)
    (h : db.insert e given = .ok (db', id)) :
    (db.table e).lastId < id ∧ ∀ r ∈ db.rows e, r.id < id := by
  obtain ⟨-, hid, -⟩ := insert_eq_ok.mp h
  obtain ⟨hlast, hrows⟩ := (db.table e).le_topId
  have hnew := newId_open hopen hid
  exact ⟨by omega, fun r hr => by have := hrows r hr; omega⟩

/-- A table remembers the identifier that an insert gave, if it is the largest so far. -/
theorem lastId_of_insert {db db' : Database} {e : Entity} {given : List (String × Value)} {id : Int}
    (h : db.insert e given = .ok (db', id)) : (db'.table e).lastId = max (db.table e).lastId id := by
  obtain ⟨-, -, -, -, rfl⟩ := insert_eq_ok.mp h
  rw [table_withTable_self]

/-- No step makes a table remember less. -/
theorem Effect.lastId_le {db db' : Database} (h : Effect db db') :
    ∀ e, (db.table e).lastId ≤ (db'.table e).lastId := by
  have hsame : ∀ e, (db.table e).lastId ≤ (db.table e).lastId := fun e => Int.le_refl _
  cases h with
  | none htables => exact fun e => Int.le_of_eq (congrArg Table.lastId (htables e).symm)
  | placed e _ _ hlast =>
    exact forall_table_withTable (P := fun e t => (db.table e).lastId ≤ t.lastId) hsame hlast
  | removed e =>
    exact forall_table_withTable (P := fun e t => (db.table e).lastId ≤ t.lastId) hsame (hsame e)

/-- Nor does a session. -/
theorem lastId_le_run (db : Database) (e : Entity) (steps : List Step) :
    (db.table e).lastId ≤ ((db.run steps).table e).lastId :=
  run_induction (P := fun db' => (db.table e).lastId ≤ (db'.table e).lastId)
    (fun h heffect => Int.le_trans h (heffect.lastId_le e)) (Int.le_refl _) steps

/-! ## What the steps of a session tell -/

/-- What the steps tell, each one in the store in which it is taken. -/
def told {α : Type} (tell : Database → Step → Option α) (db : Database) : List Step → List α
  | [] => []
  | step :: steps => (tell db step).toList ++ told tell (db.after step) steps

/-- The identifier that an insert gives to a row of the entity, if the step is one and is accepted. -/
def inserted? (e : Entity) (db : Database) : Step → Option Int
  | .insert e' given => if e' = e then (db.insert e' given).toOption.map (·.2) else none
  | _ => none

/-- The identifier that an update writes into a row of the entity, if the step is one and changes a row. -/
def renumbered? (e : Entity) (db : Database) : Step → Option Int
  | .update e' id given =>
    if e' = e ∧ (db.update e' id given).toOption.map (·.2) = some 1 then
      (given.lookup e.primaryKey).bind identifier?
    else none
  | _ => none

/-- The identifier of the row of the entity that a delete removes, if the step is one and removes it. -/
def deleted? (e : Entity) (db : Database) : Step → Option Int
  | .delete e' id => if e' = e ∧ (db.delete e' id).toOption.map (·.2) = some 1 then some id else none
  | _ => none

/-- The identifiers that the inserts of a session have given to rows of the entity. -/
def usedIds (e : Entity) : Database → List Step → List Int := told (inserted? e)

/-- The identifiers that the updates of a session have written into rows of the entity. -/
def renumberedIds (e : Entity) : Database → List Step → List Int := told (renumbered? e)

/-- The identifiers of the rows of the entity that the deletes of a session have removed. -/
def freedIds (e : Entity) : Database → List Step → List Int := told (deleted? e)

/-- What the first step tells, or what the later ones tell in the store after it. -/
theorem mem_told_cons {α : Type} {tell : Database → Step → Option α} {db : Database} {step : Step}
    {steps : List Step} {x : α} :
    x ∈ told tell db (step :: steps) ↔ tell db step = some x ∨ x ∈ told tell (db.after step) steps := by
  rw [told, List.mem_append, Option.mem_toList]

/-- An insert tells the identifier that it gave. -/
theorem inserted?_eq_some {e : Entity} {db : Database} {step : Step} {id : Int} :
    inserted? e db step = some id ↔
      ∃ given db', step = .insert e given ∧ db.insert e given = .ok (db', id) := by
  constructor
  · intro h
    cases step with
    | insert e' given =>
      simp only [inserted?, Option.ite_none_right_eq_some] at h
      obtain ⟨rfl, hid⟩ := h
      obtain ⟨⟨db', _⟩, hok, rfl⟩ := Option.map_eq_some_iff.mp hid
      exact ⟨given, db', rfl, toOption_eq_some.mp hok⟩
    | update | delete | setVersion => cases h
  · rintro ⟨given, db', rfl, hok⟩
    simp [inserted?, hok, Except.toOption]

/-- An update that changes a row tells the identifier that it wrote into it. -/
theorem renumbered?_of_update {e : Entity} {db db' : Database} {id newId : Int}
    {given : List (String × Value)} {v : Value} (hok : db.update e id given = .ok (db', 1))
    (hgiven : given.lookup e.primaryKey = some v) (hv : identifier? v = some newId) :
    renumbered? e db (.update e id given) = some newId := by
  simp [renumbered?, hok, Except.toOption, hgiven, hv]

/-- A delete tells the identifier of the row that it removed. -/
theorem deleted?_eq_some {e : Entity} {db : Database} {step : Step} {id : Int} :
    deleted? e db step = some id ↔
      ∃ db', step = .delete e id ∧ db.delete e id = .ok (db', 1) := by
  constructor
  · intro h
    cases step with
    | delete e' id' =>
      simp only [deleted?, Option.ite_none_right_eq_some, Option.some.injEq] at h
      obtain ⟨⟨rfl, hn⟩, rfl⟩ := h
      obtain ⟨⟨db', n⟩, hok, rfl⟩ := Option.map_eq_some_iff.mp hn
      exact ⟨db', rfl, toOption_eq_some.mp hok⟩
    | insert | update | setVersion => cases h
  · rintro ⟨db', rfl, hok⟩
    simp [deleted?, hok, Except.toOption]

/-! ## Where identifiers come from -/

/-- A table remembers an identifier that no insert of the session has gone beyond. -/
theorem usedIds_le_lastId (e : Entity) (db : Database) (steps : List Step) :
    ∀ n ∈ usedIds e db steps, n ≤ ((db.run steps).table e).lastId := by
  unfold usedIds
  induction steps generalizing db with
  | nil => exact List.forall_mem_nil _
  | cons step steps ih =>
    intro n hn
    rcases mem_told_cons.mp hn with hfirst | hlater
    · -- what the first step has given stays remembered
      obtain ⟨given, db', rfl, hok⟩ := inserted?_eq_some.mp hfirst
      have hstep : n ≤ ((db.after (.insert e given)).table e).lastId := by
        simp only [after, hok, lastId_of_insert hok]
        exact Int.le_max_right _ _
      exact Int.le_trans hstep (lastId_le_run _ e steps)
    -- later ones are remembered by induction
    · exact ih (db.after step) n hlater

/-- In a new store no row goes beyond what its table remembers. -/
theorem id_le_lastId_seeded (e : Entity) : ∀ r ∈ seeded.rows e, r.id ≤ (seeded.table e).lastId := by
  refine seeded_induction (P := fun db => ∀ e, ∀ r ∈ (db.table e).rows, r.id ≤ (db.table e).lastId)
    (fun {db db' e given id} h hok => ?_) ?_ e
  · obtain ⟨-, -, -, -, rfl⟩ := insert_eq_ok.mp hok
    refine forall_table_withTable (P := fun _ t => ∀ r ∈ t.rows, r.id ≤ t.lastId) h ?_
    intro r hr
    dsimp only
    rcases Table.mem_place.mp hr with rfl | hr
    · exact Int.le_max_right _ _
    · exact Int.le_trans (h e r hr) (Int.le_max_left _ _)
  · intro e
    cases e <;> exact List.forall_mem_nil _

/-- A row of the store with another table is a row of that table, or was there before. -/
theorem mem_rows_withTable {db : Database} {t : Table} {e e' : Entity} {r : Row}
    (hr : r ∈ (db.withTable t e').rows e) : e = e' ∧ r ∈ t.rows ∨ r ∈ db.rows e := by
  unfold rows at hr ⊢
  by_cases he : e = e'
  · subst he
    rw [table_withTable_self] at hr
    exact .inl ⟨rfl, hr⟩
  · rw [table_withTable_of_ne db t he] at hr
    exact .inr hr

/-- A row that was not there before is the one that has been placed. -/
theorem eq_of_mem_placed {db : Database} {row r : Row} {others : List Row} {last : Int} {e e' : Entity}
    (hothers : others.Sublist (db.rows e'))
    (hr : r ∈ (db.withTable ⟨Table.place row others, last⟩ e').rows e) (hnew : r ∉ db.rows e) :
    e = e' ∧ r = row := by
  rcases mem_rows_withTable hr with ⟨rfl, hplace⟩ | hold
  · refine ⟨rfl, (Table.mem_place.mp hplace).resolve_right fun hother => ?_⟩
    exact hnew (hothers.subset hother)
  · exact absurd hold hnew

/-- A changed row keeps its identifier, or has the one that was given. -/
theorem changedId_eq_ok {r : Row} {v? : Option Value} {id : Int} :
    changedId r v? = .ok id ↔
      v? = none ∧ id = r.id ∨ ∃ v, v? = some v ∧ identifier? v = some id := by
  cases v? with
  | none => simp [changedId, eq_comm]
  | some v => cases h : identifier? v <;> simp [changedId, h]

/-- The identifier of a row after a step was there before, is remembered, or was written by an update. -/
theorem id_after {e : Entity} {db : Database} {step : Step} {r : Row}
    (hr : r ∈ (db.after step).rows e) :
    (∃ o ∈ db.rows e, o.id = r.id) ∨ r.id ≤ ((db.after step).table e).lastId ∨
      renumbered? e db step = some r.id := by
  by_cases hnew : r ∈ db.rows e
  · exact .inl ⟨r, hnew, rfl⟩
  rcases after_eq db step with ⟨db', hok, hafter⟩ | ⟨-, -, hafter⟩
  case inr =>
    rw [hafter] at hr
    exact absurd hr hnew
  rw [hafter] at hr ⊢
  -- only an insert and an update place a row
  cases step with
  | insert e' given =>
    obtain ⟨⟨_, id⟩, hins, rfl⟩ := map_eq_ok.mp hok
    obtain ⟨-, -, -, -, rfl⟩ := insert_eq_ok.mp hins
    obtain ⟨rfl, rfl⟩ := eq_of_mem_placed (List.Sublist.refl _) hr hnew
    rw [table_withTable_self]
    exact .inr (.inl (Int.le_max_right _ _))
  | update e' id given =>
    obtain ⟨⟨_, n⟩, hupd, rfl⟩ := map_eq_ok.mp hok
    obtain ⟨-, ⟨-, rfl, -⟩ | ⟨old, newId, hold, hid, -, -, rfl, rfl⟩⟩ := update_eq_ok.mp hupd
    · exact absurd hr hnew
    obtain ⟨rfl, rfl⟩ := eq_of_mem_placed (Table.without_sublist _ id) hr hnew
    obtain ⟨-, rfl⟩ | ⟨v, hgiven, hv⟩ := changedId_eq_ok.mp hid
    · exact .inl ⟨old, List.mem_of_find?_eq_some hold, rfl⟩
    · exact .inr (.inr (renumbered?_of_update hupd hgiven hv))
  | delete e' id =>
    obtain ⟨⟨_, n⟩, hdel, rfl⟩ := map_eq_ok.mp hok
    obtain ⟨-, rfl, -⟩ | ⟨-, -, -, rfl⟩ := delete_eq_ok.mp hdel
    · exact absurd hr hnew
    rcases mem_rows_withTable hr with ⟨rfl, hother⟩ | hold
    · exact absurd ((Table.without_sublist _ id).subset hother) hnew
    · exact absurd hold hnew
  | setVersion v =>
    have hrows : (db.setVersion v).1.rows e = db.rows e := by cases v <;> cases e <;> rfl
    cases hok
    rw [hrows] at hr
    exact absurd hr hnew

/-- A delete that removes a row removes one of its identifier. -/
theorem exists_row_of_delete {db db' : Database} {e : Entity} {id : Int}
    (h : db.delete e id = .ok (db', 1)) : ∃ r ∈ db.rows e, r.id = id := by
  obtain ⟨-, -, h⟩ | ⟨hsome, -⟩ := delete_eq_ok.mp h
  · cases h
  · obtain ⟨r, hr⟩ := Option.isSome_iff_exists.mp hsome
    have hid := List.find?_some hr
    exact ⟨r, List.mem_of_find?_eq_some hr, beq_iff_eq.mp hid⟩

/-- If the rows have identifiers that are remembered or known, and updates write known ones, then deletes
free identifiers that are remembered or known. -/
theorem freedIds_le_lastId {e : Entity} (known : Int → Prop) (steps : List Step) {db : Database}
    (hrows : ∀ r ∈ db.rows e, r.id ≤ (db.table e).lastId ∨ known r.id)
    (hknown : ∀ n ∈ renumberedIds e db steps, known n) :
    ∀ n ∈ freedIds e db steps, n ≤ ((db.run steps).table e).lastId ∨ known n := by
  unfold freedIds
  induction steps generalizing db with
  | nil => exact List.forall_mem_nil _
  | cons step steps ih =>
    intro n hn
    rcases mem_told_cons.mp hn with hfirst | hlater
    · -- the row was there before the step, so its identifier was remembered or known
      obtain ⟨db', rfl, hok⟩ := deleted?_eq_some.mp hfirst
      obtain ⟨r, hr, rfl⟩ := exists_row_of_delete hok
      exact (hrows r hr).imp_left fun h => Int.le_trans h (lastId_le_run db e _)
    -- a row after the step was there before it, or got a new identifier, or was given one by an update
    · refine ih (fun r hr => ?_) (fun n hn => hknown n (mem_told_cons.mpr (.inr hn))) n hlater
      obtain ⟨o, ho, hid⟩ | hlast | hwritten := id_after hr
      · rw [← hid]
        exact (hrows o ho).imp_left fun h => Int.le_trans h ((effect_after db step).lastId_le e)
      · exact .inl hlast
      · exact .inr (hknown _ (mem_told_cons.mpr (.inl hwritten)))

/-! ## Every state of a session -/

/-- An identifier that was not in use: it is beyond those of the rows after some steps and of the rows at
the start, beyond those that inserts gave, and beyond those that deletes freed, unless an update had
written one of these. -/
structure Fresh (e : Entity) (db : Database) (steps : List Step) (id : Int) : Prop where
  rows : ∀ r ∈ (db.run steps).rows e, r.id < id
  start : ∀ r ∈ db.rows e, r.id < id
  used : ∀ n ∈ usedIds e db steps, n < id
  freed : ∀ n ∈ freedIds e db steps, n < id ∨ n ∈ renumberedIds e db steps

/-- An insert that leaves the identifier open gives one that was not in use, whatever steps came before. -/
theorem fresh_of_run {db db' : Database} {e : Entity} {steps : List Step}
    {given : List (String × Value)} {id : Int}
    (hstart : ∀ r ∈ db.rows e, r.id ≤ (db.table e).lastId)
    (hopen : given.lookup e.primaryKey = none ∨ given.lookup e.primaryKey = some .null)
    (h : (db.run steps).insert e given = .ok (db', id)) : Fresh e db steps id := by
  -- each of the others is at most what the table remembers after the steps
  obtain ⟨hlast, hrows⟩ := fresh_of_insert hopen h
  have hmono := lastId_le_run db e steps
  refine ⟨hrows, fun r hr => ?_, fun n hn => ?_, fun n hn => ?_⟩
  · have := hstart r hr
    omega
  · have := usedIds_le_lastId e db steps n hn
    omega
  · have hfreed := freedIds_le_lastId (· ∈ renumberedIds e db steps) steps
      (fun r hr => .inl (hstart r hr)) (fun _ hn => hn) n hn
    exact hfreed.imp_left fun h => by omega

/-- **What holds in every state of a session** that starts from a new store, with the sample rows or
without, whatever steps it takes. The tables are consistent; a refused step changes nothing; an insert
that leaves the identifier open gives its row a fresh one; and for nested conditions every file has
exactly one asset, and every group exactly one creator. -/
theorem consistent_of_run {start : Database} (hstart : start = {} ∨ start = seeded)
    (steps : List Step) :
    (start.run steps).Consistent ∧
    (∀ step fault, (start.run steps).outcome step = .error fault →
      (start.run steps).after step = start.run steps) ∧
    (∀ e given db' id,
      given.lookup e.primaryKey = none ∨ given.lookup e.primaryKey = some .null →
      (start.run steps).insert e given = .ok (db', id) →
        (∃ r ∈ db'.rows e, r.id = id) ∧ Fresh e start steps id) ∧
    (∀ f ∈ (start.run steps).rows .assetFiles,
      (start.run steps).LeadsToOne ⟨.assetFiles, "asset_id", .assets⟩ f) ∧
    (∀ g ∈ (start.run steps).rows .userGroups,
      (start.run steps).LeadsToOne ⟨.userGroups, "created_by", .users⟩ g) := by
  have hconsistent : (start.run steps).Consistent := by
    rcases hstart with rfl | rfl
    · exact consistent_empty.run steps
    · exact consistent_seeded.run steps
  -- the sample rows come from inserts, so the tables remember their identifiers
  have hids : ∀ e, ∀ r ∈ start.rows e, r.id ≤ (start.table e).lastId := by
    rcases hstart with rfl | rfl
    · intro e
      cases e <;> exact List.forall_mem_nil _
    · exact id_le_lastId_seeded
  refine ⟨hconsistent, fun step fault hfault => ?_, fun e given db' id hopen hok => ⟨?_, ?_⟩, ?_, ?_⟩
  · rcases after_eq (start.run steps) step with ⟨db', hok, -⟩ | ⟨-, -, hafter⟩
    · rw [hok] at hfault
      cases hfault
    · exact hafter
  · obtain ⟨-, -, -, -, rfl⟩ := insert_eq_ok.mp hok
    rw [rows, table_withTable_self]
    exact ⟨_, Table.mem_place.mpr (.inl rfl), rfl⟩
  · exact fresh_of_run (hids e) hopen hok
  · exact hconsistent.leadsToOne (by decide)
  · exact hconsistent.leadsToOne (by decide)

/-- A supplier with the columns that have to be given. -/
def sampleSupplier : List (String × Value) :=
  [("supplier_name", .text "Acme Components"), ("status", .text "active"),
    ("supplier_type", .text "MANUFACTURER"), ("primary_contact", .text "Dana Li"),
    ("contact_phone", .text "555-0100"), ("created_by", .integer 1),
    ("created_at", .text "2024-01-10 09:00:00")]

/-- The identifier of a supplier that was added and removed is not given again. -/
theorem consistent_of_run_suppliers :
    ∃ db', (run {} [.insert .suppliers sampleSupplier, .delete .suppliers 1]).insert .suppliers
        sampleSupplier = .ok (db', 2) ∧
      freedIds .suppliers {} [.insert .suppliers sampleSupplier, .delete .suppliers 1] = [1] ∧
      Fresh .suppliers {} [.insert .suppliers sampleSupplier, .delete .suppliers 1] 2 := by
  obtain ⟨-, -, hfresh, -, -⟩ := consistent_of_run (.inl rfl)
    [.insert .suppliers sampleSupplier, .delete .suppliers 1]
  have hok : ∃ db', (run {} [.insert .suppliers sampleSupplier, .delete .suppliers 1]).insert
      .suppliers sampleSupplier = .ok (db', 2) := ⟨_, rfl⟩
  obtain ⟨db', hok⟩ := hok
  exact ⟨db', hok, by decide +kernel, (hfresh .suppliers sampleSupplier db' 2 (.inl rfl) hok).2⟩

/-- An identifier that a row got by an update is given again once the row is removed: no insert has gone
up to it. -/
theorem freed_id_reused :
    ¬∀ (e : Entity) (steps : List Step) (given : List (String × Value)) (db' : Database) (id : Int),
      given.lookup e.primaryKey = none → (run {} steps).insert e given = .ok (db', id) →
        id ∉ freedIds e {} steps := by
  intro h
  -- the update takes the supplier from 1 to 2, and the table goes on remembering 1
  have hfreed := h .suppliers
    [.insert .suppliers sampleSupplier, .update .suppliers 1 [("id", .integer 2)],
      .delete .suppliers 2] sampleSupplier _ 2 rfl rfl
  exact hfreed (by decide +kernel)

end Database

end AssetRegister
