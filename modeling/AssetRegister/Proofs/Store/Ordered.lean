import AssetRegister.Proofs.Outcome
import AssetRegister.Store.Seed

/-!
# Tables keep their rows in the order of identifiers

A listing reads a table from its first row to its last, and a foreign key is looked up by the
identifier it holds. Both rely on one invariant of the store: in every table the identifiers increase
strictly, so each names at most one row.

* `Database.insert_eq_ok`, `Database.update_eq_ok`, `Database.delete_eq_ok`: what an accepted step did,
  guards included.
* `Database.Effect`: what any step, accepted or refused, can do to the tables. What holds in every state
  is derived from it by `Database.run_induction`.
* `Database.ordered_of_run`: the order holds after every sequence of steps.
-/

namespace AssetRegister

open Outcome

/-! ## The invariant -/

/-- The identifiers of the rows increase strictly. -/
def Table.Ordered (t : Table) : Prop := t.rows.Pairwise fun a b => a.id < b.id

instance (t : Table) : Decidable t.Ordered := by unfold Table.Ordered; infer_instance

/-- Every table of the store is ordered. -/
def Database.Ordered (db : Database) : Prop := ∀ e, (db.table e).Ordered

namespace Table

/-- Placing a row adds it and keeps the others. -/
theorem perm_place (row : Row) (rows : List Row) : (place row rows).Perm (row :: rows) := by
  induction rows with
  | nil => exact .refl _
  | cons r rows ih =>
    unfold place
    split
    · exact .refl _
    · exact (ih.cons r).trans (.swap row r rows)

theorem mem_place {row x : Row} {rows : List Row} :
    x ∈ place row rows ↔ x = row ∨ x ∈ rows := by
  rw [(perm_place row rows).mem_iff, List.mem_cons]

/-- A row with a new identifier goes to its place in the order. -/
theorem pairwise_place {row : Row} {rows : List Row}
    (h : rows.Pairwise fun a b => a.id < b.id) (hnew : ∀ r ∈ rows, r.id ≠ row.id) :
    (place row rows).Pairwise fun a b => a.id < b.id := by
  induction rows with
  | nil => simp [place]
  | cons r rows ih =>
    obtain ⟨hr, hrows⟩ := List.pairwise_cons.mp h
    unfold place
    split
    -- the new row comes first, and what is behind the old first one is greater still
    · next hlt =>
      refine List.pairwise_cons.mpr ⟨?_, h⟩
      intro x hx
      rcases List.mem_cons.mp hx with rfl | hx
      · exact hlt
      · exact Int.lt_trans hlt (hr x hx)
    -- the new row comes later, among rows that are greater than the first one as it is
    · next hge =>
      have hne := hnew r List.mem_cons_self
      refine List.pairwise_cons.mpr ⟨?_, ih hrows fun x hx => hnew x (List.mem_cons_of_mem _ hx)⟩
      intro x hx
      rcases mem_place.mp hx with rfl | hx
      · omega
      · exact hr x hx

theorem without_sublist (rows : List Row) (id : Int) : (without rows id).Sublist rows :=
  List.filter_sublist

/-- In an ordered table an identifier names at most one row. -/
theorem Ordered.eq_of_id_eq {t : Table} (h : t.Ordered) {a b : Row} (ha : a ∈ t.rows)
    (hb : b ∈ t.rows) (hid : a.id = b.id) : a = b := by
  have hlt : t.rows.Pairwise fun a b => a.id = b.id → a = b :=
    h.imp fun hab heq => absurd heq (by omega)
  have hgt : t.rows.Pairwise fun a b => b.id = a.id → b = a :=
    h.imp fun hab heq => absurd heq (by omega)
  exact List.Pairwise.forall_of_forall_of_flip (fun _ _ _ => rfl) hlt hgt ha hb hid

end Table

namespace Database

@[simp] theorem table_withTable_self (db : Database) (t : Table) (e : Entity) :
    (db.withTable t e).table e = t := by
  cases e <;> rfl

/-- The tables of other entities stay as they are. -/
theorem table_withTable_of_ne (db : Database) (t : Table) {e e' : Entity} (h : e' ≠ e) :
    (db.withTable t e).table e' = db.table e' := by
  cases e <;> cases e' <;> first | rfl | exact absurd rfl h

/-- What holds of every table still does after one is replaced, if it holds of the new one. -/
theorem forall_table_withTable {P : Entity → Table → Prop} {db : Database} (h : ∀ e, P e (db.table e))
    {e : Entity} {t : Table} (ht : P e t) : ∀ e', P e' ((db.withTable t e).table e') := by
  intro e'
  by_cases he : e' = e
  · subst he
    rwa [table_withTable_self]
  · rw [table_withTable_of_ne db t he]
    exact h e'

/-! ## What an accepted step did -/

/-- A step passes the check of its references only if all of them hold, and then stands. -/
theorem checked_eq_ok {db db' : Database} :
    db.checked = .ok db' ↔ db.referencesHold = true ∧ db' = db := by
  unfold checked
  by_cases h : db.referencesHold = true
  · rw [if_pos h, Except.ok.injEq, and_iff_right h, eq_comm]
  · rw [if_neg h]
    simp [h]

/-- A row passes its checks if nothing is missing, its identifier is new, and nothing unique is repeated. -/
theorem checkRow_eq_ok {e : Entity} {others : List Row} {r : Row} :
    checkRow e others r = .ok () ↔
      missing? e r = none ∧ (∀ o ∈ others, o.id ≠ r.id) ∧ repeated? e others r = none := by
  unfold checkRow
  cases missing? e r with
  | some c => simp
  | none =>
    by_cases hid : (others.any fun o => o.id == r.id) = true
    · have : ¬∀ o ∈ others, o.id ≠ r.id := by simpa using hid
      simp [hid, this]
    · have hne : ∀ o ∈ others, o.id ≠ r.id := by simpa using hid
      rw [if_neg hid, and_iff_right rfl, and_iff_right hne]
      cases repeated? e others r <;> simp

/-- An accepted insert knows all columns, has an identifier and passes the checks of its row; the store
then has the row at its place, and all references hold. -/
theorem insert_eq_ok {db db' : Database} {e : Entity} {given : List (String × Value)} {id : Int} :
    db.insert e given = .ok (db', id) ↔
      unknownColumn? e given = none ∧
      newId (db.table e) (given.lookup e.primaryKey) = .ok id ∧
      checkRow e (db.rows e) ⟨id, newCells e given⟩ = .ok () ∧
      db'.referencesHold = true ∧
      db' = db.withTable ⟨Table.place ⟨id, newCells e given⟩ (db.rows e),
        max (db.table e).lastId id⟩ e := by
  unfold insert
  cases unknownColumn? e given with
  | some c => simp [throw, throwThe, MonadExceptOf.throw, bind, Except.bind]
  | none =>
    simp only [bind_eq_ok, checked_eq_ok, pure, Except.pure, Except.ok.injEq, Prod.mk.injEq]
    constructor
    · rintro ⟨n, hn, ⟨⟩, hrow, _, ⟨href, rfl⟩, rfl, rfl⟩
      exact ⟨trivial, hn, hrow, href, rfl⟩
    · rintro ⟨-, hn, hrow, href, rfl⟩
      exact ⟨id, hn, (), hrow, _, ⟨href, rfl⟩, rfl, rfl⟩

/-- An accepted update knows all columns. It changes nothing if no row has the identifier; otherwise
the changed row passes the checks and stands at its place among the other rows. -/
theorem update_eq_ok {db db' : Database} {e : Entity} {id : Int} {given : List (String × Value)}
    {n : Nat} :
    db.update e id given = .ok (db', n) ↔
      unknownColumn? e given = none ∧
      ((db.table e).row? id = none ∧ db' = db ∧ n = 0 ∨
        ∃ r newId, (db.table e).row? id = some r ∧
          changedId r (given.lookup e.primaryKey) = .ok newId ∧
          checkRow e (Table.without (db.rows e) id) ⟨newId, changedCells e r given⟩ = .ok () ∧
          db'.referencesHold = true ∧ n = 1 ∧
          db' = db.withTable { db.table e with
            rows := Table.place ⟨newId, changedCells e r given⟩
              (Table.without (db.rows e) id) } e) := by
  unfold update
  cases unknownColumn? e given with
  | some c => simp [throw, throwThe, MonadExceptOf.throw, bind, Except.bind]
  | none =>
    dsimp only
    cases (db.table e).row? id with
    | none =>
      simp only [pure, Except.pure, Except.ok.injEq, Prod.mk.injEq]
      constructor
      · rintro ⟨rfl, rfl⟩
        exact ⟨trivial, .inl ⟨trivial, rfl, rfl⟩⟩
      · rintro ⟨-, ⟨-, rfl, rfl⟩ | ⟨r, _, h, _⟩⟩
        · exact ⟨rfl, rfl⟩
        · cases h
    | some r =>
      simp only [bind_eq_ok, checked_eq_ok, pure, Except.pure, Except.ok.injEq,
        Prod.mk.injEq]
      constructor
      · rintro ⟨newId, hid, ⟨⟩, hrow, _, ⟨href, rfl⟩, rfl, rfl⟩
        exact ⟨trivial, .inr ⟨r, newId, rfl, hid, hrow, href, rfl, rfl⟩⟩
      · rintro ⟨-, h | ⟨r', newId, hr', hid, hrow, href, rfl, rfl⟩⟩
        · exact absurd h.1 (by simp)
        · cases hr'
          exact ⟨newId, hid, (), hrow, _, ⟨href, rfl⟩, rfl, rfl⟩

/-- An accepted delete changes nothing if no row has the identifier, and otherwise leaves the other
rows. -/
theorem delete_eq_ok {db db' : Database} {e : Entity} {id : Int} {n : Nat} :
    db.delete e id = .ok (db', n) ↔
      ((db.table e).row? id = none ∧ db' = db ∧ n = 0 ∨
        ((db.table e).row? id).isSome ∧ db'.referencesHold = true ∧ n = 1 ∧
          db' = db.withTable { db.table e with rows := Table.without (db.rows e) id } e) := by
  unfold delete
  dsimp only
  cases (db.table e).row? id with
  | none =>
    simp only [pure, Except.pure, Except.ok.injEq, Prod.mk.injEq]
    constructor
    · rintro ⟨rfl, rfl⟩
      exact .inl ⟨trivial, rfl, rfl⟩
    · rintro (⟨-, rfl, rfl⟩ | ⟨h, _⟩)
      · exact ⟨rfl, rfl⟩
      · cases h
  | some r =>
    simp only [bind_eq_ok, checked_eq_ok, pure, Except.pure, Except.ok.injEq, Prod.mk.injEq]
    constructor
    · rintro ⟨_, ⟨href, rfl⟩, rfl, rfl⟩
      exact .inr ⟨rfl, href, rfl, rfl⟩
    · rintro (h | ⟨-, href, rfl, rfl⟩)
      · exact absurd h.1 (by simp)
      · exact ⟨_, ⟨href, rfl⟩, rfl, rfl⟩

/-! ## Sequences of steps -/

/-- A step on the store: a row is added, changed or removed, or the stored version is set. -/
inductive Step where
  | insert (e : Entity) (given : List (String × Value))
  | update (e : Entity) (id : Int) (given : List (String × Value))
  | delete (e : Entity) (id : Int)
  | setVersion (v : Value)

/-- The store after a step. A refused step leaves it as it was. -/
def after (db : Database) : Step → Database
  | .insert e given =>
    match db.insert e given with
    | .ok (db', _) => db'
    | .error _ => db
  | .update e id given =>
    match db.update e id given with
    | .ok (db', _) => db'
    | .error _ => db
  | .delete e id =>
    match db.delete e id with
    | .ok (db', _) => db'
    | .error _ => db
  | .setVersion v => (db.setVersion v).1

/-- The store after some steps. -/
def run (db : Database) (steps : List Step) : Database := steps.foldl after db

/-- What a step gives: the next store, or the fault for which it is refused. -/
def outcome (db : Database) : Step → Except StoreFault Database
  | .insert e given => (db.insert e given).map (·.1)
  | .update e id given => (db.update e id given).map (·.1)
  | .delete e id => (db.delete e id).map (·.1)
  | .setVersion v => .ok (db.setVersion v).1

/-- An accepted step leads to its outcome, and a refused one changes nothing. -/
theorem after_eq (db : Database) (step : Step) :
    (∃ db', db.outcome step = .ok db' ∧ db.after step = db') ∨
      (∃ fault, db.outcome step = .error fault ∧ db.after step = db) := by
  cases step with
  | insert e given => cases h : db.insert e given <;> simp [outcome, after, h, Except.map]
  | update e id given => cases h : db.update e id given <;> simp [outcome, after, h, Except.map]
  | delete e id => cases h : db.delete e id <;> simp [outcome, after, h, Except.map]
  | setVersion v => exact .inl ⟨_, rfl, rfl⟩

/-- What a step can do to the tables: nothing, or a row that passes its checks is placed among rows that
were there, or rows are left out. Where a table has changed, the references have been checked. -/
inductive Effect (db : Database) : Database → Prop where
  | none {db' : Database} (h : ∀ e, db'.table e = db.table e) : Effect db db'
  | placed (e : Entity) {row : Row} {others : List Row} {last : Int}
      (hothers : others.Sublist (db.rows e)) (hrow : checkRow e others row = .ok ())
      (hlast : (db.table e).lastId ≤ last)
      (href : (db.withTable ⟨Table.place row others, last⟩ e).referencesHold = true) :
      Effect db (db.withTable ⟨Table.place row others, last⟩ e)
  | removed (e : Entity) {others : List Row} (hothers : others.Sublist (db.rows e))
      (href : (db.withTable { db.table e with rows := others } e).referencesHold = true) :
      Effect db (db.withTable { db.table e with rows := others } e)

/-- An accepted insert places its row among all others. -/
theorem effect_of_insert {db db' : Database} {e : Entity} {given : List (String × Value)} {id : Int}
    (h : db.insert e given = .ok (db', id)) : Effect db db' := by
  obtain ⟨-, -, hrow, href, rfl⟩ := insert_eq_ok.mp h
  exact .placed e (List.Sublist.refl _) hrow (Int.le_max_left _ _) href

/-- Each accepted step has one of the effects. -/
theorem effect_of_outcome {db db' : Database} {step : Step} (h : db.outcome step = .ok db') :
    Effect db db' := by
  cases step with
  | insert e given =>
    obtain ⟨⟨_, id⟩, hok, rfl⟩ := map_eq_ok.mp h
    exact effect_of_insert hok
  | update e id given =>
    obtain ⟨⟨_, n⟩, hok, rfl⟩ := map_eq_ok.mp h
    obtain ⟨-, ⟨-, rfl, -⟩ | ⟨r, newId, -, -, hrow, href, -, rfl⟩⟩ := update_eq_ok.mp hok
    -- no row has the identifier
    · exact .none fun _ => rfl
    · exact .placed e (Table.without_sublist _ id) hrow (Int.le_refl _) href
  | delete e id =>
    obtain ⟨⟨_, n⟩, hok, rfl⟩ := map_eq_ok.mp h
    obtain ⟨-, rfl, -⟩ | ⟨-, href, -, rfl⟩ := delete_eq_ok.mp hok
    · exact .none fun _ => rfl
    · exact .removed e (Table.without_sublist _ id) href
  | setVersion v =>
    cases h
    exact .none fun e => by cases v <;> cases e <;> rfl

/-- So has each step, since a refused one changes nothing. -/
theorem effect_after (db : Database) (step : Step) : Effect db (db.after step) := by
  rcases after_eq db step with ⟨db', hok, hafter⟩ | ⟨fault, -, hafter⟩
  · rw [hafter]
    exact effect_of_outcome hok
  · rw [hafter]
    exact .none fun _ => rfl

/-- What every step keeps, a sequence of steps keeps. -/
theorem run_induction {P : Database → Prop} (hP : ∀ {db db'}, P db → Effect db db' → P db')
    {db : Database} (h : P db) (steps : List Step) : P (db.run steps) := by
  induction steps generalizing db with
  | nil => exact h
  | cons step steps ih => exact ih (hP h (effect_after db step))

section Inserts

variable {P : Database → Prop}
  (hP : ∀ {db db' e given id}, P db → db.insert e given = .ok (db', id) → P db')

include hP

/-- What every accepted insert keeps, a row of them keeps. -/
theorem insertAll_induction {db db' : Database} {e : Entity} {rows : List (List (String × Value))}
    (h : P db) (hok : db.insertAll e rows = .ok db') : P db' := by
  induction rows generalizing db with
  | nil =>
    cases hok
    exact h
  | cons given rest ih =>
    unfold insertAll at hok
    split at hok
    · next hins => exact ih (hP h hins) hok
    · cases hok

theorem add_induction {db : Database} (h : P db) (es : List Entity) : P (Seed.add db es).1 := by
  induction es generalizing db with
  | nil => exact h
  | cons e es ih =>
    unfold Seed.add
    split
    · next hok => exact ih (insertAll_induction hP h hok)
    · exact h

/-- What every accepted insert keeps holds of the store with the sample rows. -/
theorem seeded_induction (h : P {}) : P seeded := add_induction hP h Entity.all

end Inserts

/-! ## Every step keeps the order -/

/-- **A step keeps every table in order.** -/
theorem Ordered.effect {db db' : Database} (h : db.Ordered) (heffect : Effect db db') :
    db'.Ordered := by
  cases heffect with
  | none hsame =>
    intro e
    rw [hsame]
    exact h e
  | placed e hothers hrow =>
    refine forall_table_withTable (P := fun _ t => t.Ordered) h ?_
    -- the check of the row says that its identifier is new
    exact Table.pairwise_place ((h e).sublist hothers) (checkRow_eq_ok.mp hrow).2.1
  | removed e hothers =>
    exact forall_table_withTable (P := fun _ t => t.Ordered) h ((h e).sublist hothers)

/-- So does any number of steps. -/
theorem Ordered.run {db : Database} (h : db.Ordered) (steps : List Step) :
    (db.run steps).Ordered :=
  run_induction Ordered.effect h steps

theorem ordered_empty : ({} : Database).Ordered := by
  intro e
  cases e <;> exact List.Pairwise.nil

theorem ordered_seeded : seeded.Ordered :=
  seeded_induction (fun h hok => h.effect (effect_of_insert hok)) ordered_empty

/-- **Every state of the store is ordered**, whatever steps led to it from a new store, seeded or
not. -/
theorem ordered_of_run (steps : List Step) :
    (run {} steps).Ordered ∧ (run seeded steps).Ordered :=
  ⟨ordered_empty.run steps, ordered_seeded.run steps⟩

end Database
end AssetRegister
