import AssetRegister.Condition.Compile
import AssetRegister.Proofs.Condition.Reach
import Mathlib.Data.List.Nodup

/-!
# Nested query texts mean following links

In the text of a condition behind hops, a hop's column is sought among the identifiers of the target rows
for which the text inside holds. Columns are named with their tables, and the name stands for the row of
the innermost subquery over that table. `Condition.evalText` evaluates the text in this way, from the
inside out, with the rows in scope at hand.

In a text whose hops hang together no name stands for a row further out, so every subquery selects the
same rows wherever it is evaluated. What the text says of a row is then that foreign keys lead from it to
a row that passes the test.

Main statement: `Condition.nested_follows_links`.
-/

namespace AssetRegister

/-! ## Hops that hang together -/

/-- Hops from one entity to another: each starts at the entity to which the one before it leads. -/
inductive Linked : Entity → List Hop → Entity → Prop where
  | nil (e : Entity) : Linked e [] e
  | cons (h : Hop) {hops : List Hop} {last : Entity} (rest : Linked h.target hops last) :
      Linked h.owner (h :: hops) last

/-! ## Evaluating a text -/

/-- The rows in scope, each with the entity whose table names it, innermost first. -/
abbrev Bindings := List (Entity × Row)

/-- The content of a column that a text names with its table. -/
def Bindings.get (rows : Bindings) (e : Entity) (column : String) : Value :=
  match rows.lookup e with
  | some r => r.get column
  | none => .null

/-- The truth of a hop's text: the rows of the target for which the text inside is true are selected, and
the column is sought among their identifiers. -/
def Hop.evalText (db : Database) (h : Hop) (inner : Bindings → Truth) (rows : Bindings) : Truth :=
  let selected := (db.rows h.target).filter fun t => inner ((h.target, t) :: rows) == some true
  (rows.get h.owner h.column).amongIds (selected.map (·.id))

namespace Condition

/-- The truth of the innermost text. -/
def evalLeafText (c : Condition) (rows : Bindings) : Truth :=
  c.test.eval (c.path.owner.affinity c.path.column) (rows.get c.path.owner c.path.column)

/-- The truth of the condition's text, one subquery for each hop, the first hop outermost. -/
def evalText (db : Database) (c : Condition) : Bindings → Truth :=
  c.path.hops.foldr (Hop.evalText db) c.evalLeafText

end Condition

/-- A name stands for the innermost row of its entity. -/
theorem Bindings.get_innermost (e : Entity) (r : Row) (rows : Bindings) (column : String) :
    Bindings.get ((e, r) :: rows) e column = r.get column := by
  unfold Bindings.get
  rw [List.lookup_cons_self]

/-- Nested texts over hops that hang together are about the innermost row only. Induction on the hops
with the rows in scope left open: each text names the row that its own subquery has put in front. -/
theorem Linked.evalText_eq {e last : Entity} {hops : List Hop} (h : Linked e hops last)
    {db : Database} {inner : Bindings → Truth} {leaf : Row → Truth}
    (hinner : ∀ t rows, inner ((last, t) :: rows) = leaf t) (r : Row) (rows : Bindings) :
    hops.foldr (Hop.evalText db) inner ((e, r) :: rows) = Condition.evalHops db leaf hops r := by
  induction h generalizing r rows with
  | nil => exact hinner r rows
  | @cons h hops last _ ih =>
    have hselected : ∀ t, hops.foldr (Hop.evalText db) inner ((h.target, t) :: (h.owner, r) :: rows) =
        Condition.evalHops db leaf hops t := fun t => ih hinner t _
    rw [List.foldr_cons, Hop.evalText, Condition.evalHops]
    simp only [hselected, Bindings.get_innermost]

/-- The text of a condition is as true as the condition. -/
theorem Condition.evalText_eq {db : Database} {e : Entity} {c : Condition}
    (h : Linked e c.path.hops c.path.owner) (r : Row) : c.evalText db [(e, r)] = c.eval db r := by
  refine h.evalText_eq (fun t rows => ?_) r []
  unfold evalLeafText evalLeaf
  rw [Bindings.get_innermost]

/-! ## Where links lead -/

namespace Database

/-- The identifiers in each table are distinct. -/
def Identified (db : Database) : Prop := ∀ e, ((db.rows e).map (·.id)).Nodup

/-- Tables in increasing order of identifiers, as a session leaves them, have distinct ones. -/
theorem Ordered.identified {db : Database} (h : db.Ordered) : db.Identified := by
  intro e
  refine (List.pairwise_map.mpr ?_ : List.Nodup _)
  exact (h e).imp fun hlt => Int.ne_of_lt hlt

/-- Links lead to one row at most, since a key equals one identifier at most. Induction on the hops. -/
theorem Leads.unique {db : Database} (hdb : db.Identified) {hops : List Hop} {r t u : Row}
    (ht : db.Leads hops r t) (hu : db.Leads hops r u) : t = u := by
  induction ht with
  | here r =>
    cases hu
    rfl
  | @along h hops r s t _ hrow hkey _ ih =>
    obtain _ | ⟨-, hrow', hkey', hu⟩ := hu
    have hid := Value.eq_of_equal_integer hkey hkey'
    obtain rfl := List.inj_on_of_nodup_map (hdb h.target) hrow hrow' hid
    exact ih hu

/-- Links go on from the row to which the hops before lead. -/
theorem Leads.exists_between {db : Database} {before after : List Hop} {r t : Row}
    (h : db.Leads (before ++ after) r t) : ∃ s, db.Leads before r s ∧ db.Leads after s t := by
  induction before generalizing r with
  | nil => exact ⟨r, .here r, h⟩
  | cons hop before ih =>
    obtain _ | ⟨hpresent, hrow, hkey, rest⟩ := h
    obtain ⟨s, hs, hafter⟩ := ih rest
    exact ⟨s, .along hpresent hrow hkey hs, hafter⟩

/-- Links do not go on from a row without the foreign key. -/
theorem not_leads_of_null {db : Database} (hdb : db.Identified) {before after : List Hop} {h : Hop}
    {r s : Row} (hs : db.Leads before r s) (hnull : s.get h.column = .null) (t : Row) :
    ¬db.Leads (before ++ h :: after) r t := by
  intro ht
  obtain ⟨s', hs', hafter⟩ := ht.exists_between
  obtain rfl := hs.unique hdb hs'
  obtain _ | ⟨hpresent, -⟩ := hafter
  exact hpresent hnull

end Database

namespace Condition

/-- A condition is true of a row exactly if its test is of the row to which the links lead. -/
theorem eval_iff_of_leads {db : Database} (hdb : db.Identified) {c : Condition} {r t : Row}
    (h : db.Leads c.path.hops r t) : c.eval db r = some true ↔ c.evalLeaf t = some true := by
  unfold eval
  rw [evalHops_iff_leads]
  constructor
  · rintro ⟨u, hu, hleaf⟩
    exact h.unique hdb hu ▸ hleaf
  · intro hleaf
    exact ⟨t, h, hleaf⟩

/-- **Nested query texts mean following the links.** For a condition whose hops hang together, in a store
where identifiers are distinct, and for every row of the first entity:

* the text evaluated from the inside out has the truth of the condition;
* it is true exactly if each foreign key on the way is present and equals the identifier of a row of its
  target, and the test is true of the row finally reached; there is at most one such row;
* if a key on the way is absent, no test at the end of these hops is true, a test for absence included. -/
theorem nested_follows_links {db : Database} (hdb : db.Identified) {e : Entity} {c : Condition}
    (hlinked : Linked e c.path.hops c.path.owner) (r : Row) :
    c.evalText db [(e, r)] = c.eval db r ∧
    (c.evalText db [(e, r)] = some true ↔
      ∃ t, db.Leads c.path.hops r t ∧ c.evalLeaf t = some true) ∧
    (∀ t u, db.Leads c.path.hops r t → db.Leads c.path.hops r u → t = u) ∧
    ∀ before h after s, c.path.hops = before ++ h :: after → db.Leads before r s →
      s.get h.column = .null →
      ∀ test, ({ c with test } : Condition).evalText db [(e, r)] ≠ some true := by
  refine ⟨evalText_eq hlinked r, ?_, fun t u ht hu => ht.unique hdb hu, ?_⟩
  · rw [evalText_eq hlinked]
    exact evalHops_iff_leads
  -- the test plays no part: no row is reached behind the absent key
  · intro before h after s hhops hs hnull test htrue
    rw [evalText_eq (c := { c with test }) hlinked] at htrue
    obtain ⟨t, ht, -⟩ := evalHops_iff_leads.mp htrue
    rw [hhops] at ht
    exact Database.not_leads_of_null hdb hs hnull t ht

/-! ### Files of two assets

The first asset has an owner, the second has none. -/

def twoOwnings : Database where
  users := ⟨[⟨1, [("user_name", .text "alice")]⟩], 1⟩
  assets := ⟨[⟨1, [("owner_user_id", .integer 1)]⟩, ⟨2, [("owner_user_id", .null)]⟩], 2⟩
  assetFiles := ⟨[⟨1, [("asset_id", .integer 1)]⟩, ⟨2, [("asset_id", .integer 2)]⟩], 2⟩

theorem identified_twoOwnings : twoOwnings.Identified := by
  intro e
  cases e <;> decide

/-- That the name of the owner of a file's asset is not bob's. -/
def ownerNotBob : Condition where
  path := ⟨[⟨.assetFiles, "asset_id", .assets⟩, ⟨.assets, "owner_user_id", .users⟩], .users,
    "user_name", .text⟩
  test := .compare .ne (.text "bob")

theorem linked_ownerNotBob :
    Linked .assetFiles ownerNotBob.path.hops ownerNotBob.path.owner :=
  .cons ⟨.assetFiles, "asset_id", .assets⟩ (.cons ⟨.assets, "owner_user_id", .users⟩ (.nil .users))

/-- The condition is true of the first file. Of the second file nothing behind the same hops is true,
neither that the name differs nor that there is none. -/
theorem nested_twoOwnings :
    Condition.ofToken .assetFiles ⟨"asset_owner_userName", .comparison .ne, "bob"⟩ =
      .ok ownerNotBob ∧
    ownerNotBob.evalText twoOwnings [(.assetFiles, ⟨1, [("asset_id", .integer 1)]⟩)] = some true ∧
    ∀ test, ({ ownerNotBob with test } : Condition).evalText twoOwnings
      [(.assetFiles, ⟨2, [("asset_id", .integer 2)]⟩)] ≠ some true := by
  refine ⟨rfl, ?_, ?_⟩
  · obtain ⟨-, htrue, -⟩ := nested_follows_links identified_twoOwnings linked_ownerNotBob
      ⟨1, [("asset_id", .integer 1)]⟩
    have hasset : (⟨1, [("owner_user_id", .integer 1)]⟩ : Row) ∈ twoOwnings.rows .assets := by decide
    have halice : (⟨1, [("user_name", .text "alice")]⟩ : Row) ∈ twoOwnings.rows .users := by decide
    exact htrue.mpr ⟨_, .along (by decide) hasset (by decide)
      (.along (by decide) halice (by decide) (.here _)), by decide⟩
  · obtain ⟨-, -, -, hnull⟩ := nested_follows_links identified_twoOwnings linked_ownerNotBob
      ⟨2, [("asset_id", .integer 2)]⟩
    have hasset : (⟨2, [("owner_user_id", .null)]⟩ : Row) ∈ twoOwnings.rows .assets := by decide
    exact hnull [⟨.assetFiles, "asset_id", .assets⟩] ⟨.assets, "owner_user_id", .users⟩ [] _ rfl
      (.along (by decide) hasset (by decide) (.here _)) rfl

end Condition

end AssetRegister
