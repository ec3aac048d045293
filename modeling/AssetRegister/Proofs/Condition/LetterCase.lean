import AssetRegister.Proofs.Catalog.Chain
import AssetRegister.Proofs.Condition.Containment

/-!
# Ignoring letter case

One expects the substring test that ignores letter case to find whatever the other finds. It does so for
every value but those with a capital sigma whose form depends on letters beyond the value
(`Text.SettledSigmas`): the value is lowered on its own and the text with its own letters around the
same part. For such a value some text is found by the one test and missed by the other.

Main statement: `Condition.ilike_of_like_iff`.
-/

namespace AssetRegister

/-! ## Stores in which all links lead to the same text -/

/-- The columns of relations. -/
def linkColumns : List String := ["created_by", "owner_user_id", "asset_id"]

namespace Entity

/-- The columns of relations are among these, for every entity. -/
theorem column_mem_linkColumns {e target : Entity} {a : Attribute} (ha : a ∈ e.attributes)
    (htype : a.type = .relation target) : a.column ∈ linkColumns := by
  have hcolumns : ∀ a ∈ e.attributes, a.type.target?.isSome → a.column ∈ linkColumns := by
    cases e <;> decide
  exact hcolumns a ha (by rw [htype]; rfl)

/-- No attribute that is compared as text has the identifier's column or a relation's. -/
theorem column_of_text {e : Entity} {a : Attribute} (ha : a ∈ e.attributes)
    (hkind : a.type.kind = .text) : a.column ≠ "id" ∧ a.column ∉ linkColumns := by
  revert a
  cases e <;> decide

end Entity

/-- A row with a text, in which every relation is to the row with its own identifier. -/
def linkRow (column s : String) : Row :=
  ⟨1, (column, .text s) :: linkColumns.map fun link => (link, .integer 1)⟩

/-- The row holds the text in the given column. -/
theorem linkRow_get {column : String} (h : column ≠ "id") (s : String) :
    (linkRow column s).get column = .text s := by
  rw [Row.get, if_neg h, linkRow, List.lookup_cons_self]
  rfl

/-- Its relations are to itself. -/
theorem linkRow_get_link {column link : String} (h : column ∉ linkColumns)
    (hlink : link ∈ linkColumns) (s : String) : (linkRow column s).get link = .integer 1 := by
  have hlinks : ∀ link ∈ linkColumns, link ≠ "id" ∧
      (linkColumns.map fun link => (link, Value.integer 1)).lookup link = some (.integer 1) := by
    decide
  obtain ⟨hid, hcell⟩ := hlinks link hlink
  have hother : (link == column) = false := beq_false_of_ne (ne_of_mem_of_not_mem hlink h)
  rw [Row.get, if_neg hid, linkRow, List.lookup_cons, hother]
  dsimp only
  rw [hcell]
  rfl

namespace Database

/-- The store that has one row in every table, always the same. -/
def repeated (r : Row) : Database where
  users := ⟨[r], r.id⟩
  userGroups := ⟨[r], r.id⟩
  assets := ⟨[r], r.id⟩
  assetFiles := ⟨[r], r.id⟩
  suppliers := ⟨[r], r.id⟩

theorem rows_repeated (r : Row) (e : Entity) : (repeated r).rows e = [r] := by
  cases e <;> rfl

theorem identified_repeated (r : Row) : (repeated r).Identified := by
  intro e
  rw [rows_repeated]
  exact List.nodup_singleton _

/-- Along any chain of relations the links lead back to the row. -/
theorem leads_repeated {e last : Entity} {hops : List Hop} (h : Chain e hops last) {column : String}
    (hcolumn : column ∉ linkColumns) (s : String) :
    (repeated (linkRow column s)).Leads hops (linkRow column s) (linkRow column s) := by
  induction h with
  | nil => exact .here _
  | @cons e target _ _ a _ hname htype _ ih =>
    -- whatever relation comes next, its key is that of the row itself
    have hlink : (linkRow column s).get a.column = .integer 1 :=
      linkRow_get_link hcolumn (Entity.column_mem_linkColumns (Entity.mem_of_attribute? hname) htype) s
    have hrow : linkRow column s ∈ (repeated (linkRow column s)).rows target := by
      rw [rows_repeated]
      exact List.mem_singleton_self _
    refine .along ?_ hrow ?_ ih
    · rw [hlink]
      exact nofun
    · rw [hlink]
      rfl

end Database

namespace Condition

/-- **Which values ignoring case loses no match for.** For an attribute that is compared as text and a value
without wildcards and nulls, both tests compile, and these are the same:

* in every store, every row that links to a text without nulls of which `like` is true makes `ilike` true;
* the capital sigmas of the value are settled. -/
theorem ilike_of_like_iff {e : Entity} {p : Path} (hp : p.Resolved e) (hkind : p.kind = .text)
    {v : String} (hv : '\x00' ∉ v.toList) (hrun : '%' ∉ v.toList) (hone : '_' ∉ v.toList) :
    ∃ c d, compile p .like v = .ok c ∧ compile p .ilike v = .ok d ∧
      ((∀ db : Database, db.Identified → ∀ r ∈ db.rows e, ∀ t s, db.Leads p.hops r t →
          t.get p.column = .text s → '\x00' ∉ s.toList →
          c.eval db r = some true → d.eval db r = some true) ↔
        Text.SettledSigmas v.toList) := by
  refine ⟨_, _, compile_like hkind v, compile_ilike hkind v, ?_⟩
  have hchars : ∀ s, (Text.lower s).toList = Text.lowerChars s.toList := fun s => String.toList_ofList
  have hlike : ∀ {t s}, t.get p.column = .text s → '\x00' ∉ s.toList →
      (evalLeaf ⟨p, .like (Test.containing v)⟩ t = some true ↔
        ∃ m, m <:+: s.toList ∧ List.Forall₂ Alike v.toList m) := by
    intro t s ht hs
    rw [evalLeaf_like ht hv hs, Wildcard.matchesIn_iff_forall₂ hrun hone]
  have hilike : ∀ {t s}, t.get p.column = .text s → '\x00' ∉ s.toList →
      (evalLeaf ⟨p, .ilike (Test.containing (Text.lower v))⟩ t = some true ↔
        ∃ m, m <:+: Text.lowerChars s.toList ∧ List.Forall₂ Alike (Text.lowerChars v.toList) m) := by
    intro t s ht hs
    rw [evalLeaf_ilike ht hv hs, Wildcard.matchesIn_iff_forall₂ (Text.notMem_lower (by decide) hrun)
      (Text.notMem_lower (by decide) hone), hchars, hchars]
  rw [Text.settledSigmas_iff hv]
  constructor
  · intro h s hs hpart
    -- a store in which the links lead to this text
    obtain ⟨a, ha, hcolumn, hattribute⟩ := hp.leaf
    obtain ⟨hid, hlinks⟩ := Entity.column_of_text ha (hattribute ▸ hkind)
    rw [← hcolumn] at hid hlinks
    have hget := linkRow_get hid (String.ofList s)
    have hleads := Database.leads_repeated hp.chain hlinks (String.ofList s)
    have hdb := Database.identified_repeated (linkRow p.column (String.ofList s))
    have hrow : linkRow p.column (String.ofList s) ∈
        (Database.repeated (linkRow p.column (String.ofList s))).rows e := by
      rw [Database.rows_repeated]
      exact List.mem_singleton_self _
    have hs' : '\x00' ∉ (String.ofList s).toList := by rwa [String.toList_ofList]
    have htrue := h _ hdb _ hrow _ _ hleads hget hs'
    rw [eval_iff_of_leads (c := ⟨p, _⟩) hdb hleads, eval_iff_of_leads (c := ⟨p, _⟩) hdb hleads,
      hlike hget hs', hilike hget hs', String.toList_ofList] at htrue
    exact htrue hpart
  · intro h db hdb r _ t s hleads hget hs
    rw [eval_iff_of_leads (c := ⟨p, _⟩) hdb hleads, eval_iff_of_leads (c := ⟨p, _⟩) hdb hleads,
      hlike hget hs, hilike hget hs]
    exact h s.toList hs

theorem userName_resolved : userName.Resolved .users :=
  ⟨.underscored, "userName", by decide⟩

/-- Nothing is lost for a word without sigmas, but something is for a sigma alone. -/
theorem ilike_of_like_words :
    (∃ c d, compile userName .like "Ärger" = .ok c ∧ compile userName .ilike "Ärger" = .ok d ∧
      ∀ db : Database, db.Identified → ∀ r ∈ db.rows .users, ∀ s, r.get "user_name" = .text s →
        '\x00' ∉ s.toList → c.eval db r = some true → d.eval db r = some true) ∧
    ∃ c d, compile userName .like "Σ" = .ok c ∧ compile userName .ilike "Σ" = .ok d ∧
      ¬∀ db : Database, db.Identified → ∀ r ∈ db.rows .users, ∀ t s,
        db.Leads [] r t → t.get "user_name" = .text s → '\x00' ∉ s.toList →
        c.eval db r = some true → d.eval db r = some true := by
  constructor
  · obtain ⟨c, d, hc, hd, hiff⟩ := ilike_of_like_iff userName_resolved rfl (v := "Ärger") (by decide)
      (by decide) (by decide)
    have hsettled : Text.SettledSigmas "Ärger".toList := Text.settledSigmas_of_notMem (by decide)
    exact ⟨c, d, hc, hd, fun db hdb r hr s => hiff.mpr hsettled db hdb r hr r s (.here r)⟩
  · obtain ⟨c, d, hc, hd, hiff⟩ := ilike_of_like_iff userName_resolved rfl (v := "Σ") (by decide)
      (by decide) (by decide)
    have hunsettled : ¬Text.SettledSigmas "Σ".toList := fun h => (h [] [] rfl).1 ⟨rfl, rfl⟩
    exact ⟨c, d, hc, hd, fun h => hunsettled (hiff.mp h)⟩

/-- A name that ends in a sigma is found by its sigma, but not if case is ignored. -/
theorem ilike_loses_sigma :
    ∃ c d, compile userName .like "Σ" = .ok c ∧ compile userName .ilike "Σ" = .ok d ∧
      c.eval (.repeated (linkRow "user_name" "ΑΣ")) (linkRow "user_name" "ΑΣ") = some true ∧
      d.eval (.repeated (linkRow "user_name" "ΑΣ")) (linkRow "user_name" "ΑΣ") = some false :=
  ⟨_, _, rfl, rfl, by decide, by decide +kernel⟩

end Condition

end AssetRegister
