import AssetRegister.Catalog.Path
import AssetRegister.Proofs.Outcome

/-!
# Chains of relations

A path that resolves is a chain: its first hop starts at the root, every other hop starts at the entity
to which the one before it leads, and the last leads to the owner of the leaf. `Follows` states this of the
names that are followed and `Chain` of the hops alone, both without the function that finds paths;
`Path.follow_eq_ok` says that the function finds these paths and nothing else.

Names that are no chain are reported by the leftmost one at which it stops (`Path.resolve_eq_error`).
-/

namespace AssetRegister

open Outcome

/-- Hops along relations of the catalog that lead from the first entity to the last. -/
inductive Chain : Entity → List Hop → Entity → Prop where
  | nil (e : Entity) : Chain e [] e
  | cons {e target last : Entity} {name : String} {a : Attribute} {hops : List Hop}
      (hname : e.attribute? name = some a) (htype : a.type = .relation target)
      (rest : Chain target hops last) :
      Chain e (⟨e, a.column, target⟩ :: hops) last

/-- Names of relations, one after another from the first entity to the last, and the hops along them. -/
inductive Follows : Entity → List String → List Hop → Entity → Prop where
  | nil (e : Entity) : Follows e [] [] e
  | cons {e target last : Entity} {name : String} {a : Attribute} {names : List String}
      {hops : List Hop} (hname : e.attribute? name = some a) (htype : a.type = .relation target)
      (rest : Follows target names hops last) :
      Follows e (name :: names) (⟨e, a.column, target⟩ :: hops) last

/-- Names that are followed make a chain of hops. -/
theorem Follows.chain {e last : Entity} {names : List String} {hops : List Hop}
    (h : Follows e names hops last) : Chain e hops last := by
  induction h with
  | nil e => exact .nil e
  | cons hname htype _ ih => exact .cons hname htype ih

namespace Entity

theorem mem_of_attribute? {e : Entity} {name : String} {a : Attribute}
    (h : e.attribute? name = some a) : a ∈ e.attributes :=
  List.mem_of_find?_eq_some h

/-- The entity that a relation of the given name leads to. -/
def related? (e : Entity) (name : String) : Option Entity :=
  (e.attribute? name).bind fun a => a.type.target?

/-- The entity that relations of the given names lead to, one after another. -/
def along? : Entity → List String → Option Entity
  | e, [] => some e
  | e, name :: names => (e.related? name).bind fun target => target.along? names

/-- A name at which a chain cannot go on: the entity has no such attribute, or none that leads to the
names after it. -/
def Stops (e : Entity) (name : String) (after : List String) : Prop :=
  e.attribute? name = none ∨ after ≠ [] ∧ e.related? name = none

/-- No relation has the name at which a chain stops. -/
theorem Stops.related?_eq_none {e : Entity} {name : String} {after : List String}
    (h : e.Stops name after) : e.related? name = none := by
  rcases h with h | ⟨-, h⟩
  · unfold related?
    rw [h, Option.bind_none]
  · exact h

end Entity

namespace Chain

/-- Users have no relations, so no chain goes on from them. -/
theorem hops_of_users {hops : List Hop} {last : Entity} (h : Chain .users hops last) :
    hops = [] := by
  have hleaves : ∀ a ∈ Entity.attributes .users, a.type.target? = none := by decide
  cases h with
  | nil => rfl
  | cons hname htype rest =>
    have hleaf := hleaves _ (Entity.mem_of_attribute? hname)
    rw [htype] at hleaf
    cases hleaf

/-- The only relation of a group leads to a user, who has none. -/
theorem hops_of_userGroups {hops : List Hop} {last : Entity} (h : Chain .userGroups hops last) :
    hops = [] ∨ hops = [⟨.userGroups, "created_by", .users⟩] := by
  have hattributes : ∀ a ∈ Entity.attributes .userGroups,
      a.type.target? = none ∨ a.column = "created_by" ∧ a.type = .relation .users := by decide
  cases h with
  | nil => exact .inl rfl
  | cons hname htype rest =>
    rcases hattributes _ (Entity.mem_of_attribute? hname) with hleaf | ⟨hcolumn, hrelation⟩
    · rw [htype] at hleaf
      cases hleaf
    · cases htype.symm.trans hrelation
      rw [hcolumn, hops_of_users rest]
      exact .inr rfl

/-- Every hop of a chain is the end of the chain up to it. -/
theorem exists_to_target {e last : Entity} {hops : List Hop} (h : Chain e hops last) {hop : Hop}
    (hmem : hop ∈ hops) : ∃ before, Chain e before hop.target := by
  induction h with
  | nil e => exact absurd hmem List.not_mem_nil
  | @cons e target last name a hops hname htype rest ih =>
    rcases List.mem_cons.mp hmem with rfl | hmem
    · exact ⟨_, .cons hname htype (.nil target)⟩
    · obtain ⟨before, hbefore⟩ := ih hmem
      exact ⟨_, .cons hname htype hbefore⟩

end Chain

namespace Path

/-- A single name resolves to an attribute of the entity itself. -/
theorem follow_singleton_eq_ok {e : Entity} {leaf : String} {p : Path} :
    follow e [leaf] = .ok p ↔
      ∃ a, e.attribute? leaf = some a ∧ p = ⟨[], e, a.column, a.type.kind⟩ := by
  unfold follow
  cases e.attribute? leaf with
  | none => simp
  | some a => simp [eq_comm]

/-- A longer chain of names starts with a relation and goes on from its target. -/
theorem follow_cons_eq_ok {e : Entity} {name next : String} {rest : List String} {p : Path} :
    follow e (name :: next :: rest) = .ok p ↔
      ∃ a target q, e.attribute? name = some a ∧ a.type = .relation target ∧
        follow target (next :: rest) = .ok q ∧
        p = { q with hops := ⟨e, a.column, target⟩ :: q.hops } := by
  rw [follow.eq_3 e name (next :: rest) (by simp)]
  cases e.attribute? name with
  | none => simp
  | some a =>
    obtain ⟨n, column, type⟩ := a
    cases type with
    | relation target =>
      rw [map_eq_ok]
      constructor
      · rintro ⟨q, hq, rfl⟩
        exact ⟨_, target, q, rfl, rfl, hq, rfl⟩
      -- the attribute of the name is the one at hand, and so is its target
      · rintro ⟨a, target', q, ⟨⟩, ⟨⟩, hq, rfl⟩
        exact ⟨q, hq, rfl⟩
    | integer | long | text | flag | timestamp | choice => simp

/-- The names that resolve are relations up to the last, which is an attribute. Induction on the names
with the entity that they start from left open. -/
theorem follow_eq_ok {names : List String} {e : Entity} {p : Path} :
    follow e names = .ok p ↔ ∃ before leaf a, names = before ++ [leaf] ∧
      Follows e before p.hops p.owner ∧ p.owner.attribute? leaf = some a ∧
      p.column = a.column ∧ p.kind = a.type.kind := by
  induction names generalizing e p with
  | nil =>
    refine iff_of_false nofun ?_
    rintro ⟨before, leaf, a, hnames, -⟩
    exact List.append_ne_nil_of_right_ne_nil _ (List.cons_ne_nil _ _) hnames.symm
  | cons name rest ih =>
    cases rest with
    | nil =>
      rw [follow_singleton_eq_ok]
      constructor
      · rintro ⟨a, ha, rfl⟩
        exact ⟨[], name, a, rfl, .nil e, ha, rfl, rfl⟩
      · rintro ⟨before, leaf, a, hnames, hfollows, ha, hcolumn, hkind⟩
        obtain ⟨rfl, hleaf⟩ :=
          List.append_eq_singleton_iff.mp hnames.symm |>.resolve_right (by simp)
        obtain ⟨hops, owner, column, kind⟩ := p
        cases hleaf
        cases hfollows
        cases hcolumn
        cases hkind
        exact ⟨a, ha, rfl⟩
    | cons next rest =>
      rw [follow_cons_eq_ok]
      constructor
      · rintro ⟨a, target, q, ha, htype, hq, rfl⟩
        obtain ⟨before, leaf, b, hrest, hfollows, hleaf⟩ := ih.mp hq
        exact ⟨name :: before, leaf, b, congrArg (name :: ·) hrest, .cons ha htype hfollows, hleaf⟩
      · rintro ⟨before, leaf, b, hnames, hfollows, hleaf⟩
        -- the first name is not the last, so it is a relation
        cases before with
        | nil => exact absurd (List.cons.inj hnames).2 (List.cons_ne_nil _ _)
        | cons _ before =>
          obtain ⟨rfl, hrest⟩ := List.cons.inj hnames
          obtain ⟨hops, owner, column, kind⟩ := p
          cases hfollows with
          | @cons _ _ _ _ _ _ hops hname htype hfollows =>
            exact ⟨_, _, ⟨hops, owner, column, kind⟩, hname, htype,
              ih.mpr ⟨before, leaf, b, hrest, hfollows, hleaf⟩, rfl⟩

/-- The hops of a path that is found are a chain. -/
theorem chain_of_follow {names : List String} {e : Entity} {p : Path}
    (h : follow e names = .ok p) : Chain e p.hops p.owner := by
  obtain ⟨before, leaf, a, -, hfollows, -⟩ := follow_eq_ok.mp h
  exact hfollows.chain

/-- The leaf of a path that resolves is an attribute of its owner. -/
theorem leaf_of_follow {names : List String} {e : Entity} {p : Path}
    (h : follow e names = .ok p) :
    ∃ a ∈ p.owner.attributes, p.column = a.column ∧ p.kind = a.type.kind := by
  obtain ⟨before, leaf, a, -, -, ha, hleaf⟩ := follow_eq_ok.mp h
  exact ⟨a, Entity.mem_of_attribute? ha, hleaf⟩

/-- Paths that some field of the entity resolves to. -/
def Resolved (e : Entity) (p : Path) : Prop := ∃ style field, resolve e style field = .ok p

theorem Resolved.chain {e : Entity} {p : Path} (h : Resolved e p) : Chain e p.hops p.owner := by
  obtain ⟨style, field, hp⟩ := h
  exact chain_of_follow hp

/-- A path that resolves ends on an attribute. -/
theorem Resolved.leaf {e : Entity} {p : Path} (h : Resolved e p) :
    ∃ a ∈ p.owner.attributes, p.column = a.column ∧ p.kind = a.type.kind := by
  obtain ⟨style, field, hp⟩ := h
  exact leaf_of_follow hp

/-! ### Names that do not resolve -/

/-- A single name fails to resolve if it is no attribute. -/
theorem follow_singleton_eq_error {e : Entity} {leaf : String} {fault : UnknownField} :
    follow e [leaf] = .error fault ↔ e.attribute? leaf = none ∧ fault = ⟨leaf, e⟩ := by
  unfold follow
  cases e.attribute? leaf with
  | none => simp [eq_comm]
  | some a => simp

/-- A longer chain of names stops at the first of them, or behind it. -/
theorem follow_cons_eq_error {e : Entity} {name next : String} {rest : List String}
    {fault : UnknownField} :
    follow e (name :: next :: rest) = .error fault ↔
      e.related? name = none ∧ fault = ⟨name, e⟩ ∨
        ∃ target, e.related? name = some target ∧ follow target (next :: rest) = .error fault := by
  rw [follow.eq_3 e name (next :: rest) (by simp)]
  unfold Entity.related?
  cases e.attribute? name with
  | none => simp [eq_comm]
  | some a =>
    obtain ⟨n, column, type⟩ := a
    cases type with
    | relation target => simp [AttributeType.target?, map_eq_error]
    | integer | long | text | flag | timestamp | choice => simp [AttributeType.target?, eq_comm]

/-- Names that do not resolve are relations up to the first that stops the chain, and this one is
reported with the entity at which it stops. Induction on the names with the first entity left open. -/
theorem follow_eq_error {names : List String} {e : Entity} {fault : UnknownField}
    (hne : names ≠ []) :
    follow e names = .error fault ↔
      ∃ before after, names = before ++ fault.segment :: after ∧
        e.along? before = some fault.entity ∧ fault.entity.Stops fault.segment after := by
  induction names generalizing e with
  | nil => exact absurd rfl hne
  | cons name rest ih =>
    cases rest with
    | nil =>
      rw [follow_singleton_eq_error]
      constructor
      -- the last name stops the chain only if it is no attribute at all
      · rintro ⟨hnone, rfl⟩
        exact ⟨[], [], rfl, rfl, .inl hnone⟩
      · rintro ⟨before, after, hnames, halong, hstops⟩
        obtain ⟨rfl, hcons⟩ := List.append_eq_singleton_iff.mp hnames.symm |>.resolve_right (by simp)
        cases hcons
        cases halong
        exact ⟨hstops.resolve_right fun h => h.1 rfl, rfl⟩
    | cons next rest =>
      rw [follow_cons_eq_error]
      constructor
      -- an earlier name stops it already if it is no relation
      · rintro (⟨hnone, rfl⟩ | ⟨target, htarget, h⟩)
        · exact ⟨[], next :: rest, rfl, rfl, .inr ⟨List.cons_ne_nil _ _, hnone⟩⟩
        · obtain ⟨before, after, hrest, halong, hstops⟩ := (ih (List.cons_ne_nil _ _)).mp h
          refine ⟨name :: before, after, congrArg (name :: ·) hrest, ?_, hstops⟩
          show (e.related? name).bind _ = _
          rw [htarget]
          exact halong
      · rintro ⟨before, after, hnames, halong, hstops⟩
        cases before with
        | nil =>
          obtain ⟨rfl, rfl⟩ := List.cons.inj hnames
          cases halong
          exact .inl ⟨hstops.related?_eq_none, rfl⟩
        | cons _ before =>
          obtain ⟨rfl, hrest⟩ := List.cons.inj hnames
          obtain ⟨target, htarget, halong⟩ := Option.bind_eq_some_iff.mp halong
          exact .inr ⟨target, htarget,
            (ih (List.cons_ne_nil _ _)).mpr ⟨before, after, hrest, halong, hstops⟩⟩

theorem splitOn_ne_nil (sep : Char) (s : List Char) : splitOn sep s ≠ [] := by
  cases s with
  | nil => exact List.cons_ne_nil _ _
  | cons c s =>
    unfold splitOn
    split
    · exact List.cons_ne_nil _ _
    · split <;> exact List.cons_ne_nil _ _

/-- Every field has a name in it. -/
theorem segments_ne_nil (style : PathStyle) (field : String) : segments style field ≠ [] := by
  unfold segments
  obtain ⟨part, parts, hparts⟩ :=
    List.exists_cons_of_ne_nil (splitOn_ne_nil style.separator field.toList)
  rw [hparts]
  exact List.cons_ne_nil _ _

/-- A field that does not resolve: its leftmost name that stops the chain. -/
theorem resolve_eq_error {e : Entity} {style : PathStyle} {field : String} {fault : UnknownField} :
    resolve e style field = .error fault ↔
      ∃ before after, segments style field = before ++ fault.segment :: after ∧
        e.along? before = some fault.entity ∧ fault.entity.Stops fault.segment after :=
  follow_eq_error (segments_ne_nil style field)

end Path

end AssetRegister
