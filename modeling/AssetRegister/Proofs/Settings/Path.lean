import AssetRegister.Settings.Setting
import Mathlib.Data.List.Nodup

/-!
# Settings at the end of a path

A path of names leads into a tree of settings. What a layer over another gives at a path is what the
upper one gives there, or what the lower one gives if the upper one decides nothing about the path. This
needs the names in each table of the upper layer to be distinct.
-/

namespace AssetRegister

/-! ## Members of a table -/

section Members

variable {α : Type} {ms : List (String × α)} {name key : String} {a : α}

theorem lookup_cons_ite : ((name, a) :: ms).lookup key = if key = name then some a else ms.lookup key := by
  rw [List.lookup_cons]
  by_cases hkey : key = name
  · simp [hkey]
  · simp [hkey, beq_false_of_ne hkey]

/-- A member that is set is found under its name, and under any other name what was there before. -/
theorem lookup_setMember :
    (setMember name a ms).lookup key = if key = name then some a else ms.lookup key := by
  induction ms with
  | nil => exact lookup_cons_ite
  | cons m ms ih =>
    obtain ⟨n, b⟩ := m
    rw [setMember]
    split
    · next hn =>
      subst hn
      rw [lookup_cons_ite, lookup_cons_ite]
      split_ifs <;> rfl
    · next hn =>
      rw [lookup_cons_ite, lookup_cons_ite, ih]
      by_cases hkey : key = n
      · subst hkey
        rw [if_pos rfl, if_neg hn, if_pos rfl]
      · rw [if_neg hkey, if_neg hkey]

theorem mem_of_mem_setMember {m : String × α} (h : m ∈ setMember name a ms) :
    m = (name, a) ∨ m ∈ ms := by
  induction ms with
  | nil => exact .inl (List.mem_singleton.mp h)
  | cons n ms ih =>
    rw [setMember] at h
    split at h
    · exact (List.mem_cons.mp h).imp_right (List.mem_cons_of_mem n)
    · rcases List.mem_cons.mp h with rfl | h
      · exact .inr List.mem_cons_self
      · exact (ih h).imp_right (List.mem_cons_of_mem n)

/-- Setting a member brings no name into a table but its own. -/
theorem map_fst_setMember_subset : (setMember name a ms).map Prod.fst ⊆ name :: ms.map Prod.fst := by
  intro n hn
  obtain ⟨m, hm, rfl⟩ := List.mem_map.mp hn
  rcases mem_of_mem_setMember hm with rfl | hm
  · exact List.mem_cons_self
  · exact List.mem_cons_of_mem _ (List.mem_map_of_mem hm)

/-- Setting a member takes the place of one of its name, so names stay distinct. -/
theorem nodup_setMember (h : (ms.map Prod.fst).Nodup) : ((setMember name a ms).map Prod.fst).Nodup := by
  induction ms with
  | nil => exact List.nodup_singleton name
  | cons m ms ih =>
    obtain ⟨n, b⟩ := m
    obtain ⟨hn, hms⟩ := List.nodup_cons.mp h
    rw [setMember]
    split
    · next heq =>
      subst heq
      exact List.nodup_cons.mpr ⟨hn, hms⟩
    · next hne =>
      refine List.nodup_cons.mpr ⟨fun hmem => ?_, ih hms⟩
      exact (List.mem_cons.mp (map_fst_setMember_subset hmem)).elim hne hn

theorem mem_of_lookup (h : ms.lookup key = some a) : (key, a) ∈ ms := by
  induction ms with
  | nil => cases h
  | cons m ms ih =>
    obtain ⟨n, b⟩ := m
    rw [lookup_cons_ite] at h
    split at h
    · next hkey =>
      cases h
      subst hkey
      exact List.mem_cons_self
    · exact List.mem_cons_of_mem _ (ih h)

/-- A name that no member has is not found. -/
theorem lookup_eq_none (h : key ∉ ms.map Prod.fst) : ms.lookup key = none := by
  cases hkey : ms.lookup key with
  | none => rfl
  | some a => exact absurd (List.mem_map_of_mem (f := Prod.fst) (mem_of_lookup hkey)) h

end Members

namespace Setting

variable {old new v : Setting} {p : List String}

/-! ## Tables and paths -/

/-- Whether a setting is a table. -/
def isTable : Setting → Bool
  | .table _ => true
  | _ => false

theorem isTable_iff {s : Setting} : s.isTable = true ↔ ∃ ms, s = .table ms := by
  cases s <;> simp [isTable]

/-- The setting at the end of a path of names. -/
def at? (s : Setting) : List String → Option Setting
  | [] => some s
  | name :: p =>
    match s with
    | .table ms => (ms.lookup name).bind fun inner => inner.at? p
    | _ => none

/-- Whether a layer decides about a path: it gives a setting there, or what it gives on the way is no
table. -/
def decides (s : Setting) : List String → Bool
  | [] => true
  | name :: p =>
    match s with
    | .table ms => (ms.lookup name).any fun inner => inner.decides p
    | _ => true

/-- In each table that a path can lead to, the names are distinct. -/
inductive Distinct : Setting → Prop where
  | table {ms : List (String × Setting)} (hnames : (ms.map Prod.fst).Nodup)
      (hmembers : ∀ m ∈ ms, Distinct m.2) : Distinct (.table ms)
  | other {s : Setting} (h : s.isTable = false) : Distinct s

theorem at?_table {ms : List (String × Setting)} {name : String} :
    (table ms).at? (name :: p) = (ms.lookup name).bind fun inner => inner.at? p := rfl

/-- No path goes on from what is no table. -/
theorem at?_of_not_table {s : Setting} {name : String} (h : s.isTable = false) :
    s.at? (name :: p) = none := by
  cases s with
  | table => cases h
  | flag | integer | real | text | list => rfl

theorem decides_table {ms : List (String × Setting)} {name : String} :
    (table ms).decides (name :: p) = (ms.lookup name).any fun inner => inner.decides p := rfl

/-- What is no table takes the place of a whole subtree, so it decides about every path into it. -/
theorem decides_of_not_table {s : Setting} (h : s.isTable = false) : s.decides p = true := by
  cases p with
  | nil => rfl
  | cons name p =>
    cases s with
    | table => cases h
    | flag | integer | real | text | list => rfl

theorem Distinct.nodup {ms : List (String × Setting)} (h : (Setting.table ms).Distinct) :
    (ms.map Prod.fst).Nodup := by
  cases h with
  | table hnames => exact hnames
  | other h => cases h

/-- The names inside a member of a table are distinct too. -/
theorem Distinct.of_lookup {ms : List (String × Setting)} {name : String} {s : Setting}
    (h : (Setting.table ms).Distinct) (hs : ms.lookup name = some s) : s.Distinct := by
  cases h with
  | table _ hmembers => exact hmembers _ (mem_of_lookup hs)
  | other h => cases h

/-! ## One layer over another -/

/-- What is no table replaces what it is put over. -/
theorem merge_of_not_table (h : new.isTable = false) : old.merge new = new := by
  cases new with
  | table => cases h
  | flag | integer | real | text | list => simp only [merge]

/-- What is no table is replaced by whatever is put over it. -/
theorem merge_over_not_table (h : old.isTable = false) : old.merge new = new := by
  cases new with
  | table =>
    cases old with
    | table => cases h
    | flag | integer | real | text | list => simp only [merge]
  | flag | integer | real | text | list => simp only [merge]

theorem merge_tables {olds ms : List (String × Setting)} :
    (table olds).merge (table ms) = table (mergeMembers olds ms) := by
  simp only [merge]

theorem isTable_merge (hold : old.isTable = true) (hnew : new.isTable = true) :
    (old.merge new).isTable = true := by
  obtain ⟨olds, rfl⟩ := isTable_iff.mp hold
  obtain ⟨ms, rfl⟩ := isTable_iff.mp hnew
  rw [merge_tables]
  rfl

/-- A member of a layer over another: it is merged with the member of its name, if there is one. -/
def mergeOver (old : Option Setting) (new : Setting) : Setting :=
  match old with
  | some old => old.merge new
  | none => new

theorem mergeMembers_cons {olds ms : List (String × Setting)} {name : String} :
    mergeMembers olds ((name, new) :: ms) =
      mergeMembers (setMember name (mergeOver (olds.lookup name) new) olds) ms := by
  rw [mergeMembers]
  cases olds.lookup name <;> rfl

/-- A member of two tables over one another comes of the members of its name on both sides. -/
theorem lookup_mergeMembers {olds ms : List (String × Setting)} (h : (ms.map Prod.fst).Nodup)
    (name : String) :
    (mergeMembers olds ms).lookup name =
      match ms.lookup name with
      | some new => some (mergeOver (olds.lookup name) new)
      | none => olds.lookup name := by
  induction ms generalizing olds with
  | nil => rw [mergeMembers]; rfl
  | cons m ms ih =>
    obtain ⟨n, new⟩ := m
    obtain ⟨hn, hms⟩ := List.nodup_cons.mp h
    -- the first member is merged first, and the later ones into what this gives
    rw [mergeMembers_cons, ih hms, lookup_setMember, lookup_cons_ite]
    by_cases hname : name = n
    · -- the name is that of no later member
      subst hname
      rw [lookup_eq_none hn, if_pos rfl, if_pos rfl]
    · rw [if_neg hname, if_neg hname]

/-- **What two layers give at a path** is what the upper one gives, over what the lower one gives, or what
the lower one gives if the upper one does not decide about the path. -/
theorem at?_merge (h : new.Distinct) :
    (old.merge new).at? p =
      match new.at? p with
      | some s => some (mergeOver (old.at? p) s)
      | none => if new.decides p then none else old.at? p := by
  induction p generalizing old new with
  | nil => rfl
  | cons name p ih =>
    cases hnew : new.isTable with
    | false => rw [merge_of_not_table hnew, at?_of_not_table hnew, decides_of_not_table hnew]; rfl
    | true =>
      obtain ⟨ms, rfl⟩ := isTable_iff.mp hnew
      cases hold : old.isTable with
      | false =>
        rw [merge_over_not_table hold, at?_of_not_table hold]
        simp only [mergeOver, ite_self]
        cases (table ms).at? (name :: p) <;> rfl
      | true =>
        obtain ⟨olds, rfl⟩ := isTable_iff.mp hold
        rw [merge_tables, at?_table, at?_table, at?_table, decides_table, lookup_mergeMembers h.nodup]
        cases hms : ms.lookup name with
        | none => rfl
        | some s =>
          cases olds.lookup name with
          -- both layers have a table at the first name, so the rest of the path decides
          | some o => exact ih (h.of_lookup hms)
          | none =>
            simp only [mergeOver, Option.bind_some, Option.bind_none, ite_self]
            cases s.at? p <;> rfl

/-! ## Distinct names -/

theorem Distinct.empty : (Setting.table []).Distinct := .table List.nodup_nil (List.forall_mem_nil _)

theorem Distinct.setMember {ms : List (String × Setting)} {name : String} {s : Setting}
    (h : (Setting.table ms).Distinct) (hs : s.Distinct) :
    (Setting.table (setMember name s ms)).Distinct := by
  cases h with
  | table hnames hmembers =>
    refine .table (nodup_setMember hnames) fun m hm => ?_
    rcases mem_of_mem_setMember hm with rfl | hm
    · exact hs
    · exact hmembers m hm
  | other h => cases h

/-- Merging members one by one keeps names distinct, if merging each of them does. -/
theorem Distinct.mergeMembers {olds ms : List (String × Setting)} (h : (Setting.table olds).Distinct)
    (hmembers : ∀ m ∈ ms, m.2.Distinct ∧ ∀ old : Setting, old.Distinct → (old.merge m.2).Distinct) :
    (Setting.table (Setting.mergeMembers olds ms)).Distinct := by
  induction ms generalizing olds with
  | nil =>
    rw [Setting.mergeMembers]
    exact h
  | cons m ms ih =>
    obtain ⟨⟨hm, hmerge⟩, hmembers⟩ := List.forall_mem_cons.mp hmembers
    rw [mergeMembers_cons]
    refine ih (h.setMember ?_) hmembers
    cases hold : olds.lookup m.1 with
    | none => exact hm
    | some old => exact hmerge old (h.of_lookup hold)

/-- A layer over another has distinct names if both have. -/
theorem Distinct.merge (hold : old.Distinct) (hnew : new.Distinct) : (old.merge new).Distinct := by
  induction hnew generalizing old with
  | other h =>
    rw [merge_of_not_table h]
    exact .other h
  | table hnames hmembers ih =>
    -- a table over something else is taken as it is
    cases htable : old.isTable with
    | false =>
      rw [merge_over_not_table htable]
      exact .table hnames hmembers
    | true =>
      obtain ⟨olds, rfl⟩ := isTable_iff.mp htable
      rw [merge_tables]
      exact hold.mergeMembers fun m hm => ⟨hmembers m hm, fun _ h => ih m hm h⟩

/-- A value under nested names stands in tables of one member each. -/
theorem Distinct.nested (h : v.Distinct) (names : List String) : (v.nested names).Distinct := by
  induction names with
  | nil => exact h
  | cons name names ih =>
    exact .table (List.nodup_singleton name) (List.forall_mem_singleton.mpr ih)

/-! ## The same up to tables -/

/-- Two layers give the same at a path, if all tables are taken for the same. -/
def Alike (a b : Option Setting) : Prop :=
  (∀ v : Setting, v.isTable = false → (a = some v ↔ b = some v)) ∧ (a = none ↔ b = none)

theorem Alike.refl (a : Option Setting) : Alike a a := ⟨fun _ _ => Iff.rfl, Iff.rfl⟩

theorem Alike.trans {a b c : Option Setting} (h : Alike a b) (h' : Alike b c) : Alike a c :=
  ⟨fun v hv => (h.1 v hv).trans (h'.1 v hv), h.2.trans h'.2⟩

/-- Being alike is kept where two layers are put over two others, the upper ones first. -/
theorem Alike.or {a b c d : Option Setting} (h : Alike a b) (h' : Alike c d) :
    Alike (a.or c) (b.or d) := by
  cases a with
  | none => rwa [h.2.mp rfl]
  | some s =>
    cases b with
    | none => cases h.2.mpr rfl
    | some t => exact h

/-- A merged member is a value other than a table exactly if the upper member is that value. -/
theorem mergeOver_eq_iff {old : Option Setting} (hv : v.isTable = false) :
    mergeOver old new = v ↔ new = v := by
  cases hnew : new.isTable with
  | false =>
    cases old with
    | none => exact Iff.rfl
    | some o => rw [mergeOver, merge_of_not_table hnew]
  | true =>
    obtain ⟨ms, rfl⟩ := isTable_iff.mp hnew
    -- a table stays a table, whatever it is put over
    have htable : ∃ merged, mergeOver old (table ms) = table merged := by
      cases old with
      | none => exact ⟨ms, rfl⟩
      | some o =>
        cases ho : o.isTable with
        | false => exact ⟨ms, merge_over_not_table ho⟩
        | true =>
          obtain ⟨olds, rfl⟩ := isTable_iff.mp ho
          exact ⟨_, merge_tables⟩
    obtain ⟨merged, htable⟩ := htable
    rw [htable]
    constructor <;>
    · rintro rfl
      cases hv

/-- Where the upper layer decides only by what it gives, the lower one shows wherever the upper one gives
nothing. -/
theorem alike_merge (h : new.Distinct) (hdecides : new.at? p = none → new.decides p = false) :
    Alike ((old.merge new).at? p) ((new.at? p).or (old.at? p)) := by
  rw [at?_merge h]
  cases hnew : new.at? p with
  | none =>
    rw [hdecides hnew]
    exact .refl _
  | some s =>
    refine ⟨fun v hv => ?_, ⟨nofun, nofun⟩⟩
    rw [Option.some_or, Option.some.injEq, Option.some.injEq, mergeOver_eq_iff hv]

end Setting

end AssetRegister
