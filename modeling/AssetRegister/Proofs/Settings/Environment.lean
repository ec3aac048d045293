import AssetRegister.Proofs.Settings.Distinct
import Mathlib.Data.List.Induction

/-!
# The layer of the environment

Each variable with the prefix assigns a value to the path that its name spells. If no two of these paths
are the same or one inside the other, the order of the variables does not matter: the layer gives at a path
what one of the variables gives there.
-/

namespace AssetRegister

open Setting

namespace Setting

variable {v w : Setting} {names p : List String}

theorem nested_cons (name : String) : v.nested (name :: names) = .table [(name, v.nested names)] := rfl

/-- A value under nested names gives something only at paths that begin with the first name. -/
theorem at?_nested_cons {name key : String} :
    (v.nested (name :: names)).at? (key :: p) = if key = name then (v.nested names).at? p else none := by
  rw [nested_cons, at?_table, lookup_cons_ite]
  split <;> rfl

/-- A value under nested names decides only about paths that begin with the first name. -/
theorem decides_nested_cons {name key : String} :
    (v.nested (name :: names)).decides (key :: p) = (key == name && (v.nested names).decides p) := by
  rw [nested_cons, decides_table, lookup_cons_ite]
  by_cases hkey : key = name
  · rw [if_pos hkey, hkey, beq_self_eq_true, Bool.true_and]
    rfl
  · rw [if_neg hkey, beq_false_of_ne hkey]
    rfl

/-- A setting is said to be given at a path only if the layer decides about the path. -/
theorem decides_of_at? {s : Setting} (h : s.at? p = some w) : s.decides p = true := by
  induction p generalizing s with
  | nil => rfl
  | cons name p ih =>
    cases hs : s.isTable with
    | false =>
      rw [at?_of_not_table hs] at h
      cases h
    | true =>
      obtain ⟨ms, rfl⟩ := isTable_iff.mp hs
      rw [at?_table] at h
      obtain ⟨inner, hinner, h⟩ := Option.bind_eq_some_iff.mp h
      rw [decides_table, hinner]
      exact ih h

/-- A value under nested names decides about the paths through its own only. -/
theorem comparable_of_decides (h : (v.nested names).decides p = true) : names <+: p ∨ p <+: names := by
  induction names generalizing p with
  | nil => exact .inl List.nil_prefix
  | cons name names ih =>
    cases p with
    | nil => exact .inr List.nil_prefix
    | cons key p =>
      rw [decides_nested_cons, Bool.and_eq_true, beq_iff_eq] at h
      obtain ⟨rfl, h⟩ := h
      rw [List.prefix_cons_inj, List.prefix_cons_inj]
      exact ih h

/-- Above a value there are tables, so what is no table was given at its path or inside it. -/
theorem prefix_of_decides (h : (v.nested names).decides p = true)
    (hw : ∀ w, (v.nested names).at? p = some w → w.isTable = false) : names <+: p := by
  induction names generalizing p with
  | nil => exact List.nil_prefix
  | cons name names ih =>
    cases p with
    | nil => cases hw _ rfl
    | cons key p =>
      rw [decides_nested_cons, Bool.and_eq_true, beq_iff_eq] at h
      obtain ⟨rfl, h⟩ := h
      simp only [at?_nested_cons, if_pos] at hw
      rw [List.prefix_cons_inj]
      exact ih h hw

end Setting

namespace Variable

/-- The paths that variables name, with the values that they assign. -/
def assignments (environment : List (String × String)) : List (List String × Setting) :=
  environment.filterMap fun v => (names? v.1).map fun names => (names, setting v.2)

/-- The tree that one assignment makes by itself. -/
def tree (a : List String × Setting) : Setting := a.2.nested a.1

/-- No two variables name the same setting, or a setting and a section that it is in. -/
def Apart (environment : List (String × String)) : Prop :=
  (assignments environment).Pairwise fun a b => ¬a.1 <+: b.1 ∧ ¬b.1 <+: a.1

instance : DecidablePred Apart := fun _ => inferInstanceAs (Decidable (List.Pairwise _ _))

/-- The layer puts the trees of the assignments over one another, the last one on top. -/
theorem layer_eq_foldl (environment : List (String × String)) :
    layer environment = (assignments environment).foldl (fun l a => l.merge (tree a)) (.table []) := by
  unfold layer assignments
  rw [List.foldl_filterMap]
  congr 1
  funext l v
  cases names? v.1 <;> rfl

theorem distinct_assigned {environment : List (String × String)} :
    ∀ a ∈ assignments environment, a.2.Distinct := by
  intro a ha
  obtain ⟨v, -, hv⟩ := List.mem_filterMap.mp ha
  obtain ⟨names, -, rfl⟩ := Option.map_eq_some_iff.mp hv
  exact distinct_setting v.2

theorem distinct_foldl {as : List (List String × Setting)} (h : ∀ a ∈ as, a.2.Distinct) {s : Setting}
    (hs : s.Distinct) : (as.foldl (fun l a => l.merge (tree a)) s).Distinct := by
  induction as generalizing s with
  | nil => exact hs
  | cons a as ih =>
    obtain ⟨ha, has⟩ := List.forall_mem_cons.mp h
    exact ih has (hs.merge (ha.nested a.1))

/-- The layer of any environment has distinct names. -/
theorem distinct_layer (environment : List (String × String)) : (layer environment).Distinct := by
  rw [layer_eq_foldl]
  exact distinct_foldl distinct_assigned .empty

/-- A variable with the prefix names something. -/
theorem ne_nil_of_names? {name : String} {names : List String} (h : names? name = some names) :
    names ≠ [] := by
  unfold names? at h
  dsimp only at h
  split at h
  · split at h
    · cases h
    · rw [← Option.some.inj h, ne_eq, List.map_eq_nil_iff]
      exact List.splitOn_ne_nil _ _
  · cases h

/-- The layer is a table, since each variable names something in it. -/
theorem isTable_layer (environment : List (String × String)) : (layer environment).isTable = true := by
  have hnames : ∀ a ∈ assignments environment, (tree a).isTable = true := by
    intro a ha
    obtain ⟨v, -, hv⟩ := List.mem_filterMap.mp ha
    obtain ⟨names, hnames, rfl⟩ := Option.map_eq_some_iff.mp hv
    obtain ⟨name, names, rfl⟩ := List.exists_cons_of_ne_nil (ne_nil_of_names? hnames)
    rfl
  rw [layer_eq_foldl]
  have hempty : (table []).isTable = true := rfl
  generalize table [] = s at hempty
  generalize assignments environment = as at hnames
  induction as generalizing s with
  | nil => exact hempty
  | cons a as ih =>
    obtain ⟨ha, has⟩ := List.forall_mem_cons.mp hnames
    exact ih _ (isTable_merge hempty ha) has

/-- Of two assignments apart, the second does not decide where the first gives a value or cuts the path
off. -/
theorem decides_of_apart {a b : List String × Setting} {p : List String}
    (h : ¬a.1 <+: b.1 ∧ ¬b.1 <+: a.1) (ha : (tree a).decides p = true)
    (hw : ∀ w, (tree a).at? p = some w → w.isTable = false) : (tree b).decides p = false := by
  have hpath : a.1 <+: p := prefix_of_decides ha hw
  refine Bool.eq_false_iff.mpr fun hb => ?_
  rcases comparable_of_decides hb with hb | hb
  · rcases Nat.le_total a.1.length b.1.length with hle | hle
    · exact h.1 (List.prefix_of_prefix_length_le hpath hb hle)
    · exact h.2 (List.prefix_of_prefix_length_le hb hpath hle)
  · exact h.1 (hpath.trans hb)

/-- **The layer of variables that are apart gives at a path what one of them gives.** -/
theorem at?_layer {environment : List (String × String)} (h : Apart environment) {p : List String}
    (hp : p ≠ []) :
    (∀ v : Setting, v.isTable = false → ((layer environment).at? p = some v ↔
        ∃ a ∈ assignments environment, (tree a).at? p = some v)) ∧
      ((layer environment).at? p = none ↔ ∀ a ∈ assignments environment, (tree a).at? p = none) := by
  rw [layer_eq_foldl]
  unfold Apart at h
  have hdistinct : ∀ a ∈ assignments environment, a.2.Distinct := distinct_assigned
  generalize assignments environment = as at h hdistinct
  induction as using List.reverseRecOn with
  | nil =>
    obtain ⟨name, p, rfl⟩ := List.exists_cons_of_ne_nil hp
    simp [at?_table]
  | append_singleton as a ih =>
    obtain ⟨has, -, hafter⟩ := List.pairwise_append.mp h
    obtain ⟨hvalue, hnone⟩ := ih has fun b hb => hdistinct b (List.mem_append_left _ hb)
    have ha : (tree a).Distinct := (hdistinct a (by simp)).nested a.1
    have happart : ∀ b ∈ as, ¬b.1 <+: a.1 ∧ ¬a.1 <+: b.1 :=
      fun b hb => hafter b hb a List.mem_cons_self
    simp only [List.mem_append, List.mem_singleton, or_imp, forall_and, forall_eq, or_and_right,
      exists_or, exists_eq_left]
    rw [List.foldl_append]
    simp only [List.foldl_cons, List.foldl_nil]
    rw [at?_merge ha]
    cases hgiven : (tree a).at? p with
    | some s =>
      refine ⟨fun v hv => ?_, ⟨nofun, nofun⟩⟩
      rw [Option.some.injEq, Option.some.injEq, mergeOver_eq_iff hv]
      -- an earlier value would be out of reach of this assignment
      refine ⟨.inr, fun h => h.resolve_left ?_⟩
      rintro ⟨b, hb, hvalue⟩
      have hout := decides_of_apart (happart b hb) (decides_of_at? hvalue) fun w hw => by
        cases hvalue.symm.trans hw
        exact hv
      rw [decides_of_at? hgiven] at hout
      cases hout
    | none =>
      simp only [reduceCtorEq, or_false, and_true]
      cases hdecides : (tree a).decides p with
      | false => exact ⟨hvalue, hnone⟩
      | true =>
        -- this assignment cuts the path off, so that no earlier one goes on to it
        have hout : ∀ b ∈ as, (tree b).at? p = none := by
          intro b hb
          have hout := decides_of_apart (happart b hb).symm hdecides fun w hw => by
            cases hgiven.symm.trans hw
          cases hb : (tree b).at? p with
          | none => rfl
          | some w =>
            rw [decides_of_at? hb] at hout
            cases hout
        refine ⟨fun v _ => ⟨nofun, ?_⟩, ⟨fun _ => hout, fun _ => rfl⟩⟩
        rintro ⟨b, hb, hvalue⟩
        cases (hout b hb).symm.trans hvalue

end Variable

end AssetRegister
