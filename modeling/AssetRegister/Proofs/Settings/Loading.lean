import AssetRegister.Proofs.Settings.Layers

/-!
# Loading the settings

The settings are made up of the layer of the environment, the tree of the settings file and the defaults,
unless the file is refused. A file is taken as it is written, but for the tables that stand for a value and
the marks of such values.
-/

namespace AssetRegister.Settings

open Setting

/-- A file that is there is read and put between the defaults and the environment. -/
theorem load_some (text : String) (writable : Bool) (environment : List (String × String)) :
    (load (some text) writable environment).1 =
      ((SettingsFile.read? text).bind fun file =>
        ofSetting? ((base.merge file).merge (Variable.layer environment))).getD {} := rfl

/-- A file that is not refused is the layer in the middle. -/
theorem madeUp_load {text : String} {tree : Setting} (htree : SettingsFile.read? text = some tree)
    (hfile : Sectioned tree) (writable : Bool) {environment : List (String × String)}
    (henv : Sectioned (Variable.layer environment)) :
    MadeUp [Variable.layer environment, tree, base] (load (some text) writable environment).1 := by
  rw [load_some, htree]
  exact madeUp_merge ⟨SettingsFile.isTable_read htree, SettingsFile.distinct_read htree, hfile⟩
    ⟨Variable.isTable_layer environment, Variable.distinct_layer environment, henv⟩

/-- A refused file takes the environment with it: only the defaults are left. -/
theorem load_of_refused {text : String} (h : SettingsFile.read? text = none) (writable : Bool)
    (environment : List (String × String)) : (load (some text) writable environment).1 = {} := by
  rw [load_some, h]
  rfl

/-- However a tree gives its values, the pool has a connection. -/
theorem one_le_poolSize_of_ofSetting? {tree : Setting} {s : Settings} (h : ofSetting? tree = some s) :
    1 ≤ s.poolSize := by
  obtain ⟨said, rfl⟩ := exists_said_of_ofSetting? h
  exact Nat.le_max_left 1 said.size

/-- The pool has a connection, whatever the file and the environment say. -/
theorem one_le_poolSize (file : Option String) (writable : Bool) (environment : List (String × String)) :
    1 ≤ (load file writable environment).1.poolSize := by
  have hlayers (file : Option String) : 1 ≤ (ofLayers file environment).poolSize := by
    unfold ofLayers
    dsimp only
    -- the defaults have four connections
    cases h : Option.bind _ _ with
    | none => decide
    | some s =>
      obtain ⟨tree, -, hs⟩ := Option.bind_eq_some_iff.mp h
      exact one_le_poolSize_of_ofSetting? hs
  cases file with
  | none => exact hlayers _
  | some text => exact hlayers _

/-- **The settings are made up of the environment, the file and the defaults**, each over the next, if no
section is given as anything but a table. A refused file leaves the defaults alone. What else is said: which
files are refused and which are taken as they are written, what the environment gives if its variables are
apart, that names other than those of the settings have no effect, and what holds of the settings in any
case. -/
theorem load_layers (text : String) (writable : Bool) (environment : List (String × String)) :
    (∀ tree, SettingsFile.read? text = some tree → Sectioned tree →
        Sectioned (Variable.layer environment) →
        MadeUp [Variable.layer environment, tree, base] (load (some text) writable environment).1) ∧
      (SettingsFile.read? text = none → (load (some text) writable environment).1 = {}) ∧
      (SettingsFile.read? text = (SettingsFile.written? text).bind fun ms =>
        (SettingsFile.representedOuter? ms).map .table) ∧
      (SettingsFile.read? text = none ↔
        ∀ ms, SettingsFile.written? text = some ms → ∃ m ∈ ms, SettingsFile.Mismarked m.2) ∧
      (∀ ms, SettingsFile.written? text = some ms → (∀ m ∈ ms, SettingsFile.Unreserved m.2) →
        SettingsFile.read? text = some (.table ms)) ∧
      (Variable.Apart environment → ∀ p ≠ [],
        (∀ v : Setting, v.isTable = false → ((Variable.layer environment).at? p = some v ↔
          ∃ a ∈ Variable.assignments environment, (Variable.tree a).at? p = some v)) ∧
        ((Variable.layer environment).at? p = none ↔
          ∀ a ∈ Variable.assignments environment, (Variable.tree a).at? p = none)) ∧
      (∀ (text' : String) (environment' : List (String × String)) (tree tree' : Setting),
        SettingsFile.read? text = some tree → SettingsFile.read? text' = some tree' → Sectioned tree →
        Sectioned tree' → Sectioned (Variable.layer environment) →
        Sectioned (Variable.layer environment') →
        (∀ p ∈ paths, given? [Variable.layer environment, tree, base] p =
          given? [Variable.layer environment', tree', base] p) →
        (load (some text') writable environment').1 = (load (some text) writable environment).1) ∧
      ∀ file : Option String,
        (load file writable environment).1.programLog.word ∈ ["error", "warn", "info", "debug", "trace"] ∧
        (load file writable environment).1.poolLog.word ∈ ["error", "warn", "info", "debug", "trace"] ∧
        1 ≤ (load file writable environment).1.poolSize := by
  have hword (l : LogLevel) : l.word ∈ ["error", "warn", "info", "debug", "trace"] := by
    cases l <;> decide
  refine ⟨fun tree htree hfile henv => madeUp_load htree hfile writable henv,
    fun h => load_of_refused h writable environment, SettingsFile.read?_eq text,
    SettingsFile.read?_eq_none, fun ms hms h => SettingsFile.read?_of_unreserved hms h,
    fun h p hp => Variable.at?_layer h hp, ?_,
    fun file => ⟨hword _, hword _, one_le_poolSize file writable environment⟩⟩
  intro text' environment' tree tree' htree htree' hfile hfile' henv henv' hsame
  -- settings that the same layers make up are the same
  have hmade := (madeUp_load htree hfile writable henv).of_paths hsame
  exact (madeUp_load htree' hfile' writable henv').unique hmade

/-- A file in which one level is none, another has odd letters, and the pool has no connection. -/
def oddFile : String :=
  "[logging]\nassetlist = ' DEBUG '\nr2d2 = 'loud'\n\n[database]\npool_size = 0\n"

/-- Variables with a prefix of either case, one of which names no setting. -/
def oddVariables : List (String × String) :=
  [("ASSETLIST_FILTER__STRICT", "true"), ("assetlist_other", "[1]")]

theorem load_oddFile :
    (load (some oddFile) true oddVariables).1 =
      { programLog := .debug, poolLog := .error, folder := none, poolSize := 1, strict := true } := by
  have hread : (SettingsFile.read? oddFile).isSome = true := by decide +kernel
  have hsaid : ∀ tree ∈ SettingsFile.read? oddFile, Sectioned tree ∧
      (Said.mk " DEBUG " "loud" none 0 true).By (given? [Variable.layer oddVariables, tree, base]) := by
    decide +kernel
  have hvariables : Sectioned (Variable.layer oddVariables) := by decide +kernel
  obtain ⟨tree, htree⟩ := Option.isSome_iff_exists.mp hread
  obtain ⟨hsections, hsaid⟩ := hsaid tree htree
  have hmade := (load_layers oddFile true oddVariables).1 tree htree hsections hvariables
  refine (hmade.said _ hsaid).unique ⟨.inl (by decide +kernel), .inr ⟨fun l => ?_, rfl⟩, rfl, rfl, rfl⟩
  cases l <;> decide +kernel

/-- A file with a mark at fault in a list of tables, which is no section. -/
def markedFile : String := "[[a]]\n___figment_value_id = true\n[filter]\nstrict = true\n"

/-- The file has no effect, though by what is written in it filters are strict. -/
theorem load_markedFile :
    ∃ ms, SettingsFile.written? markedFile = some ms ∧ Variable.Apart [] ∧ Sectioned (.table ms) ∧
      Sectioned (Variable.layer []) ∧
      ¬MadeUp [Variable.layer [], .table ms, base] (load (some markedFile) true []).1 := by
  have hwritten : (SettingsFile.written? markedFile).isSome = true := by decide +kernel
  have hsaid : ∀ ms ∈ SettingsFile.written? markedFile, Sectioned (.table ms) ∧
      (Said.mk "info" "error" none 4 true).By (given? [Variable.layer [], .table ms, base]) := by
    decide +kernel
  have hload : (load (some markedFile) true []).1.strict = false := by decide +kernel
  obtain ⟨ms, hms⟩ := Option.isSome_iff_exists.mp hwritten
  obtain ⟨hsections, hsaid⟩ := hsaid ms hms
  refine ⟨ms, hms, by decide, hsections, by decide, fun hmade => ?_⟩
  have hstrict := (hmade.said _ hsaid).strict
  rw [hload] at hstrict
  cases hstrict

end AssetRegister.Settings
