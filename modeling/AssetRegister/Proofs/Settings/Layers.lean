import AssetRegister.Proofs.Settings.Environment
import AssetRegister.Proofs.Settings.Written
import AssetRegister.Settings.Settings

/-!
# The settings that layers make up

Each setting is what the highest layer that gives it says: the environment before the file, the file before
the defaults. If each has its type, they are put right one by one; otherwise the defaults hold altogether.
-/

namespace AssetRegister

open Setting

namespace LogLevel

/-- A level is what a text says, without the white space around and in any case of its letters; what is
no level falls back. -/
def Normalises (text : String) (fallback level : LogLevel) : Prop :=
  level.word = Text.lowerAscii (Text.trim text) ∨
    (∀ l : LogLevel, l.word ≠ Text.lowerAscii (Text.trim text)) ∧ level = fallback

theorem mem_all (l : LogLevel) : l ∈ all := by cases l <;> decide

theorem normalises_ofText? (text : String) (fallback : LogLevel) :
    Normalises text fallback ((ofText? text).getD fallback) := by
  unfold ofText?
  cases h : all.find? fun l => l.word == Text.lowerAscii (Text.trim text) with
  | some l =>
    have hword := List.find?_some h
    exact .inl (beq_iff_eq.mp hword)
  | none =>
    refine .inr ⟨fun l hl => ?_, rfl⟩
    exact List.find?_eq_none.mp h l (mem_all l) (beq_iff_eq.mpr hl)

theorem word_injective {l m : LogLevel} (h : l.word = m.word) : l = m := by
  revert h
  cases l <;> cases m <;> decide

/-- There is one level that a text and a fallback come to. -/
theorem Normalises.unique {text : String} {fallback l m : LogLevel} (hl : Normalises text fallback l)
    (hm : Normalises text fallback m) : l = m := by
  rcases hl with hl | ⟨hnone, rfl⟩
  · rcases hm with hm | ⟨hnone, -⟩
    · exact word_injective (hl.trans hm.symm)
    · exact absurd hl (hnone l)
  · rcases hm with hm | ⟨-, rfl⟩
    · exact absurd hm (hnone m)
    · rfl

end LogLevel

namespace Settings

/-! ## What layers say -/

/-- The names of the sections. -/
def sections : List String := ["logging", "database", "filter"]

/-- A layer gives no section as anything but a table. -/
def Sectioned (layer : Setting) : Prop :=
  ∀ name ∈ sections, ∀ v ∈ layer.at? [name], v.isTable = true

instance : DecidablePred Sectioned := fun layer =>
  inferInstanceAs (Decidable (∀ name ∈ sections, ∀ v ∈ layer.at? [name], v.isTable = true))

/-- What the highest layer that gives a setting gives. The highest layer comes first. -/
def given? (layers : List Setting) (path : List String) : Option Setting :=
  layers.findSome? fun layer => layer.at? path

/-- Values for the five settings, each of its type. -/
structure Said where
  program : String
  pool : String
  folder : Option String
  size : Nat
  strict : Bool

/-- The values are given at the paths of the settings. The folder may be missing, and the size has to fit
into 32 bits. -/
structure Said.By (said : Said) (given : List String → Option Setting) : Prop where
  program : given ["logging", "assetlist"] = some (.text said.program)
  pool : given ["logging", "r2d2"] = some (.text said.pool)
  folder : given ["database", "dir"] = said.folder.map .text
  size : given ["database", "pool_size"] = some (.integer said.size)
  fits : said.size ≤ 4294967295
  strict : given ["filter", "strict"] = some (.flag said.strict)

/-- The settings are the values, each put right on its own. -/
structure Said.Yields (said : Said) (s : Settings) : Prop where
  program : LogLevel.Normalises said.program .info s.programLog
  pool : LogLevel.Normalises said.pool .error s.poolLog
  folder : s.folder = said.folder
  size : s.poolSize = if said.size = 0 then 1 else said.size
  strict : s.strict = said.strict

/-- The settings that layers make up: the values that they give, or else the defaults altogether. -/
structure MadeUp (layers : List Setting) (s : Settings) : Prop where
  said : ∀ said : Said, said.By (given? layers) → said.Yields s
  unsaid : (¬∃ said : Said, said.By (given? layers)) → s = {}

/-- Values yield one choice of settings. -/
theorem Said.Yields.unique {said : Said} {s t : Settings} (hs : said.Yields s) (ht : said.Yields t) :
    s = t := by
  obtain ⟨program, pool, folder, size, strict⟩ := s
  obtain ⟨program', pool', folder', size', strict'⟩ := t
  obtain ⟨hprogram, hpool, rfl, rfl, rfl⟩ := hs
  obtain ⟨hprogram', hpool', rfl, rfl, rfl⟩ := ht
  obtain rfl : program = program' := hprogram.unique hprogram'
  obtain rfl : pool = pool' := hpool.unique hpool'
  rfl

/-- Layers make up one choice of settings. -/
theorem MadeUp.unique {layers : List Setting} {s t : Settings} (hs : MadeUp layers s)
    (ht : MadeUp layers t) : s = t := by
  by_cases h : ∃ said : Said, said.By (given? layers)
  · obtain ⟨said, hsaid⟩ := h
    exact (hs.said said hsaid).unique (ht.said said hsaid)
  · rw [hs.unsaid h, ht.unsaid h]

/-- The paths of the five settings. -/
def paths : List (List String) :=
  [["logging", "assetlist"], ["logging", "r2d2"], ["database", "dir"], ["database", "pool_size"],
    ["filter", "strict"]]

/-- Only what is given at the paths of the settings counts. -/
theorem Said.By.of_paths {said : Said} {given given' : List String → Option Setting}
    (h : ∀ p ∈ paths, given p = given' p) (hsaid : said.By given) : said.By given' := by
  simp only [paths, List.forall_mem_cons, List.not_mem_nil, false_implies, implies_true, and_true] at h
  obtain ⟨hprogram, hpool, hfolder, hsize, hstrict⟩ := h
  exact ⟨hprogram ▸ hsaid.program, hpool ▸ hsaid.pool, hfolder ▸ hsaid.folder, hsize ▸ hsaid.size,
    hsaid.fits, hstrict ▸ hsaid.strict⟩

/-- What layers give elsewhere has no effect on the settings that they make up. -/
theorem MadeUp.of_paths {layers layers' : List Setting} {s : Settings}
    (h : ∀ p ∈ paths, given? layers p = given? layers' p) (hs : MadeUp layers s) : MadeUp layers' s := by
  refine ⟨fun said hsaid => hs.said said (hsaid.of_paths fun p hp => (h p hp).symm), fun hnone => ?_⟩
  exact hs.unsaid fun ⟨said, hsaid⟩ => hnone ⟨said, hsaid.of_paths h⟩

/-! ## The settings of a tree -/

/-- The folder that a setting is, which may be missing. -/
def folder? : Option Setting → Option (Option String)
  | none => some none
  | some folder => (text? folder).map some

/-- The settings of a tree in which each section is a table, by the paths of the settings. -/
theorem ofSetting?_eq {tree : Setting} (h : ∀ name ∈ sections, ∃ ms, tree.at? [name] = some (.table ms)) :
    ofSetting? tree = do
      let program ← (tree.at? ["logging", "assetlist"]).bind text?
      let pool ← (tree.at? ["logging", "r2d2"]).bind text?
      let folder ← folder? (tree.at? ["database", "dir"])
      let size ← (tree.at? ["database", "pool_size"]).bind size?
      let strict ← (tree.at? ["filter", "strict"]).bind flag?
      return {
        programLog := (LogLevel.ofText? program).getD .info
        poolLog := (LogLevel.ofText? pool).getD .error
        folder := folder
        poolSize := max 1 size
        strict := strict } := by
  simp only [sections, List.forall_mem_cons] at h
  obtain ⟨⟨ls, hls⟩, ⟨ds, hds⟩, ⟨fs, hfs⟩, -⟩ := h
  cases htree : tree.isTable with
  | false =>
    rw [at?_of_not_table htree] at hls
    cases hls
  | true =>
    obtain ⟨ms, rfl⟩ := isTable_iff.mp htree
    have hlookup {name : String} {inner : List (String × Setting)}
        (hinner : (table ms).at? [name] = some (.table inner)) : ms.lookup name = some (.table inner) := by
      rw [at?_table] at hinner
      obtain ⟨v, hv, hinner⟩ := Option.bind_eq_some_iff.mp hinner
      cases hinner
      exact hv
    have hfield {name : String} {inner : List (String × Setting)}
        (hinner : (table ms).at? [name] = some (.table inner)) (key : String) :
        (table ms).at? [name, key] = inner.lookup key := by
      rw [at?_table, hlookup hinner, Option.bind_some, at?_table]
      cases inner.lookup key <;> rfl
    rw [hfield hls, hfield hls, hfield hds, hfield hds, hfield hfs]
    simp only [ofSetting?, fields?, List.map_cons, List.map_nil, hlookup hls, hlookup hds, hlookup hfs,
      Option.bind_eq_bind, Option.bind_some]
    -- what is missing is missing before and after the types of the others are asked for
    cases ls.lookup "assetlist" with
    | none => simp
    | some program =>
      cases ls.lookup "r2d2" with
      | none => simp
      | some pool =>
        cases ds.lookup "pool_size" with
        | none => simp
        | some size =>
          cases fs.lookup "strict" with
          | none => simp
          | some strict => cases ds.lookup "dir" <;> rfl

theorem text?_eq_some {s : Setting} {t : String} : text? s = some t ↔ s = .text t := by
  cases s <;> simp [text?]

theorem flag?_eq_some {s : Setting} {b : Bool} : flag? s = some b ↔ s = .flag b := by
  cases s <;> simp [flag?]

/-- A size is an integer of 32 bits without a sign. -/
theorem size?_eq_some {s : Setting} {n : Nat} :
    size? s = some n ↔ s = .integer n ∧ n ≤ 4294967295 := by
  cases s with
  | integer m =>
    rw [size?, Option.ite_none_right_eq_some, Option.some.injEq, Setting.integer.injEq]
    unfold greatestSize
    omega
  | flag | real | text | list | table => simp [size?]

/-- The folder is given as a text or not at all. -/
theorem folder?_eq_some {given : Option Setting} {folder : Option String} :
    folder? given = some folder ↔ given = folder.map .text := by
  cases given with
  | none => cases folder <;> simp [folder?]
  | some s => cases folder <;> simp [folder?, text?_eq_some]

theorem bind_text?_eq_some {given : Option Setting} {t : String} :
    given.bind text? = some t ↔ given = some (.text t) := by
  cases given <;> simp [text?_eq_some]

theorem bind_flag?_eq_some {given : Option Setting} {b : Bool} :
    given.bind flag? = some b ↔ given = some (.flag b) := by
  cases given <;> simp [flag?_eq_some]

theorem bind_size?_eq_some {given : Option Setting} {n : Nat} :
    given.bind size? = some n ↔ given = some (.integer n) ∧ n ≤ 4294967295 := by
  cases given <;> simp [size?_eq_some]

/-- The values are given if each is what its type takes what is given for. -/
theorem Said.by_iff {said : Said} {given : List String → Option Setting} :
    said.By given ↔
      (given ["logging", "assetlist"]).bind text? = some said.program ∧
        (given ["logging", "r2d2"]).bind text? = some said.pool ∧
        folder? (given ["database", "dir"]) = some said.folder ∧
        (given ["database", "pool_size"]).bind size? = some said.size ∧
        (given ["filter", "strict"]).bind flag? = some said.strict := by
  rw [bind_text?_eq_some, bind_text?_eq_some, folder?_eq_some, bind_size?_eq_some, bind_flag?_eq_some]
  constructor
  · rintro ⟨hprogram, hpool, hfolder, hsize, hfits, hstrict⟩
    exact ⟨hprogram, hpool, hfolder, ⟨hsize, hfits⟩, hstrict⟩
  · rintro ⟨hprogram, hpool, hfolder, ⟨hsize, hfits⟩, hstrict⟩
    exact ⟨hprogram, hpool, hfolder, hsize, hfits, hstrict⟩

instance (said : Said) (given : List String → Option Setting) : Decidable (said.By given) :=
  decidable_of_iff' _ Said.by_iff

/-- The values put right. -/
def Said.settings (said : Said) : Settings where
  programLog := (LogLevel.ofText? said.program).getD .info
  poolLog := (LogLevel.ofText? said.pool).getD .error
  folder := said.folder
  poolSize := max 1 said.size
  strict := said.strict

/-- Putting values right one by one gives what they yield. -/
theorem Said.yields_settings (said : Said) : said.Yields said.settings where
  program := LogLevel.normalises_ofText? said.program .info
  pool := LogLevel.normalises_ofText? said.pool .error
  folder := rfl
  size := by
    show max 1 said.size = _
    split <;> omega
  strict := rfl

/-- Settings come of five values only if all are there, and they are the values put right. -/
theorem settings_eq_some {program pool : Option String} {folder : Option (Option String)}
    {size : Option Nat} {strict : Option Bool} {s : Settings} :
    (do return Said.settings ⟨← program, ← pool, ← folder, ← size, ← strict⟩) = some s ↔
      ∃ said : Said, (program = some said.program ∧ pool = some said.pool ∧ folder = some said.folder ∧
        size = some said.size ∧ strict = some said.strict) ∧ s = said.settings := by
  simp only [Option.bind_eq_bind, Option.bind_eq_some_iff]
  constructor
  · rintro ⟨program, rfl, pool, rfl, folder, rfl, size, rfl, strict, rfl, hs⟩
    cases hs
    exact ⟨⟨program, pool, folder, size, strict⟩, ⟨rfl, rfl, rfl, rfl, rfl⟩, rfl⟩
  · rintro ⟨said, ⟨rfl, rfl, rfl, rfl, rfl⟩, rfl⟩
    exact ⟨_, rfl, _, rfl, _, rfl, _, rfl, _, rfl, rfl⟩

/-- The settings of a tree with tables for its sections are the values that it gives, put right. -/
theorem ofSetting?_eq_some {tree : Setting} {s : Settings}
    (h : ∀ name ∈ sections, ∃ ms, tree.at? [name] = some (.table ms)) :
    ofSetting? tree = some s ↔ ∃ said : Said, said.By tree.at? ∧ s = said.settings := by
  simp only [Said.by_iff]
  rw [ofSetting?_eq h]
  exact settings_eq_some

/-- Whatever the shape of a tree and of its sections, its settings are values put right. -/
theorem exists_said_of_ofSetting? {tree : Setting} {s : Settings} (h : ofSetting? tree = some s) :
    ∃ said : Said, s = said.settings := by
  simp only [ofSetting?, Option.bind_eq_bind, Option.bind_eq_some_iff] at h
  obtain ⟨inTree, -, h⟩ := h
  -- of what is not matched here, a section or a field that has to be there is missing
  match inTree with
  | [some logging, some database, some filter] =>
    obtain ⟨inLogging, -, h⟩ := Option.bind_eq_some_iff.mp h
    match inLogging with
    | [some program, some pool] =>
      obtain ⟨inDatabase, -, h⟩ := Option.bind_eq_some_iff.mp h
      match inDatabase with
      | [folder, some size] =>
        obtain ⟨inFilter, -, h⟩ := Option.bind_eq_some_iff.mp h
        match inFilter with
        | [some strict] =>
          match folder with
          | none => exact (settings_eq_some.mp h).imp fun _ => And.right
          | some folder => exact (settings_eq_some.mp h).imp fun _ => And.right

/-! ## The layers over one another -/

/-- Values are given by layers that are alike at the same time, since none of them is a table. -/
theorem Said.By.congr {said : Said} {given given' : List String → Option Setting}
    (h : ∀ name ∈ sections, ∀ key, Alike (given [name, key]) (given' [name, key])) :
    said.By given ↔ said.By given' := by
  have hlogging := h "logging" (by decide)
  have hdatabase := h "database" (by decide)
  have hfilter := h "filter" (by decide)
  have hfolder : given ["database", "dir"] = said.folder.map .text ↔
      given' ["database", "dir"] = said.folder.map .text := by
    cases said.folder with
    | none => exact (hdatabase "dir").2
    | some folder => exact (hdatabase "dir").1 _ rfl
  constructor
  · rintro ⟨hprogram, hpool, hdir, hsize, hfits, hstrict⟩
    exact ⟨((hlogging _).1 _ rfl).mp hprogram, ((hlogging _).1 _ rfl).mp hpool, hfolder.mp hdir,
      ((hdatabase _).1 _ rfl).mp hsize, hfits, ((hfilter _).1 _ rfl).mp hstrict⟩
  · rintro ⟨hprogram, hpool, hdir, hsize, hfits, hstrict⟩
    exact ⟨((hlogging _).1 _ rfl).mpr hprogram, ((hlogging _).1 _ rfl).mpr hpool, hfolder.mpr hdir,
      ((hdatabase _).1 _ rfl).mpr hsize, hfits, ((hfilter _).1 _ rfl).mpr hstrict⟩

/-- A layer that is a table with distinct names, and whose sections are tables. -/
structure Proper (layer : Setting) : Prop where
  table : layer.isTable = true
  distinct : layer.Distinct
  sectioned : Sectioned layer

/-- A proper layer decides about a section, or about a setting in it, only by what it gives. -/
theorem Proper.decides {layer : Setting} (h : Proper layer) {name : String} (hname : name ∈ sections)
    {p : List String} (hp : p.length ≤ 1) (hnone : layer.at? (name :: p) = none) :
    layer.decides (name :: p) = false := by
  obtain ⟨ms, rfl⟩ := isTable_iff.mp h.table
  rw [at?_table] at hnone
  rw [decides_table]
  cases hinner : ms.lookup name with
  | none => rfl
  -- what stands there is a table, so it would give the section
  | some inner =>
    have hsection := h.sectioned name hname inner (by rw [at?_table, hinner]; rfl)
    obtain ⟨fields, rfl⟩ := isTable_iff.mp hsection
    rw [hinner, Option.bind_some] at hnone
    cases p with
    | nil => cases hnone
    | cons key p =>
      obtain rfl : p = [] := List.length_eq_zero_iff.mp (Nat.le_zero.mp (Nat.le_of_succ_le_succ hp))
      rw [at?_table] at hnone
      show (fields.lookup key).any _ = false
      cases hfield : fields.lookup key with
      | none => rfl
      | some field =>
        rw [hfield] at hnone
        cases hnone

/-- The highest layer comes before all others. -/
theorem given?_cons {layer : Setting} {layers : List Setting} {p : List String} :
    given? (layer :: layers) p = (layer.at? p).or (given? layers p) := by
  unfold given?
  rw [List.findSome?_cons]
  cases layer.at? p <;> rfl

section Layers

variable {file environment : Setting} {name : String}

/-- What the merged layers give in a section is what the highest of them gives, tables aside. -/
theorem alike_layers (hfile : Proper file) (henv : Proper environment) (hname : name ∈ sections)
    {p : List String} (hp : p.length ≤ 1) :
    Alike (((base.merge file).merge environment).at? (name :: p))
      (given? [environment, file, base] (name :: p)) := by
  have hlower : Alike ((base.merge file).at? (name :: p))
      ((file.at? (name :: p)).or (base.at? (name :: p))) :=
    alike_merge hfile.distinct (hfile.decides hname hp)
  have hupper : Alike (((base.merge file).merge environment).at? (name :: p))
      ((environment.at? (name :: p)).or ((base.merge file).at? (name :: p))) :=
    alike_merge henv.distinct (henv.decides hname hp)
  rw [given?_cons, given?_cons, given?_cons, show given? [] (name :: p) = none from rfl, Option.or_none]
  exact hupper.trans (.or (.refl _) hlower)

theorem exists_base_section (hname : name ∈ sections) : ∃ ms, base.at? [name] = some (.table ms) := by
  simp only [sections, List.mem_cons, List.not_mem_nil, or_false] at hname
  rcases hname with rfl | rfl | rfl <;> exact ⟨_, rfl⟩

/-- Under proper layers the sections of the defaults stay tables. -/
theorem exists_section (hfile : Proper file) (henv : Proper environment) (hname : name ∈ sections) :
    ∃ ms, ((base.merge file).merge environment).at? [name] = some (.table ms) := by
  obtain ⟨ms, hms⟩ := exists_base_section hname
  obtain ⟨hvalue, hnone⟩ := alike_layers hfile henv hname (p := []) (Nat.zero_le 1)
  -- each layer that gives the section gives it as a table
  have hgiven : ∀ v, given? [environment, file, base] [name] = some v → v.isTable = true := by
    intro v hv
    obtain ⟨layer, hlayer, hgives⟩ := List.exists_of_findSome?_eq_some hv
    clear hv
    simp only [List.mem_cons, List.not_mem_nil, or_false] at hlayer
    rcases hlayer with rfl | rfl | rfl
    · exact henv.sectioned name hname v hgives
    · exact hfile.sectioned name hname v hgives
    · rw [hms] at hgives
      cases hgives
      rfl
  cases hmerged : ((base.merge file).merge environment).at? [name] with
  | none =>
    have hall := List.findSome?_eq_none_iff.mp (hnone.mp hmerged) base (by simp)
    rw [hms] at hall
    cases hall
  | some v =>
    cases htable : v.isTable with
    | true =>
      obtain ⟨ms, rfl⟩ := isTable_iff.mp htable
      exact ⟨ms, rfl⟩
    | false =>
      have hv := hgiven v ((hvalue v htable).mp hmerged)
      rw [htable] at hv
      cases hv

/-- Proper layers make up the settings of the tree that they merge to. -/
theorem madeUp_merge (hfile : Proper file) (henv : Proper environment) :
    MadeUp [environment, file, base]
      ((ofSetting? ((base.merge file).merge environment)).getD {}) := by
  have hsettings (s : Settings) :=
    ofSetting?_eq_some (s := s) fun name hname => exists_section hfile henv hname
  -- the merged tree and the layers over one another give the same at every path of a setting
  have hby (said : Said) : said.By ((base.merge file).merge environment).at? ↔
      said.By (given? [environment, file, base]) :=
    Said.By.congr fun name hname key => alike_layers hfile henv hname (p := [key]) (Nat.le_refl 1)
  constructor
  · intro said hsaid
    rw [(hsettings said.settings).mpr ⟨said, (hby said).mpr hsaid, rfl⟩]
    exact said.yields_settings
  · intro hnone
    cases h : ofSetting? ((base.merge file).merge environment) with
    | none => rfl
    | some s =>
      obtain ⟨said, hsaid, -⟩ := (hsettings s).mp h
      exact absurd ⟨said, (hby said).mp hsaid⟩ hnone

end Layers

end Settings

end AssetRegister
