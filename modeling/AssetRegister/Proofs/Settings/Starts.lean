import AssetRegister.Application.Disk
import AssetRegister.Proofs.Outcome

/-!
# First and later starts

The settings file that is made says what the defaults say, so the first start of the program, which makes
it, and later ones, which read it, come to the same settings.

* `Settings.ofLayers_fileText`: a file with the made text is as good as none.
* `Disk.Grown`: where folders are made, all else stays.
* `Disk.Unsettled.loadSettings`: one start. `Disk.Unsettled.starts`: any number of them.

Main statement: `Disk.starts_alike`.
-/

namespace AssetRegister

namespace Settings

/-! ## The text that is made -/

/-- The made text says what the defaults say. -/
theorem read?_fileText : SettingsFile.read? fileText = some base := by decide +kernel

theorem merge_base_base : base.merge base = base := rfl

theorem merge_base_empty : base.merge (.table []) = base := rfl

/-- **The made text, under any variables, is as good as no file.** -/
theorem ofLayers_fileText (environment : List (String × String)) :
    ofLayers (some fileText) environment = ofLayers none environment := by
  simp only [ofLayers, read?_fileText, Option.bind_some, merge_base_base, merge_base_empty]

/-- It does not matter whether the file could be made. -/
theorem load_none (writable : Bool) (environment : List (String × String)) :
    load none writable environment =
      (ofLayers none environment, if writable then some fileText else none) := by
  cases writable with
  | true => simp only [load, if_true, ofLayers_fileText]
  | false => simp only [load, Bool.false_eq_true, if_false]

/-- A start that finds the made text comes to the settings of one without a file, and makes none. -/
theorem load_fileText (writable : Bool) (environment : List (String × String)) :
    load (some fileText) writable environment = (ofLayers none environment, none) := by
  simp only [load, ofLayers_fileText]

end Settings

namespace Disk

/-! ## Making folders -/

/-- What is taken away at one place is not missed at another. -/
theorem lookup_filter {entries : List (Place × DiskEntry)} {p q : Place} (h : q ≠ p) :
    (entries.filter (·.1 != p)).lookup q = entries.lookup q := by
  induction entries with
  | nil => rfl
  | cons entry entries ih =>
    obtain ⟨r, entry⟩ := entry
    by_cases hr : r = p
    · -- the removed one is not the one looked for
      subst hr
      rw [List.filter_cons_of_neg (by simp), ih, List.lookup_cons, beq_false_of_ne h]
    · rw [List.filter_cons_of_pos (by simpa using hr), List.lookup_cons, List.lookup_cons, ih]

/-- Putting something at a place changes no other place. -/
theorem entry?_set_of_ne {disk : Disk} {p q : Place} {entry : DiskEntry} (h : q ≠ p) :
    entry? (disk.set p entry) q = disk.entry? q := by
  have hlookup : (disk.set p entry).entries.lookup q = disk.entries.lookup q := by
    unfold set
    rw [List.lookup_append, lookup_filter h, List.lookup_cons, beq_false_of_ne h]
    simp
  unfold entry?
  rw [hlookup]

/-- What is put at a place stands there, but for the places where folders are given. -/
theorem entry?_set_self (disk : Disk) (p : Place) (entry : DiskEntry) :
    entry? (disk.set p entry) p = some .folder ∨ entry? (disk.set p entry) p = some entry := by
  have hnone : (disk.entries.filter (·.1 != p)).lookup p = none := by
    rw [List.lookup_eq_none_iff]
    intro r hr
    rw [bne_comm]
    exact (List.mem_filter.mp hr).2
  have hlookup : (disk.set p entry).entries.lookup p = some entry := by
    unfold set
    rw [List.lookup_append, hnone]
    simp
  unfold entry?
  split
  · exact .inl rfl
  · exact .inr hlookup

/-- Nothing but folders has been made, and only where nothing stood. -/
def Grown (disk disk' : Disk) : Prop :=
  ∀ place, disk'.entry? place = disk.entry? place ∨
    disk.entry? place = none ∧ disk'.entry? place = some .folder

theorem Grown.refl (disk : Disk) : Grown disk disk := fun _ => .inl rfl

theorem Grown.trans {a b c : Disk} (hab : Grown a b) (hbc : Grown b c) : Grown a c := by
  intro place
  rcases hbc place with h | ⟨hnone, hfolder⟩
  · rw [h]
    exact hab place
  · rcases hab place with h | ⟨-, h⟩
    · exact .inr ⟨h ▸ hnone, hfolder⟩
    · rw [h] at hnone
      cases hnone

/-- A folder is made only where nothing stands. -/
theorem grown_makeFolder {disk disk' : Disk} {way : Way} (h : disk.makeFolder way = .ok disk') :
    Grown disk disk' := by
  unfold makeFolder at h
  obtain ⟨place, -, h⟩ := Outcome.bind_eq_ok.mp h
  split at h
  · cases h
  · cases h
  · cases h
  · next name _ _ _ =>
    split at h
    · cases h
    · split at h
      · cases h
      · next hfree =>
        cases h
        have hnone : disk.entry? (place.enter name) = none := by simpa using hfree
        intro q
        by_cases hq : q = place.enter name
        · subst hq
          -- the new folder stands at a place that was free
          right
          rcases entry?_set_self disk (place.enter name) .folder with hset | hset
          · exact ⟨hnone, hset⟩
          · exact ⟨hnone, hset⟩
        · left
          exact entry?_set_of_ne hq

/-- A folder that cannot be made may be there already, and then nothing changes. -/
theorem grown_provideFolder {disk disk' : Disk} {way : Way}
    (h : disk.provideFolder way = .ok disk') : Grown disk disk' := by
  unfold provideFolder at h
  split at h
  · next hmade =>
    cases h
    exact grown_makeFolder hmade
  · split at h
    · cases h
      exact .refl disk
    · cases h

/-- Folders made one after another, also up to a fault, leave all else as it was. -/
theorem grown_provideFolders (disk : Disk) (ways : List Way) :
    Grown disk (disk.provideFolders ways).2 := by
  -- on the ways: those that lead to a folder come after the way to it
  induction ways with
  | nil => exact .refl disk
  | cons way ancestors ih =>
    unfold provideFolders
    split
    · next hmade => exact grown_provideFolder hmade
    · split
      · -- what was made before the fault stays
        next hfault =>
        rw [hfault] at ih
        exact ih
      · next hfound =>
        rw [hfound] at ih
        split
        · next hmade => exact ih.trans (grown_provideFolder hmade)
        · exact ih
    · exact .refl disk

/-- Making the folder of a path and all that lead to it changes nothing that was there. -/
theorem grown_provide (disk : Disk) (path : String) : Grown disk (disk.provide path).2 := by
  unfold provide
  split
  · exact .refl disk
  · split
    · exact .refl disk
    · exact grown_provideFolders disk _

/-! ## Starts -/

/-- The settings of one start after the other, each with its own environment. -/
def starts (disk : Disk) (home : String) : List (List (String × String)) → List Settings × Disk
  | [] => ([], disk)
  | environment :: later =>
    let (settings, disk) := disk.loadSettings home environment
    let (others, disk) := disk.starts home later
    (settings :: others, disk)

/-- No settings of the user's own: there is no file at its place, or the one that has been made. -/
def Unsettled (disk : Disk) (home : String) : Prop :=
  disk.entry? (settingsPlace home) = none ∨ disk.entry? (settingsPlace home) = some .folder ∨
    disk.entry? (settingsPlace home) = some (.text Settings.fileText)

/-- Making the settings file leaves it made, or its place free. -/
theorem Unsettled.writeSettings {disk : Disk} {home : String}
    (h : disk.entry? (settingsPlace home) = none) :
    (disk.writeSettings home Settings.fileText).Unsettled home := by
  unfold Disk.writeSettings
  split
  · next disk' _ =>
    exact .inr (entry?_set_self disk' (settingsPlace home) (.text Settings.fileText))
  · next disk' hfault =>
    -- some of the folders may have been made
    have hgrown := grown_provide disk home (settingsPlace home)
    rw [hfault] at hgrown
    rcases hgrown with hsame | ⟨-, hfolder⟩
    · exact .inl (hsame.trans h)
    · exact .inr (.inl hfolder)

/-- A start that finds something in the place of its file writes nothing. -/
theorem loadSettings_of_entry {disk : Disk} {home : String} {entry : DiskEntry}
    (h : disk.entry? (settingsPlace home) = some entry) (environment : List (String × String)) :
    (disk.loadSettings home environment).2 = disk := by
  cases entry <;> simp only [loadSettings, h]

/-- One start: it sees its environment over the defaults, and leaves none but the made file. -/
theorem Unsettled.loadSettings {disk : Disk} {home : String} (h : disk.Unsettled home)
    (environment : List (String × String)) :
    (disk.loadSettings home environment).1 = Settings.ofLayers none environment ∧
      (disk.loadSettings home environment).2.Unsettled home := by
  rcases h with hnone | hfolder | htext
  · simp only [Disk.loadSettings, hnone, Settings.load_none, if_true, true_and]
    exact .writeSettings hnone
  · rw [loadSettings_of_entry hfolder]
    exact ⟨by simp only [Disk.loadSettings, hfolder], .inr (.inl hfolder)⟩
  · rw [loadSettings_of_entry htext]
    exact ⟨by simp only [Disk.loadSettings, htext, Settings.load_fileText], .inr (.inr htext)⟩

/-- Any number of starts. -/
theorem Unsettled.starts {disk : Disk} {home : String} (h : disk.Unsettled home)
    (environments : List (List (String × String))) :
    (disk.starts home environments).1 = environments.map (Settings.ofLayers none) ∧
      (disk.starts home environments).2.Unsettled home := by
  induction environments generalizing disk with
  | nil => exact ⟨rfl, h⟩
  | cons environment later ih =>
    obtain ⟨hsettings, hleft⟩ := h.loadSettings environment
    obtain ⟨hothers, hend⟩ := ih hleft
    refine ⟨?_, hend⟩
    rw [List.map_cons, ← hsettings, ← hothers]
    rfl

/-- Any number of starts leave the disk as it is, if they find something in the place of their file. -/
theorem starts_of_entry {disk : Disk} {home : String} {entry : DiskEntry}
    (h : disk.entry? (settingsPlace home) = some entry)
    (environments : List (List (String × String))) : (disk.starts home environments).2 = disk := by
  induction environments with
  | nil => rfl
  | cons environment later ih =>
    show ((disk.loadSettings home environment).2.starts home later).2 = disk
    rw [loadSettings_of_entry h]
    exact ih

theorem loadSettings_of_none {disk : Disk} {home : String}
    (h : disk.entry? (settingsPlace home) = none) (environment : List (String × String)) :
    (disk.loadSettings home environment).2 = disk.writeSettings home Settings.fileText := by
  simp only [loadSettings, h, Settings.load_none, if_true]

/-- Where its folder can be made, the settings file is made in it. -/
theorem entry?_writeSettings {disk : Disk} {home text : String}
    (h : (disk.provide home).1 = none) :
    ∃ entry, entry? (disk.writeSettings home text) (settingsPlace home) = some entry := by
  unfold writeSettings
  split
  · next disk' _ =>
    rcases entry?_set_self disk' (settingsPlace home) (.text text) with hset | hset
    · exact ⟨_, hset⟩
    · exact ⟨_, hset⟩
  · next hfault =>
    rw [hfault] at h
    cases h

/-- **First and later starts see the same configuration.** For all variables of the environment, the
settings are the same whether

* there is no settings file, and it is made,
* there is none, and it cannot be made, or
* the file holds the text that was made, under whatever variables that was.

The made text is always the same, and a file that is there is not written. So, on a disk without a settings
file, each of any number of starts gives the settings that its own variables and the defaults make up, also
if the folder of the file cannot be made; and where the first start could make it, later ones leave the disk
as it is. -/
theorem starts_alike (environment : List (String × String)) :
    (Settings.load none true environment).2 = some Settings.fileText ∧
      Settings.load none false environment = ((Settings.load none true environment).1, none) ∧
      (∀ earlier text writable, (Settings.load none true earlier).2 = some text →
        Settings.load (some text) writable environment =
          ((Settings.load none true environment).1, none)) ∧
      (∀ text writable, (Settings.load (some text) writable environment).2 = none) ∧
      (∀ disk home entry, entry? disk (settingsPlace home) = some entry →
        ∀ environments, (disk.starts home environments).2 = disk) ∧
      ∀ disk home, entry? disk (settingsPlace home) = none →
        (∀ environments, (disk.starts home environments).1 =
          environments.map fun environment => (Settings.load none false environment).1) ∧
        ((disk.provide home).1 = none → ∀ later,
          (disk.starts home (environment :: later)).2 =
            disk.writeSettings home Settings.fileText) := by
  refine ⟨rfl, ?_, fun earlier text writable htext => ?_, fun _ _ => rfl,
    fun disk home entry h => starts_of_entry h, fun disk home hnone => ⟨?_, ?_⟩⟩
  · simp only [Settings.load_none, if_true]
    rfl
  · simp only [Settings.load_none, if_true, Option.some.injEq] at htext ⊢
    rw [← htext]
    exact Settings.load_fileText writable environment
  -- with no file to read, every start falls back to the defaults under its own variables
  · intro environments
    have hunsettled : disk.Unsettled home := .inl hnone
    rw [(hunsettled.starts environments).1]
    simp only [Settings.load_none]
  -- the first start writes the file, and the later ones find it
  · intro hfolder later
    show ((disk.loadSettings home environment).2.starts home later).2 = _
    rw [loadSettings_of_none hnone]
    obtain ⟨entry, hentry⟩ := entry?_writeSettings hfolder
    exact starts_of_entry hentry later

theorem settingsPlace_data : settingsPlace "/data" = ["", "data", "config.toml"] := by
  decide +kernel

theorem provide_data : (({} : Disk).provide "/data").1 = none := by
  unfold provide
  rw [if_neg (by simp), if_neg (by decide)]
  decide +kernel

/-- Three starts on an empty disk, the second of which has a variable that is at fault. -/
theorem starts_alike_threeTimes :
    let environments : List (List (String × String)) :=
      [[("ASSETLIST_DATABASE__DIR", "/srv")], [("ASSETLIST_FILTER__STRICT", "1")], []]
    (({} : Disk).starts "/data" environments).1 = [{ folder := some "/srv" }, {}, {}] ∧
      (({} : Disk).starts "/data" environments).2 =
        ({} : Disk).writeSettings "/data" Settings.fileText := by
  intro environments
  have hnone : entry? {} (settingsPlace "/data") = none := by
    rw [settingsPlace_data]
    rfl
  obtain ⟨-, -, -, -, -, hstarts⟩ := starts_alike [("ASSETLIST_DATABASE__DIR", "/srv")]
  obtain ⟨hsettings, hleft⟩ := hstarts {} "/data" hnone
  refine ⟨?_, hleft provide_data _⟩
  rw [hsettings environments]
  decide +kernel

end Disk

end AssetRegister
