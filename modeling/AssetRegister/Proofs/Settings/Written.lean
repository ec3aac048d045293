import AssetRegister.Proofs.Settings.Distinct

/-!
# What settings files say

A settings file is read in two steps: `written?` is what its lines say, in which each table may then stand
for another value by its reserved names. The names in the tables stay distinct, and a file without reserved
names is taken as it is written.
-/

namespace AssetRegister.SettingsFile

open Scan Setting

/-- What a settings file says, before tables stand for anything. -/
def written? (s : String) : Option (List (String × Setting)) := do
  let ls ← whole? lines s.toList
  let p ← ls.foldlM Progress.add {}
  return memberSettings p.members

/-- The reading of a file in two steps: what its lines say, and what its tables stand for. -/
theorem read?_eq (s : String) :
    read? s = (written? s).bind fun ms => (representedOuter? ms).map .table := by
  unfold read? written?
  cases whole? lines s.toList with
  | none => rfl
  | some ls =>
    show (ls.foldlM Progress.add {}).bind _ = ((ls.foldlM Progress.add {}).bind _).bind _
    cases ls.foldlM Progress.add {} with
    | none => rfl
    | some p =>
      show (representedOuter? (memberSettings p.members)).bind _ =
        (representedOuter? (memberSettings p.members)).map _
      cases representedOuter? (memberSettings p.members) <;> rfl

/-- The lines of a file make tables with distinct names. -/
theorem distinct_written {s : String} {ms : List (String × Setting)} (h : written? s = some ms) :
    (table ms).Distinct := by
  obtain ⟨ls, hls, h⟩ := Option.bind_eq_some_iff.mp h
  obtain ⟨p, hp, h⟩ := Option.bind_eq_some_iff.mp h
  cases h
  exact (distinct_lines (yields_lines.whole? hls) .empty hp).settings

/-! ## Tables that stand for a value -/

/-- The first member of a table is left out, being a mark, or it is what its value stands for. -/
theorem representedMembers?_cons {name : String} {v : Setting} {ms result : List (String × Setting)}
    (h : representedMembers? ((name, v) :: ms) = some result) :
    ∃ rest, representedMembers? ms = some rest ∧
      (result = rest ∨ ∃ w, represented? v = some w ∧ result = (name, w) :: rest) := by
  rw [representedMembers?] at h
  obtain ⟨rest, hrest, h⟩ := Option.bind_eq_some_iff.mp h
  refine ⟨rest, hrest, ?_⟩
  split at h
  · obtain ⟨-, -, h⟩ := Option.bind_eq_some_iff.mp h
    cases h
    exact .inl rfl
  · obtain ⟨w, hw, h⟩ := Option.bind_eq_some_iff.mp h
    cases h
    exact .inr ⟨w, hw, rfl⟩

/-- Members are only left out. Induction on the members. -/
theorem names_representedMembers {ms result : List (String × Setting)}
    (hmembers : ∀ m ∈ ms, ∀ w, represented? m.2 = some w → w.Distinct)
    (h : representedMembers? ms = some result) :
    (result.map Prod.fst).Sublist (ms.map Prod.fst) ∧ ∀ m ∈ result, m.2.Distinct := by
  induction ms generalizing result with
  | nil =>
    rw [representedMembers?] at h
    cases h
    exact ⟨List.Sublist.slnil, List.forall_mem_nil _⟩
  | cons m ms ih =>
    obtain ⟨hm, hmembers⟩ := List.forall_mem_cons.mp hmembers
    obtain ⟨rest, hrest, hresult⟩ := representedMembers?_cons h
    obtain ⟨hnames, hdistinct⟩ := ih hmembers hrest
    rcases hresult with rfl | ⟨w, hw, rfl⟩
    · exact ⟨hnames.cons _, hdistinct⟩
    · exact ⟨hnames.cons_cons _, List.forall_mem_cons.mpr ⟨hm w hw, hdistinct⟩⟩

/-- So what the members of a table stand for has distinct names. -/
theorem distinct_representedMembers {ms result : List (String × Setting)}
    (hnames : (ms.map Prod.fst).Nodup)
    (hmembers : ∀ m ∈ ms, ∀ w, represented? m.2 = some w → w.Distinct)
    (h : representedMembers? ms = some result) : (table result).Distinct := by
  obtain ⟨hsublist, hdistinct⟩ := names_representedMembers hmembers h
  exact .table (hsublist.nodup hnames) hdistinct

/-- What a setting stands for has distinct names if the setting has. -/
theorem distinct_represented {v w : Setting} (h : v.Distinct) (hw : represented? v = some w) :
    w.Distinct := by
  induction h generalizing w with
  | @other v hv =>
    cases v with
    | table => cases hv
    | list items =>
      rw [represented?] at hw
      obtain ⟨items, -, hw⟩ := Option.bind_eq_some_iff.mp hw
      cases hw
      exact .other rfl
    | flag | integer | real | text =>
      simp only [represented?] at hw
      cases hw
      exact .other rfl
  | table hnames hmembers ih =>
    rw [represented?] at hw
    obtain ⟨ms, hms, hw⟩ := Option.bind_eq_some_iff.mp hw
    have hdistinct := distinct_representedMembers hnames (fun m hm w => ih m hm) hms
    cases hw
    -- the table stands for its member of the reserved name, if there is one
    cases hvalue : ms.lookup valueName with
    | none => exact hdistinct
    | some v => exact hdistinct.of_lookup hvalue

theorem representedOuter?_eq (ms : List (String × Setting)) :
    representedOuter? ms = ms.mapM fun m => (represented? m.2).map fun s => (m.1, s) := rfl

/-- In the outermost table no member is left out, and each stands for what it stands for by itself. -/
theorem names_representedOuter {ms result : List (String × Setting)}
    (hmembers : ∀ m ∈ ms, m.2.Distinct) (hresult : representedOuter? ms = some result) :
    result.map Prod.fst = ms.map Prod.fst ∧ ∀ m ∈ result, m.2.Distinct := by
  rw [representedOuter?_eq] at hresult
  induction ms generalizing result with
  | nil =>
    cases hresult
    exact ⟨rfl, List.forall_mem_nil _⟩
  | cons m ms ih =>
    obtain ⟨hm, hmembers⟩ := List.forall_mem_cons.mp hmembers
    rw [List.mapM_cons] at hresult
    obtain ⟨r, hr, hresult⟩ := Option.bind_eq_some_iff.mp hresult
    obtain ⟨rest, hrest, hresult⟩ := Option.bind_eq_some_iff.mp hresult
    cases hresult
    obtain ⟨w, hw, rfl⟩ := Option.map_eq_some_iff.mp hr
    obtain ⟨hnames, hdistinct⟩ := ih hmembers hrest
    refine ⟨?_, List.forall_mem_cons.mpr ⟨distinct_represented hm hw, hdistinct⟩⟩
    rw [List.map_cons, List.map_cons, hnames]

theorem distinct_representedOuter {ms result : List (String × Setting)} (h : (table ms).Distinct)
    (hresult : representedOuter? ms = some result) : (table result).Distinct := by
  cases h with
  | other h => cases h
  | table hnames hmembers =>
    obtain ⟨hsame, hdistinct⟩ := names_representedOuter hmembers hresult
    refine .table ?_ hdistinct
    rw [hsame]
    exact hnames

/-- The tree of any file that is not refused has distinct names. -/
theorem distinct_read {s : String} {tree : Setting} (h : read? s = some tree) : tree.Distinct := by
  rw [read?_eq] at h
  obtain ⟨ms, hms, h⟩ := Option.bind_eq_some_iff.mp h
  obtain ⟨rs, hrs, rfl⟩ := Option.map_eq_some_iff.mp h
  exact distinct_representedOuter (distinct_written hms) hrs

/-- No table, at any depth, has a member of a reserved name. -/
inductive Unreserved : Setting → Prop where
  | flag (b : Bool) : Unreserved (.flag b)
  | integer (n : Int) : Unreserved (.integer n)
  | real : Unreserved .real
  | text (s : String) : Unreserved (.text s)
  | list {items : List Setting} (h : ∀ s ∈ items, Unreserved s) : Unreserved (.list items)
  | table {ms : List (String × Setting)} (hnames : ∀ m ∈ ms, m.1 ≠ valueName ∧ m.1 ≠ markName)
      (hmembers : ∀ m ∈ ms, Unreserved m.2) : Unreserved (.table ms)

/-- A setting without reserved names stands for itself. -/
theorem represented_of_unreserved {s : Setting} (h : Unreserved s) : represented? s = some s := by
  induction h with
  | flag | integer | real | text => simp only [represented?]
  | @list items h ih =>
    have hitems : representedItems? items = some items := by
      clear h
      induction items with
      | nil => rw [representedItems?]
      | cons s items iht =>
        obtain ⟨hs, hitems⟩ := List.forall_mem_cons.mp ih
        rw [representedItems?, hs, iht hitems]
        rfl
    rw [represented?, hitems]
    rfl
  | @table ms hnames hmembers ih =>
    have hms : representedMembers? ms = some ms := by
      clear hmembers
      induction ms with
      | nil => rw [representedMembers?]
      | cons m ms iht =>
        obtain ⟨hm, hnames⟩ := List.forall_mem_cons.mp hnames
        obtain ⟨hv, hmembers⟩ := List.forall_mem_cons.mp ih
        rw [representedMembers?, iht hnames hmembers, Option.bind_eq_bind, Option.bind_some,
          if_neg hm.2, hv]
        rfl
    -- without the reserved name the table stands for no other value
    have hvalue : ms.lookup valueName = none := by
      refine lookup_eq_none fun hmem => ?_
      obtain ⟨m, hm, hname⟩ := List.mem_map.mp hmem
      exact (hnames m hm).1 hname
    rw [represented?, hms, Option.bind_eq_bind, Option.bind_some, hvalue]
    rfl

/-- A file without reserved names inside its outermost table is taken as it is written. -/
theorem read?_of_unreserved {s : String} {ms : List (String × Setting)} (hs : written? s = some ms)
    (h : ∀ m ∈ ms, Unreserved m.2) : read? s = some (.table ms) := by
  have hms : ms.mapM (fun m => (represented? m.2).map fun s => (m.1, s)) = some ms := by
    clear hs
    induction ms with
    | nil => rfl
    | cons m ms ih =>
      obtain ⟨hm, hms⟩ := List.forall_mem_cons.mp h
      rw [List.mapM_cons, represented_of_unreserved hm, ih hms]
      rfl
  rw [read?_eq, hs, Option.bind_some, representedOuter?_eq, hms]
  rfl

theorem isTable_read {s : String} {tree : Setting} (h : read? s = some tree) : tree.isTable = true := by
  rw [read?_eq] at h
  obtain ⟨ms, -, h⟩ := Option.bind_eq_some_iff.mp h
  obtain ⟨rs, -, rfl⟩ := Option.map_eq_some_iff.mp h
  rfl

/-! ## Marks at fault -/

/-- A table, at any depth, has a mark that is no integer. -/
inductive Mismarked : Setting → Prop where
  | mark {ms : List (String × Setting)} {s : Setting} (hm : (markName, s) ∈ ms)
      (hs : isMark s = false) : Mismarked (.table ms)
  | member {ms : List (String × Setting)} {name : String} {s : Setting} (hm : (name, s) ∈ ms)
      (hname : name ≠ markName) (hs : Mismarked s) : Mismarked (.table ms)
  | item {items : List Setting} {s : Setting} (hitem : s ∈ items) (hs : Mismarked s) :
      Mismarked (.list items)

theorem mismarked_list {items : List Setting} :
    Mismarked (.list items) ↔ ∃ s ∈ items, Mismarked s := by
  constructor
  · intro h
    cases h with
    | item hitem hs => exact ⟨_, hitem, hs⟩
  · rintro ⟨s, hitem, hs⟩
    exact .item hitem hs

/-- A mark at fault is the first member, or inside it if it is no mark, or among the later ones. -/
theorem mismarked_cons {name : String} {s : Setting} {ms : List (String × Setting)} :
    Mismarked (.table ((name, s) :: ms)) ↔
      (if name = markName then isMark s = false else Mismarked s) ∨ Mismarked (.table ms) := by
  constructor
  · intro h
    cases h with
    | mark hm hs =>
      rcases List.mem_cons.mp hm with heq | hm
      · cases heq
        rw [if_pos rfl]
        exact .inl hs
      · exact .inr (.mark hm hs)
    | member hm hname hs =>
      rcases List.mem_cons.mp hm with heq | hm
      · cases heq
        rw [if_neg hname]
        exact .inl hs
      · exact .inr (.member hm hname hs)
  · rintro (h | h)
    -- the name of the first member tells which of the two it is
    · split at h
      · next hname =>
        subst hname
        exact .mark List.mem_cons_self h
      · next hname => exact .member List.mem_cons_self hname h
    · cases h with
      | mark hm hs => exact .mark (List.mem_cons_of_mem _ hm) hs
      | member hm hname hs => exact .member (List.mem_cons_of_mem _ hm) hname hs

mutual

/-- A setting stands for none exactly if a mark in it is at fault. -/
theorem represented?_eq_none : ∀ s : Setting, represented? s = none ↔ Mismarked s
  | .flag _ | .integer _ | .real | .text _ => by
    simp only [represented?, reduceCtorEq, false_iff]
    exact nofun
  | .list items => by
    rw [represented?, mismarked_list, ← representedItems?_eq_none items]
    cases representedItems? items <;> simp
  | .table ms => by
    rw [represented?, ← representedMembers?_eq_none ms]
    cases representedMembers? ms <;> simp

/-- A list stands for nothing exactly if one of its items does not. -/
theorem representedItems?_eq_none : ∀ items : List Setting,
    representedItems? items = none ↔ ∃ s ∈ items, Mismarked s
  | [] => by simp [representedItems?]
  | s :: items => by
    rw [representedItems?, List.exists_mem_cons_iff, ← represented?_eq_none s,
      ← representedItems?_eq_none items]
    cases represented? s <;> cases representedItems? items <;> simp

/-- The members of a table stand for nothing exactly if a mark among or inside them is at fault. -/
theorem representedMembers?_eq_none : ∀ ms : List (String × Setting),
    representedMembers? ms = none ↔ Mismarked (.table ms)
  | [] => by
    simp only [representedMembers?, reduceCtorEq, false_iff]
    intro h
    cases h with
    | mark hm => cases hm
    | member hm => cases hm
  | (name, s) :: ms => by
    rw [representedMembers?, mismarked_cons, ← representedMembers?_eq_none ms, ← represented?_eq_none s]
    cases representedMembers? ms with
    | none => simp
    | some rest =>
      -- a mark is looked at and left out, any other member is gone into
      by_cases hname : name = markName
      · rw [if_pos hname, Option.bind_eq_bind, Option.bind_some, if_pos hname]
        cases isMark s with
        | false => exact iff_of_true rfl (.inl rfl)
        | true => exact iff_of_false nofun (by simp)
      · cases represented? s <;> simp [hname]

end

/-- A settings file is refused if it is at fault as it is written, or has a mark at fault inside its
outermost table. -/
theorem read?_eq_none {s : String} :
    read? s = none ↔ ∀ ms, written? s = some ms → ∃ m ∈ ms, Mismarked m.2 := by
  rw [read?_eq]
  cases written? s with
  | none => simp
  | some ms =>
    have hms : ms.mapM (fun m => (represented? m.2).map fun s => (m.1, s)) = none ↔
        ∃ m ∈ ms, Mismarked m.2 := by
      induction ms with
      | nil => simp
      | cons m ms ih =>
        rw [List.mapM_cons, List.exists_mem_cons_iff, ← ih, ← represented?_eq_none m.2]
        cases represented? m.2 with
        | none => simp
        | some w =>
          rw [Option.map_some]
          cases ms.mapM fun m => (represented? m.2).map fun s => (m.1, s) <;> simp
    rw [Option.bind_some, Option.map_eq_none_iff, representedOuter?_eq, hms]
    simp

end AssetRegister.SettingsFile
