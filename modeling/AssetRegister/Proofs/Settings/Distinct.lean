import AssetRegister.Proofs.Settings.Path
import AssetRegister.Proofs.Settings.Scan
import AssetRegister.Settings.File.Reader
import AssetRegister.Settings.Variable
import Mathlib.Data.Option.Basic

/-!
# Layers have distinct names

No table of a layer has two members of one name, whatever the text is that the layer was read from: each
table is made by setting one member after another. The lemmas follow the readers of variables and of
settings files, and the lines of a file as they open tables and add to them.
-/

namespace AssetRegister

open Scan Setting

/-- What each step of a pass preserves holds after the pass. -/
theorem foldlM_invariant {α β : Type} {P : β → Prop} {f : β → α → Option β} {as : List α} {b result : β}
    (hstep : ∀ b c a, a ∈ as → P b → f b a = some c → P c) (hb : P b)
    (hresult : as.foldlM f b = some result) : P result := by
  induction as generalizing b with
  | nil =>
    cases hresult
    exact hb
  | cons a as ih =>
    rw [List.foldlM_cons] at hresult
    obtain ⟨c, hc, hresult⟩ := Option.bind_eq_some_iff.mp hresult
    exact ih (fun b c a ha => hstep b c a (List.mem_cons_of_mem _ ha))
      (hstep b c a List.mem_cons_self hb hc) hresult

/-! ## Variables -/

namespace Variable

/-- Of the members of a table in braces the last of each name counts, so the names are distinct. -/
theorem distinct_tableOf {members : List (String × Setting)} (h : ∀ m ∈ members, m.2.Distinct) :
    (tableOf members).Distinct := by
  have hfold : ∀ ms, (table ms).Distinct →
      (table (members.foldl (fun ms m => setMember m.1 m.2 ms) ms)).Distinct := by
    induction members with
    | nil => exact fun _ hms => hms
    | cons m members ih =>
      obtain ⟨hm, hmembers⟩ := List.forall_mem_cons.mp h
      exact fun ms hms => ih hmembers _ (hms.setMember hm)
  exact hfold [] .empty

/-- A value without quotes, lists and braces is a real number, an integer or a text. -/
theorem bare_not_table (s : List Char) : (bare s).isTable = false := by
  unfold bare
  split
  · rfl
  · split <;> rfl

/-- What holds of each item holds of all items of a list. -/
theorem yields_itemsUntil {α : Type} {close : Char} {item : Scan α} {P : α → Prop} (h : Yields item P) :
    Yields (itemsUntil close item) fun as => ∀ a ∈ as, P a := by
  have hbefore : Yields (itemBefore close item) P :=
    .after fun _ => .after fun _ => h.bind fun _ ha => .after fun _ => .pure ha
  exact (Yields.many hbefore).bind fun _ has => .after fun _ => .pure has

theorem yields_member {inner : Scan Setting} (h : Yields inner Distinct) :
    Yields (member inner) fun m => m.2.Distinct :=
  .after fun _ => .after fun _ => .after fun _ => .after fun _ => h.bind fun _ hv => .pure hv

/-- A value has distinct names if the values inside it have. -/
theorem yields_valueWith {inner : Scan Setting} (h : Yields inner Distinct) :
    Yields (valueWith inner) Distinct := by
  refine .after fun next => ?_
  split
  · exact .after fun _ => .after fun _ => .pure (.other rfl)
  -- only braces make a table
  · exact .after fun _ => (yields_itemsUntil (yields_member h)).bind fun _ hms =>
      .pure (distinct_tableOf hms)
  · exact .after fun _ => .pure (.other rfl)
  · exact .after fun _ => .after fun _ => .after fun _ => .pure (.other rfl)
  · refine .orElse (.after fun _ => .pure (.other rfl)) (.orElse (.after fun _ => .pure (.other rfl)) ?_)
    exact .after fun _ => .pure (.other (bare_not_table _))

/-- Values of variables have distinct names, however deep they are nested. -/
theorem yields_value (depth : Nat) : Yields (value depth) Distinct := by
  induction depth with
  | zero => exact .failure
  | succ depth ih =>
    exact .after fun _ => (yields_valueWith ih).bind fun _ hv => .after fun _ => .pure hv

/-- Whatever the text of a variable is, the setting that it stands for has distinct names. -/
theorem distinct_setting (s : String) : (setting s).Distinct := by
  unfold setting
  cases h : whole? (value (s.length + 1)) s.toList with
  | none => exact .other rfl
  | some v => exact (yields_value _).whole? h

end Variable

/-! ## Values of settings files -/

namespace SettingsFile

/-- A table of nodes has distinct names, and so have the tables inside it. A list of tables may hold
anything, since no path leads into a list. -/
inductive Node.Distinct : Node → Prop where
  | value {v : Setting} (h : v.Distinct) : Distinct (.value v)
  | table {origin : Origin} {ms : List (String × Node)} (hnames : (ms.map Prod.fst).Nodup)
      (hmembers : ∀ m ∈ ms, Distinct m.2) : Distinct (.table origin ms)
  | tables {closed : List Setting} {last : List (String × Node)} : Distinct (.tables closed last)

/-- The names of nodes are distinct, and so are those inside them. -/
structure DistinctNodes (ms : List (String × Node)) : Prop where
  names : (ms.map Prod.fst).Nodup
  members : ∀ m ∈ ms, m.2.Distinct

theorem DistinctNodes.empty : DistinctNodes [] := ⟨List.nodup_nil, List.forall_mem_nil _⟩

theorem DistinctNodes.setMember {ms : List (String × Node)} {name : String} {n : Node}
    (h : DistinctNodes ms) (hn : n.Distinct) : DistinctNodes (setMember name n ms) := by
  refine ⟨nodup_setMember h.names, fun m hm => ?_⟩
  rcases mem_of_mem_setMember hm with rfl | hm
  · exact hn
  · exact h.members m hm

/-- The nodes inside a table of nodes are distinct too. -/
theorem DistinctNodes.of_lookup {ms : List (String × Node)} {name : String} {origin : Origin}
    {inner : List (String × Node)} (h : DistinctNodes ms)
    (hinner : ms.lookup name = some (.table origin inner)) : DistinctNodes inner := by
  have hnode := h.members _ (mem_of_lookup hinner)
  cases hnode with
  | table hnames hmembers => exact ⟨hnames, hmembers⟩

theorem memberSettings_eq_map (ms : List (String × Node)) :
    memberSettings ms = ms.map fun m => (m.1, m.2.setting) := by
  induction ms with
  | nil => rw [memberSettings, List.map_nil]
  | cons m ms ih => rw [memberSettings, ih, List.map_cons]

/-- The setting that a node stands for has distinct names if the node has. -/
theorem Node.Distinct.setting {n : Node} (h : n.Distinct) : n.setting.Distinct := by
  induction h with
  | value h =>
    rw [Node.setting]
    exact h
  | table hnames hmembers ih =>
    rw [Node.setting, memberSettings_eq_map]
    refine .table ?_ ?_
    · rwa [List.map_map]
    · intro m hm
      obtain ⟨n, hn, rfl⟩ := List.mem_map.mp hm
      exact ih n hn
  -- a list may hold tables of any kind, since no path leads into it
  | tables =>
    rw [Node.setting]
    exact .other rfl

theorem DistinctNodes.settings {ms : List (String × Node)} (h : DistinctNodes ms) :
    (Setting.table (memberSettings ms)).Distinct := by
  have hsetting := (Node.Distinct.table h.names h.members : (Node.table .explicit ms).Distinct).setting
  rwa [Node.setting] at hsetting

/-- A change of one table on a path keeps names distinct. -/
theorem DistinctNodes.change {way origin : Origin} {ms result : List (String × Node)}
    {path : List String} {f : Origin → List (String × Node) → Option (List (String × Node))}
    (hf : ∀ o inner changed, DistinctNodes inner → f o inner = some changed → DistinctNodes changed)
    (h : DistinctNodes ms) (hresult : change way f origin ms path = some result) :
    DistinctNodes result := by
  induction path generalizing origin ms result with
  | nil => exact hf origin ms result h hresult
  | cons name path ih =>
    rw [SettingsFile.change] at hresult
    cases hlookup : ms.lookup name with
    -- a table that is missing on the path comes to be with what the change makes of an empty one
    | none =>
      rw [hlookup] at hresult
      obtain ⟨inner, hinner, hresult⟩ := Option.bind_eq_some_iff.mp hresult
      cases hresult
      have hdistinct := ih .empty hinner
      exact h.setMember (.table hdistinct.names hdistinct.members)
    | some n =>
      rw [hlookup] at hresult
      cases n with
      | value v => cases hresult
      | table o inner =>
        obtain ⟨-, -, hresult⟩ := Option.bind_eq_some_iff.mp hresult
        obtain ⟨changed, hchanged, hresult⟩ := Option.bind_eq_some_iff.mp hresult
        cases hresult
        have hdistinct := ih (h.of_lookup hlookup) hchanged
        exact h.setMember (.table hdistinct.names hdistinct.members)
      | tables closed last =>
        obtain ⟨last, -, hresult⟩ := Option.bind_eq_some_iff.mp hresult
        cases hresult
        exact h.setMember .tables

/-- An entry goes under a name that is not in its table yet. -/
theorem DistinctNodes.addEntry {ms result : List (String × Node)} {entry : Entry}
    (h : DistinctNodes ms) (hvalue : entry.value.Distinct) (hresult : addEntry ms entry = some result) :
    DistinctNodes result := by
  refine h.change (fun o inner changed hinner hchanged => ?_) hresult
  obtain ⟨-, -, hchanged⟩ := Option.bind_eq_some_iff.mp hchanged
  obtain ⟨-, -, hchanged⟩ := Option.bind_eq_some_iff.mp hchanged
  cases hchanged
  exact hinner.setMember (.value hvalue)

/-- A header makes a table without members, or takes over the one that other headers have passed. -/
theorem DistinctNodes.openTable {path : List String} {name : String} {ms result : List (String × Node)}
    (h : DistinctNodes ms) (hresult : openTable path name ms = some result) : DistinctNodes result := by
  refine h.change (fun o inner changed hinner hchanged => ?_) hresult
  split at hchanged
  · cases hchanged
    exact hinner.setMember (.table List.nodup_nil (List.forall_mem_nil _))
  · next deeper hlookup =>
    cases hchanged
    have hdeeper := hinner.of_lookup hlookup
    exact hinner.setMember (.table hdeeper.names hdeeper.members)
  · cases hchanged

/-- The header of a list of tables puts the list in its own place, one table longer. -/
theorem DistinctNodes.openNext {path : List String} {name : String} {ms result : List (String × Node)}
    (h : DistinctNodes ms) (hresult : openNext path name ms = some result) : DistinctNodes result := by
  refine h.change (fun o inner changed hinner hchanged => ?_) hresult
  split at hchanged
  · cases hchanged
    exact hinner.setMember .tables
  · cases hchanged
    exact hinner.setMember .tables
  · cases hchanged

theorem DistinctNodes.addUnder {header : List String} {ms result : List (String × Node)} {entry : Entry}
    (h : DistinctNodes ms) (hvalue : entry.value.Distinct)
    (hresult : addUnder header ms entry = some result) : DistinctNodes result :=
  h.change (fun _ _ _ hinner hchanged => hinner.addEntry hvalue hchanged) hresult

/-- A value that holds no other values is no table but for a moment, which has no members. -/
theorem yields_scalar : Yields scalar Distinct := by
  have hmoment : Yields (do moment; return .table [] : Scan Setting) Distinct :=
    .after fun _ => .pure .empty
  have hreal : Yields real Distinct := by
    refine .orElse ?_ (.after fun _ => .after fun _ => .pure (.other rfl))
    exact .after fun _ => .after fun _ => .after fun _ => .after fun _ => .pure (.other rfl)
  have hbounded (n : Int) : Yields (bounded n) Distinct := .after fun _ => .pure (.other rfl)
  have hbased (mark : Char) (base : Nat) : Yields (basedInteger mark base) Distinct :=
    .after fun _ => .after fun _ => hbounded _
  have hinteger : Yields integer Distinct :=
    .orElse (hbased 'x' 16) (.orElse (hbased 'o' 8) (.orElse (hbased 'b' 2)
      (.after fun _ => .after fun _ => hbounded _)))
  -- the next character tells the kinds apart
  refine .after fun next => ?_
  split
  · exact .after fun _ => .pure (.other rfl)
  · exact .after fun _ => .pure (.other rfl)
  · exact .after fun _ => .pure (.other rfl)
  · exact .after fun _ => .pure (.other rfl)
  · exact .orElse hmoment (.orElse hreal hinteger)

theorem yields_list (inner : Scan Setting) : Yields (list inner) Distinct := by
  refine .after fun _ => .after fun items => ?_
  split
  · exact .after fun _ => .after fun _ => .after fun _ => .pure (.other rfl)
  · exact .after fun _ => .after fun _ => .pure (.other rfl)

theorem yields_entry {inner : Scan Setting} (h : Yields inner Distinct) :
    Yields (entry inner) fun e => e.value.Distinct :=
  .after fun _ => .after fun _ => .after fun _ => h.bind fun _ hv => .pure hv

/-- The entries in braces are added one after the other. -/
theorem distinct_entries {entries : List Entry} {ms result : List (String × Node)}
    (h : ∀ e ∈ entries, e.value.Distinct) (hms : DistinctNodes ms)
    (hresult : entries.foldlM addEntry ms = some result) : DistinctNodes result :=
  foldlM_invariant (fun _ _ e he hms hadded => hms.addEntry (h e he) hadded) hms hresult

/-- A table in braces is refused if its entries do not fit together. -/
theorem yields_braces {inner : Scan Setting} (h : Yields inner Distinct) :
    Yields (braces inner) Distinct := by
  have hentry : Yields (do let e ← entry inner; indent; return e) fun e => e.value.Distinct :=
    (yields_entry h).bind fun _ he => .after fun _ => .pure he
  refine .after fun _ => (Yields.separated hentry).bind fun entries hentries => .after fun _ =>
    .after fun _ => ?_
  split
  · next ms hms => exact .pure (distinct_entries hentries .empty hms).settings
  · exact .failure

/-- Values of settings files have distinct names, however deep they are nested. -/
theorem yields_value (depth : Nat) : Yields (value depth) Distinct := by
  induction depth with
  | zero => exact yields_scalar
  | succ depth ih => exact .orElse (yields_list _) (.orElse (yields_braces ih) yields_scalar)

/-! ## Settings files -/

/-- What an entry of a line gives has distinct names. -/
def Line.Distinct : Line → Prop
  | .entry e => e.value.Distinct
  | _ => True

theorem yields_line : Yields line Line.Distinct := by
  refine .after fun next => ?_
  split
  · exact .after fun _ => .pure trivial
  · exact .after fun _ => .pure trivial
  · exact .after fun _ => .pure trivial
  · exact .orElse (.after fun _ => .pure trivial) (.after fun _ => .pure trivial)
  · exact (yields_entry (yields_value _)).bind fun _ he => .after fun _ => .pure he

theorem yields_lines : Yields lines fun ls => ∀ l ∈ ls, l.Distinct :=
  .after fun _ => .after fun _ => Yields.many (yields_line.bind fun _ hl => .after fun _ => .pure hl)

/-- Each line keeps names distinct. -/
theorem distinct_add {p result : Progress} {l : Line} (hp : DistinctNodes p.members) (hl : l.Distinct)
    (hresult : p.add l = some result) : DistinctNodes result.members := by
  cases l with
  | blank =>
    cases hresult
    exact hp
  | entry e =>
    obtain ⟨ms, hms, hresult⟩ := Option.bind_eq_some_iff.mp hresult
    cases hresult
    exact hp.addUnder hl hms
  | header path name =>
    obtain ⟨ms, hms, hresult⟩ := Option.bind_eq_some_iff.mp hresult
    cases hresult
    exact hp.openTable hms
  | nextHeader path name =>
    obtain ⟨ms, hms, hresult⟩ := Option.bind_eq_some_iff.mp hresult
    cases hresult
    exact hp.openNext hms

/-- All lines together make tables with distinct names. -/
theorem distinct_lines {ls : List Line} {p result : Progress} (h : ∀ l ∈ ls, l.Distinct)
    (hp : DistinctNodes p.members) (hresult : ls.foldlM Progress.add p = some result) :
    DistinctNodes result.members :=
  foldlM_invariant (P := fun p => DistinctNodes p.members)
    (fun _ _ l hl hp hadded => distinct_add hp (h l hl) hadded) hp hresult

end SettingsFile

end AssetRegister
