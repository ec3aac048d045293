import AssetRegister.Proofs.Condition.Naming
import Mathlib.Data.List.DropRight

/-!
# Fields that resolve

The names in a field are the pieces between its separators, and empty pieces at its end do not count.
`PathStyle.Names` says so without the functions that cut a field up. A field resolves exactly if its names
are relations that can be followed one after another, and last an attribute of the entity that is reached.
No attribute has an empty name, so a field with a separator at its start, or with two in a row before
its end, never resolves.

Main statement: `Path.resolve_iff_follows`.
-/

namespace AssetRegister

/-! ## The names in a field -/

/-- The names in a field: the pieces between its separators. Empty pieces at the end are left out, up to
the first piece, which always stays. -/
structure PathStyle.Names (style : PathStyle) (field : String) (names : List String) : Prop where
  pieces : ∃ k, field.toList.splitOn style.separator =
    (names ++ List.replicate k "").map String.toList
  ne_nil : names ≠ []
  trimmed : names.length = 1 ∨ names.getLast? ≠ some ""

/-- Each separator at the end adds an empty piece there. -/
theorem splitOn_append_replicate {α : Type} [BEq α] [LawfulBEq α] (sep : α) (s : List α) (n : ℕ) :
    (s ++ List.replicate n sep).splitOn sep = s.splitOn sep ++ List.replicate n [] := by
  induction n with
  | zero => simp
  | succ n ih =>
    rw [List.replicate_succ', ← List.append_assoc, List.splitOn_append_cons_self, ih,
      List.splitOn_nil, List.append_assoc, ← List.replicate_succ']

/-- Only separators have nothing but empty pieces between them. -/
theorem exists_ne_nil_of_splitOn {α : Type} [BEq α] [LawfulBEq α] {sep c : α} {s : List α}
    (hc : c ∈ s) (hsep : c ≠ sep) : ∃ piece ∈ s.splitOn sep, piece ≠ [] := by
  by_contra h
  push Not at h
  obtain ⟨first, rest, hpieces⟩ := List.exists_cons_of_ne_nil (List.splitOn_ne_nil sep s)
  have hempty : s.splitOn sep = List.replicate (rest.length + 1) [] := by
    rw [List.eq_replicate_iff, hpieces]
    exact ⟨rfl, hpieces ▸ h⟩
  -- so many separators are cut into the same pieces, and pieces can be joined again
  have hseparators : (List.replicate rest.length sep).splitOn sep = s.splitOn sep := by
    have hcut := splitOn_append_replicate sep [] rest.length
    rw [List.nil_append, List.splitOn_nil] at hcut
    rw [hcut, hempty]
    rfl
  have hs : s = List.replicate rest.length sep := by
    have hjoin : [sep].intercalate ((List.replicate rest.length sep).splitOn sep) =
        List.replicate rest.length sep := List.intercalate_splitOn sep
    rw [hseparators, List.intercalate_splitOn] at hjoin
    exact hjoin
  rw [hs] at hc
  exact hsep (List.eq_of_mem_replicate hc)

namespace Path

/-- Empty names at the end are dropped, and nothing else if there are none. -/
theorem dropEmptyEnd_append_replicate {names : List String}
    (htrimmed : names.length = 1 ∨ names.getLast? ≠ some "") (hne : names ≠ []) (k : ℕ) :
    dropEmptyEnd (names ++ List.replicate k "") = names := by
  obtain ⟨first, rest, rfl⟩ := List.exists_cons_of_ne_nil hne
  have hrest : ∀ hrest : rest ≠ [], ¬(rest.getLast hrest == "") = true := by
    intro hrest
    rw [beq_iff_eq]
    rcases htrimmed with hone | hlast
    · exact absurd (List.length_eq_zero_iff.mp (Nat.succ_inj.mp hone)) hrest
    · rwa [List.getLast?_cons_of_ne_nil hrest, List.getLast?_eq_some_getLast hrest, Ne,
        Option.some.injEq] at hlast
  -- the first name stays whatever it is, so only the rest has to end in a name
  show first :: (rest ++ List.replicate k "").rdropWhile (· == "") = first :: rest
  induction k with
  | zero => rw [List.replicate_zero, List.append_nil, List.rdropWhile_eq_self_iff.mpr hrest]
  | succ k ih =>
    rw [List.replicate_succ', ← List.append_assoc, List.rdropWhile_concat_pos (· == "") _ "" rfl]
    exact ih

/-- What is dropped is empty, and what is left has no empty name at its end, the first apart. -/
theorem dropEmptyEnd_spec {pieces : List String} (hne : pieces ≠ []) :
    (∃ k, pieces = dropEmptyEnd pieces ++ List.replicate k "") ∧ dropEmptyEnd pieces ≠ [] ∧
      ((dropEmptyEnd pieces).length = 1 ∨ (dropEmptyEnd pieces).getLast? ≠ some "") := by
  -- the first name stays even if it is empty
  obtain ⟨first, rest, rfl⟩ := List.exists_cons_of_ne_nil hne
  have hdrop : dropEmptyEnd (first :: rest) = first :: rest.rdropWhile (· == "") := rfl
  rw [hdrop]
  refine ⟨⟨(rest.rtakeWhile (· == "")).length, ?_⟩, List.cons_ne_nil _ _, ?_⟩
  · have hempty : rest.rtakeWhile (· == "") =
        List.replicate (rest.rtakeWhile (· == "")).length "" :=
      List.eq_replicate_of_mem fun s hs => by simpa using List.mem_rtakeWhile_imp hs
    rw [List.cons_append, ← hempty, List.rdropWhile_append_rtakeWhile]
  · by_cases hrest : rest.rdropWhile (· == "") = []
    · exact .inl (by rw [hrest]; rfl)
    · refine .inr ?_
      have hlast := List.rdropWhile_last_not _ _ hrest
      rw [List.getLast?_cons_of_ne_nil hrest, List.getLast?_eq_some_getLast hrest]
      simpa using hlast

/-- The function that cuts a field up finds its names. -/
theorem names_iff_segments {style : PathStyle} {field : String} {names : List String} :
    style.Names field names ↔ segments style field = names := by
  unfold segments
  rw [splitOn_eq]
  constructor
  · rintro ⟨⟨k, hpieces⟩, hne, htrimmed⟩
    rw [hpieces, List.map_map]
    simpa [Function.comp_def] using dropEmptyEnd_append_replicate htrimmed hne k
  · rintro rfl
    have hsome : (field.toList.splitOn style.separator).map String.ofList ≠ [] := by simp
    obtain ⟨⟨k, hpieces⟩, hne, htrimmed⟩ := dropEmptyEnd_spec hsome
    refine ⟨⟨k, ?_⟩, hne, htrimmed⟩
    rw [← hpieces, List.map_map]
    simp [Function.comp_def]

/-- So separators at the end make no difference to the names. -/
theorem segments_append_separators (style : PathStyle) (field : String) (n : ℕ) :
    segments style (field ++ String.ofList (List.replicate n style.separator)) =
      segments style field := by
  obtain ⟨⟨k, hpieces⟩, hne, htrimmed⟩ :=
    names_iff_segments.mpr (rfl : segments style field = segments style field)
  refine names_iff_segments.mp ⟨⟨k + n, ?_⟩, hne, htrimmed⟩
  rw [String.toList_append, String.toList_ofList, splitOn_append_replicate, hpieces,
    ← List.replicate_append_replicate]
  simp only [List.map_append, List.map_replicate, String.toList_empty, List.append_assoc]

end Path

/-! ## Names that are followed -/

namespace Follows

variable {e last : Entity} {names : List String} {hops : List Hop}

/-- There is one hop for each name that is followed. -/
theorem length_hops (h : Follows e names hops last) : hops.length = names.length := by
  induction h with
  | nil => rfl
  | cons _ _ _ ih => exact congrArg (· + 1) ih

/-- Every hop starts where the one before it ends. -/
theorem linked (h : Follows e names hops last) :
    e :: hops.map Hop.target = hops.map Hop.owner ++ [last] := by
  induction h with
  | nil => rfl
  | cons _ _ _ ih => exact congrArg (_ :: ·) ih

/-- Every name that is followed is an attribute of some entity. -/
theorem attribute?_ne_none (h : Follows e names hops last) :
    ∀ name ∈ names, ∃ owner : Entity, owner.attribute? name ≠ none := by
  induction h with
  | nil => exact nofun
  | @cons owner _ _ _ _ _ _ hname _ _ ih =>
    refine List.forall_mem_cons.mpr ⟨⟨owner, ?_⟩, ih⟩
    rw [hname]
    exact Option.some_ne_none _

end Follows

namespace Entity

theorem related?_eq_some {e target : Entity} {name : String} :
    e.related? name = some target ↔
      ∃ a, e.attribute? name = some a ∧ a.type = .relation target := by
  unfold related?
  rw [Option.bind_eq_some_iff]
  refine exists_congr fun a => and_congr_right' ?_
  cases a.type <;> simp [AttributeType.target?]

/-- The entity that is reached is the one to which the names can be followed. -/
theorem along?_eq_some {e last : Entity} {names : List String} :
    e.along? names = some last ↔ ∃ hops, Follows e names hops last := by
  induction names generalizing e with
  | nil =>
    constructor
    · rintro ⟨⟩
      exact ⟨[], .nil _⟩
    · rintro ⟨_, ⟨⟩⟩
      rfl
  | cons name names ih =>
    show (e.related? name).bind (·.along? names) = some last ↔ _
    rw [Option.bind_eq_some_iff]
    constructor
    · rintro ⟨target, htarget, hlast⟩
      obtain ⟨a, ha, htype⟩ := related?_eq_some.mp htarget
      obtain ⟨hops, hrest⟩ := ih.mp hlast
      exact ⟨_, .cons ha htype hrest⟩
    · rintro ⟨_, hfollows⟩
      cases hfollows with
      | cons ha htype hrest => exact ⟨_, related?_eq_some.mpr ⟨_, ha, htype⟩, ih.mpr ⟨_, hrest⟩⟩

theorem attribute?_empty (e : Entity) : e.attribute? "" = none := by
  cases e <;> decide

end Entity

namespace Path

/-- A field with an empty name in it stops somewhere. -/
theorem exists_error_of_empty {e : Entity} {style : PathStyle} {field : String}
    (h : "" ∈ segments style field) : ∃ fault, resolve e style field = .error fault := by
  cases hp : resolve e style field with
  | error fault => exact ⟨fault, rfl⟩
  | ok p =>
    obtain ⟨before, leaf, a, hnames, hfollows, ha, -⟩ := follow_eq_ok.mp hp
    rw [hnames, List.mem_append, List.mem_singleton] at h
    rcases h with hbefore | rfl
    · obtain ⟨owner, howner⟩ := hfollows.attribute?_ne_none "" hbefore
      exact absurd owner.attribute?_empty howner
    · cases ha.symm.trans p.owner.attribute?_empty

/-- A separator at the start leaves an empty name in front. -/
theorem head_segments_of_separator (style : PathStyle) (rest : String) :
    ∃ names, segments style (String.singleton style.separator ++ rest) = "" :: names := by
  unfold segments
  rw [splitOn_eq, String.toList_append, String.toList_singleton,
    List.singleton_append, ← List.nil_append (_ :: _), List.splitOn_append_cons_self]
  exact ⟨_, rfl⟩

/-- Two separators in a row leave an empty name, if a character follows that is none. -/
theorem empty_mem_segments (style : PathStyle) {a b : String} {c : Char} (hc : c ∈ b.toList)
    (hsep : c ≠ style.separator) :
    "" ∈ segments style
      (a ++ String.singleton style.separator ++ String.singleton style.separator ++ b) := by
  obtain ⟨⟨k, hpieces⟩, -, -⟩ := names_iff_segments.mpr (rfl : segments style
    (a ++ String.singleton style.separator ++ String.singleton style.separator ++ b) = _)
  generalize segments style _ = names at hpieces
  obtain ⟨piece, hpiece, hpresent⟩ := exists_ne_nil_of_splitOn hc hsep
  -- the empty piece between the two separators is not at the end
  have hcut : a.toList.splitOn style.separator ++ [] :: b.toList.splitOn style.separator =
      names.map String.toList ++ List.replicate k [] := by
    have hdoubled : (style.separator :: b.toList).splitOn style.separator =
        [] :: b.toList.splitOn style.separator :=
      List.splitOn_append_cons_self [] b.toList
    simpa [List.splitOn_append_cons_self, hdoubled] using hpieces
  have hend : ∀ n before, List.replicate n [] ≠
      before ++ [] :: b.toList.splitOn style.separator := by
    intro n before hn
    have hmem : piece ∈ List.replicate n [] := by
      rw [hn]
      simp [hpiece]
    exact hpresent (List.eq_of_mem_replicate hmem)
  -- so it comes before the place from which the trailing empty pieces are dropped
  obtain ⟨rest, hnames, hrest⟩ | ⟨rest, -, hrest⟩ := List.append_eq_append_iff.mp hcut
  · cases rest with
    | nil => exact absurd hrest.symm (hend k [])
    | cons first rest =>
      obtain rfl := (List.cons.inj hrest).1
      have hempty : [] ∈ names.map String.toList := by
        rw [hnames]
        simp
      obtain ⟨name, hname, hnil⟩ := List.mem_map.mp hempty
      rwa [String.toList_eq_nil_iff.mp hnil] at hname
  · exact absurd hrest (hend k rest)

/-- **What resolves.** A field has its names and no others, and for these:

* it resolves to a path exactly if all names but the last are relations, one after another along the hops
  of the path, and the last is an attribute of the entity reached, with the path's column and kind;
* such a path has one hop less than there are names, every hop starts where the one before it ends, from
  the entity itself to the owner of the attribute, and a relation at the end is compared as the 64-bit
  key that it is;
* otherwise the fault is the leftmost name that is no attribute of the entity reached, or is no relation
  although names follow it, with this entity.

Separators at the end make no difference. One at the start never resolves, nor do two in a row with another
character somewhere after them. -/
theorem resolve_iff_follows (e : Entity) (style : PathStyle) (field : String) :
    ∃ names, style.Names field names ∧ (∀ others, style.Names field others → others = names) ∧
      (∀ p, resolve e style field = .ok p ↔ ∃ before leaf a, names = before ++ [leaf] ∧
        Follows e before p.hops p.owner ∧ p.owner.attribute? leaf = some a ∧
        p.column = a.column ∧ p.kind = a.type.kind) ∧
      (∀ p, resolve e style field = .ok p →
        p.depth + 1 = names.length ∧
        e :: p.hops.map Hop.target = p.hops.map Hop.owner ++ [p.owner] ∧
        ∀ before leaf a target, names = before ++ [leaf] → p.owner.attribute? leaf = some a →
          a.type = .relation target → p.column = a.column ∧ p.kind = .numeric .bits64) ∧
      (∀ fault, resolve e style field = .error fault ↔ ∃ before after hops,
        names = before ++ fault.segment :: after ∧ Follows e before hops fault.entity ∧
        fault.entity.Stops fault.segment after) ∧
      (∀ n, resolve e style (field ++ String.ofList (List.replicate n style.separator)) =
        resolve e style field) ∧
      (∀ rest, field = String.singleton style.separator ++ rest →
        resolve e style field = .error ⟨"", e⟩) ∧
      ∀ a b : String, (∃ c ∈ b.toList, c ≠ style.separator) →
        field = a ++ String.singleton style.separator ++ String.singleton style.separator ++ b →
        ∃ fault, resolve e style field = .error fault := by
  -- the function that cuts a field up gives the names, and everything else is said of these
  refine ⟨segments style field, names_iff_segments.mpr rfl,
    fun others h => (names_iff_segments.mp h).symm, fun p => follow_eq_ok, ?_, ?_, ?_, ?_, ?_⟩
  · intro p hp
    obtain ⟨before, leaf, a, hnames, hfollows, ha, hcolumn, hkind⟩ := follow_eq_ok.mp hp
    refine ⟨?_, hfollows.linked, ?_⟩
    · rw [hnames, List.length_append, ← hfollows.length_hops]
      rfl
    · intro before' leaf' a' target hnames' ha' htype
      -- names are cut before the last one in one way
      obtain ⟨rfl, hleaf⟩ := List.append_inj' (hnames.symm.trans hnames') rfl
      cases hleaf
      cases ha.symm.trans ha'
      exact ⟨hcolumn, hkind.trans (by rw [htype]; rfl)⟩
  · intro fault
    rw [resolve_eq_error]
    simp only [Entity.along?_eq_some]
    constructor
    · rintro ⟨before, after, hnames, ⟨hops, hfollows⟩, hstops⟩
      exact ⟨before, after, hops, hnames, hfollows, hstops⟩
    · rintro ⟨before, after, hops, hnames, hfollows, hstops⟩
      exact ⟨before, after, hnames, ⟨hops, hfollows⟩, hstops⟩
  · intro n
    unfold resolve
    rw [segments_append_separators]
  · rintro rest rfl
    obtain ⟨names, hnames⟩ := head_segments_of_separator style rest
    exact resolve_eq_error.mpr ⟨[], names, hnames, rfl, .inl e.attribute?_empty⟩
  · rintro a b ⟨c, hc, hsep⟩ rfl
    exact exists_error_of_empty (empty_mem_segments style hc hsep)

/-- The owner of a file's asset, with separators after, inside and before its names. -/
theorem resolve_assetOwner :
    (∃ p, resolve .assetFiles .underscored "asset_owner___" = .ok p ∧ p.depth + 1 = 2 ∧
      p.kind = .numeric .bits64) ∧
    (∃ fault, resolve .assetFiles .underscored "asset__owner" = .error fault) ∧
    resolve .assetFiles .underscored "_asset_owner" = .error ⟨"", .assetFiles⟩ := by
  refine ⟨?_, ?_, ?_⟩
  · obtain ⟨names, hnames, -, hok, hlinked, -, htrimmed, -⟩ :=
      resolve_iff_follows .assetFiles .underscored "asset_owner"
    obtain rfl := names_iff_segments.mp hnames
    have hresolve : resolve .assetFiles .underscored "asset_owner" =
        .ok ⟨[⟨.assetFiles, "asset_id", .assets⟩], .assets, "owner_user_id", .numeric .bits64⟩ := by
      decide
    obtain ⟨before, leaf, a, hnames, -, ha, -⟩ := (hok _).mp hresolve
    obtain ⟨hdepth, -, hrelation⟩ := hlinked _ hresolve
    obtain ⟨-, hleaf⟩ := List.append_inj' ((by decide : ["asset"] ++ ["owner"] = _).trans hnames) rfl
    cases hleaf
    cases ha
    exact ⟨_, (htrimmed 3).trans hresolve, hdepth,
      (hrelation _ _ _ .users hnames rfl rfl).2⟩
  · obtain ⟨-, -, -, -, -, -, -, -, hdoubled⟩ :=
      resolve_iff_follows .assetFiles .underscored "asset__owner"
    exact hdoubled "asset" "owner" ⟨'o', by decide, by decide⟩ (by decide)
  · obtain ⟨-, -, -, -, -, -, -, hleading, -⟩ :=
      resolve_iff_follows .assetFiles .underscored "_asset_owner"
    exact hleading "asset_owner" (by decide)

end Path

end AssetRegister
