import AssetRegister.Proofs.Condition.Built
import AssetRegister.Proofs.Text.Integer

/-!
# Two ways to name an attribute

A filter writes the names of a field with underscores between them, and a condition that is put on a
request writes them with points. As long as no name contains either, both fields are the same chain of
names, so they resolve alike. A comparison by equality and a test of equality with the operand that the
comparison's word stands for then are one condition, with the same query text and the same operands.

Main statement: `Path.resolve_joined`.
-/

namespace AssetRegister

open Outcome

/-! ## Chains of names and fields -/

namespace Path

/-- The field with the given names. -/
def joined (style : PathStyle) (names : List String) : String :=
  String.intercalate (String.singleton style.separator) names

/-- The splitting of fields is that of the library. -/
theorem splitOn_eq (sep : Char) (s : List Char) : splitOn sep s = s.splitOn sep := by
  induction s with
  | nil => rfl
  | cons c s ih =>
    have hcons : (c :: s).splitOn sep =
        if (c == sep) = true then [] :: s.splitOn sep else (s.splitOn sep).modifyHead (c :: ·) :=
      List.splitOnP_cons_eq_if_modifyHead c s
    obtain ⟨part, parts, hparts⟩ := List.exists_cons_of_ne_nil (splitOn_ne_nil sep s)
    rw [hcons, ← ih, splitOn, hparts]
    simp

/-- Fields in both styles have the same names in them, if no name contains a separator. -/
theorem segments_joined (style : PathStyle) {names : List String} (hne : names ≠ [])
    (h : ∀ s ∈ names, style.separator ∉ s.toList) :
    segments style (joined style names) = dropEmptyEnd names := by
  have hchars : (joined style names).toList = [style.separator].intercalate (names.map String.toList) := by
    unfold joined
    rw [String.toList_intercalate, String.toList_singleton]
  have hparts : ∀ part ∈ names.map String.toList, style.separator ∉ part := by
    intro part hpart
    obtain ⟨s, hs, rfl⟩ := List.mem_map.mp hpart
    exact h s hs
  have hmap : (names.map String.toList).map String.ofList = names := by
    rw [List.map_map]
    simp [Function.comp_def]
  -- joining and splitting undo each other, as no name has the separator
  unfold segments
  rw [hchars, splitOn_eq, List.splitOn_intercalate _ hparts (by simpa using hne), hmap]

/-- An attribute's own name is a field in itself. -/
theorem segments_of_notMem (style : PathStyle) {name : String} (h : style.separator ∉ name.toList) :
    segments style name = [name] := by
  have hjoined : joined style [name] = name := String.intercalate_singleton
  rw [← hjoined, segments_joined style (List.cons_ne_nil _ _) (List.forall_mem_singleton.mpr h)]
  rfl

end Path

/-! ## Words and the operands that they stand for -/

/-- The operand that a word stands for: the integer that it denotes if the attribute is numeric, and
otherwise the word itself. -/
inductive Kind.Reads : Kind → String → Operand → Prop where
  | integer {w : Width} {s : String} {n : Int} (h : Text.Denotes s.toList n) :
      Reads (.numeric w) s (.integer n)
  | text {s : String} : Reads .text s (.text s)

/-- A word stands for one operand. -/
theorem Kind.Reads.unique {kind : Kind} {s : String} {v v' : Operand} (h : kind.Reads s v)
    (h' : kind.Reads s v') : v = v' := by
  cases h with
  | integer hn =>
    cases h' with
    | integer hn' => rw [hn.unique hn']
  | text =>
    cases h'
    rfl

/-- A comparison by equality that compiles is with the operand that its word stands for. -/
theorem Test.exists_reads_of_compile {kind : Kind} {s : String} {test : Test}
    (h : Test.compile kind (.comparison .eq) s = .ok test) :
    ∃ v, kind.Reads s v ∧ test = .compare .eq v := by
  cases kind with
  | numeric w =>
    unfold Test.compile at h
    dsimp only at h
    split at h
    · next n hn =>
      -- the reader accepts numerals only
      have hdenotes := (Text.readInteger_eq_ok.mp hn).1
      cases h
      exact ⟨.integer n, .integer hdenotes, rfl⟩
    · cases h
  | text =>
    cases h
    exact ⟨.text s, .text, rfl⟩

/-- A comparison by equality that compiles is a condition on the path of its field. -/
theorem Condition.of_equality {e : Entity} {field s : String} {p : Predicate}
    (h : Predicate.ofTokens e [⟨field, .comparison .eq, s⟩] = .ok p) :
    ∃ path v, Path.resolve e .underscored field = .ok path ∧ path.kind.Reads s v ∧
      p = ⟨[⟨path, .compare .eq v⟩]⟩ := by
  obtain ⟨cs⟩ := p
  obtain ⟨c, _, hc, hrest, rfl⟩ := List.forall₂_cons_left_iff.mp (Predicate.ofTokens_eq_ok.mp h)
  obtain rfl := List.forall₂_nil_left_iff.mp hrest
  unfold Condition.ofToken at hc
  split at hc
  · next path hpath =>
    obtain ⟨test, htest, rfl⟩ := map_eq_ok.mp hc
    obtain ⟨v, hv, rfl⟩ := Test.exists_reads_of_compile htest
    exact ⟨path, v, hpath, hv, rfl⟩
  · cases hc

namespace Path

/-- **Both ways to name an attribute agree.** For names without underscores and points:

* the field with underscores and the field with points resolve to the same path, or stop at the same
  name;
* if a comparison of the former by equality compiles, its word stands for one operand, and the test of
  equality of the latter with that operand is the same predicate, with the same query text and the same
  operands. -/
theorem resolve_joined (e : Entity) (names : List String) (hne : names ≠ [])
    (hnames : ∀ s ∈ names, '_' ∉ s.toList ∧ '.' ∉ s.toList) :
    resolve e .underscored (String.intercalate "_" names) =
      resolve e .dotted (String.intercalate "." names) ∧
    ∀ word p,
      Predicate.ofTokens e [⟨String.intercalate "_" names, .comparison .eq, word⟩] = .ok p →
      ∃ path, resolve e .dotted (String.intercalate "." names) = .ok path ∧
        (∃ v, path.kind.Reads word v) ∧
        ∀ v, path.kind.Reads word v → ∃ c,
          Condition.equals e (String.intercalate "." names) v = .ok c ∧
          p = ⟨[c]⟩ ∧
          p.queryText = (Predicate.mk [c]).queryText ∧
          p.operands = (Predicate.mk [c]).operands := by
  have hsame : resolve e .underscored (joined .underscored names) =
      resolve e .dotted (joined .dotted names) := by
    have hunderscored := segments_joined .underscored hne fun s hs => (hnames s hs).1
    have hdotted := segments_joined .dotted hne fun s hs => (hnames s hs).2
    unfold resolve
    rw [hunderscored, hdotted]
  refine ⟨hsame, fun word p hp => ?_⟩
  obtain ⟨path, v, hpath, hv, rfl⟩ := Condition.of_equality hp
  have hdotted : resolve e .dotted (String.intercalate "." names) = .ok path := hsame.symm.trans hpath
  refine ⟨path, hdotted, ⟨v, hv⟩, fun v' hv' => ?_⟩
  -- whichever operand is asked about, it is the one that was compiled
  obtain rfl := hv.unique hv'
  refine ⟨_, ?_, rfl, rfl, rfl⟩
  unfold Condition.equals
  rw [hdotted]
  rfl

/-- The version of a file's asset is compared with the integer that a word denotes, and an empty name on
the way is reported in both styles. -/
theorem resolve_joined_asset :
    (∃ p c, Predicate.ofTokens .assetFiles [⟨"asset_version", .comparison .eq, "+007"⟩] = .ok p ∧
      Condition.equals .assetFiles "asset.version" (.integer 7) = .ok c ∧
      p.queryText = (Predicate.mk [c]).queryText ∧ p.operands = [.integer 7]) ∧
    resolve .assets .underscored "owner__id" = resolve .assets .dotted "owner..id" := by
  constructor
  · have hp : ∃ p, Predicate.ofTokens .assetFiles [⟨"asset_version", .comparison .eq, "+007"⟩] =
        .ok p := ⟨_, rfl⟩
    obtain ⟨p, hp⟩ := hp
    have hdigits : Text.Digits ['0', '0', '7'] :=
      ⟨List.cons_ne_nil _ _, List.all_eq_true.mp rfl⟩
    have hseven : Text.Denotes "+007".toList 7 := .plus hdigits
    obtain ⟨path, hpath, -, hall⟩ :=
      (resolve_joined .assetFiles ["asset", "version"] (by decide) (by decide)).2 "+007" p hp
    cases hpath
    obtain ⟨c, hc, rfl, htext, hoperands⟩ := hall (.integer 7) (.integer hseven)
    refine ⟨_, c, hp, hc, htext, ?_⟩
    cases hc
    rfl
  · exact (resolve_joined .assets ["owner", "", "id"] (by decide) (by decide)).1

end Path

end AssetRegister
