import AssetRegister.Proofs.Condition.Nested
import AssetRegister.Proofs.Text.Lower

/-!
# Substring tests

The two substring tests of a text attribute ask whether the text holds a part that matches the value,
wildcards in the value included. The one asks it of the texts as they are, the other of their lowercases.
The matcher reads three characters alike, so a part need not be the value even where the value has no
wildcard (`Condition.like_stray`); otherwise the tests find what they are asked for.

Main statement: `Condition.containment`.
-/

namespace AssetRegister

open Wildcard

/-- A test that holds of a text exactly if it finds a value in it. -/
structure Finds (holds : Prop) (v s : List Char) : Prop where
  /-- Some part matches, with the characters that patterns confuse taken for one another. -/
  part : holds ↔ MatchesIn Alike v s
  /-- Among other characters every one stands for itself. -/
  exact_part : (∀ c ∈ v ++ s, c ≠ '\uFFFE' ∧ c ≠ '\uFFFF') → (holds ↔ MatchesIn Eq v s)
  /-- Without wildcards a part is met character by character. -/
  plain : '%' ∉ v → '_' ∉ v → (holds ↔ ∃ m, m <:+: s ∧ List.Forall₂ Alike v m)
  exact_plain : '%' ∉ v → '_' ∉ v → (∀ c ∈ v ++ s, c ≠ '\uFFFE' ∧ c ≠ '\uFFFF') →
    (holds ↔ v <:+: s)
  empty : v = [] → holds

/-- The other ways to say it follow from the matching part. -/
theorem Finds.of_part {holds : Prop} {v s : List Char} (h : holds ↔ MatchesIn Alike v s) :
    Finds holds v s where
  part := h
  exact_part hexact := h.trans (matchesIn_alike_iff hexact)
  plain hrun hone := h.trans (matchesIn_iff_forall₂ hrun hone)
  exact_plain hrun hone hexact :=
    h.trans ((matchesIn_alike_iff hexact).trans (matchesIn_eq_iff hrun hone))
  empty hv := h.mpr (hv ▸ matchesIn_nil s)

namespace Condition

/-! ## The compiled tests -/

theorem compile_like {p : Path} (h : p.kind = .text) (v : String) :
    compile p .like v = .ok ⟨p, .like (Test.containing v)⟩ := by
  unfold compile
  rw [h]
  rfl

/-- The operand of the test that ignores letter case is lowered when it is compiled, and the content when
it is tested. -/
theorem compile_ilike {p : Path} (h : p.kind = .text) (v : String) :
    compile p .ilike v = .ok ⟨p, .ilike (Test.containing (Text.lower v))⟩ := by
  unfold compile
  rw [h]
  rfl

/-- Between two wildcards a value is met by some part of the text. -/
theorem isLike_containing {v s : String} (hv : '\x00' ∉ v.toList) (hs : '\x00' ∉ s.toList) :
    isLike (Test.containing v) (CodePoint.ofText s) = true ↔ MatchesIn Alike v.toList s.toList := by
  have hchars : (Test.containing v).toList = '%' :: (v.toList ++ ['%']) := by
    unfold Test.containing
    rw [String.toList_append, String.toList_append]
    rfl
  have hnull : '\x00' ∉ (Test.containing v).toList := by
    simpa [hchars] using hv
  rw [isLike_iff hnull hs, hchars, matches_containing]

/-- The test of a row whose content is a text. -/
theorem evalLeaf_like {p : Path} {v s : String} {t : Row} (ht : t.get p.column = .text s)
    (hv : '\x00' ∉ v.toList) (hs : '\x00' ∉ s.toList) :
    evalLeaf ⟨p, .like (Test.containing v)⟩ t = some true ↔ MatchesIn Alike v.toList s.toList := by
  rw [← isLike_containing hv hs, ← Option.some.injEq (isLike _ _) true]
  unfold evalLeaf
  dsimp only
  rw [ht]
  rfl

theorem evalLeaf_ilike {p : Path} {v s : String} {t : Row} (ht : t.get p.column = .text s)
    (hv : '\x00' ∉ v.toList) (hs : '\x00' ∉ s.toList) :
    evalLeaf ⟨p, .ilike (Test.containing (Text.lower v))⟩ t = some true ↔
      MatchesIn Alike (Text.lower v).toList (Text.lower s).toList := by
  -- no character has a null in its lowercase
  have hnull : ∀ {s : String}, '\x00' ∉ s.toList → '\x00' ∉ (Text.lower s).toList :=
    Text.notMem_lower (by decide)
  rw [← isLike_containing (hnull hv) (hnull hs), ← Option.some.injEq (isLike _ _) true]
  unfold evalLeaf
  dsimp only
  rw [ht]
  rfl

/-- **Substring tests find matching parts.** For a text attribute at the end of any path, a value without
nulls, and a row from which the links lead to one that holds a text without nulls:

* both operators compile;
* `like` is true exactly if some part of the text matches the value, and `ilike` exactly if some part of
  the text's lowercase matches the value's lowercase. Here U+FFFD, U+FFFE and U+FFFF match one another
  and every other character but a wildcard only itself; without U+FFFE and U+FFFF all do. A value without
  wildcards has then to be a part itself, and the empty value always is;
* where there is no text neither is true. -/
theorem containment {p : Path} (hkind : p.kind = .text) {v : String} (hv : '\x00' ∉ v.toList) :
    ∃ c d, compile p .like v = .ok c ∧ compile p .ilike v = .ok d ∧
      ∀ db : Database, db.Identified → ∀ r t, db.Leads p.hops r t →
        (∀ s, t.get p.column = .text s → '\x00' ∉ s.toList →
          Finds (c.eval db r = some true) v.toList s.toList ∧
          Finds (d.eval db r = some true) (Text.lower v).toList (Text.lower s).toList) ∧
        (t.get p.column = .null → c.eval db r ≠ some true ∧ d.eval db r ≠ some true) := by
  refine ⟨_, _, compile_like hkind v, compile_ilike hkind v, ?_⟩
  intro db hdb r t ht
  -- both conditions are about the row to which the links lead
  have hlike := eval_iff_of_leads (c := ⟨p, .like (Test.containing v)⟩) hdb ht
  have hilike := eval_iff_of_leads (c := ⟨p, .ilike (Test.containing (Text.lower v))⟩) hdb ht
  refine ⟨fun s hs hnull => ⟨.of_part ?_, .of_part ?_⟩, fun hnull => ⟨?_, ?_⟩⟩
  · exact hlike.trans (evalLeaf_like hs hv hnull)
  · exact hilike.trans (evalLeaf_ilike hs hv hnull)
  · rw [Ne, hlike, evalLeaf, hnull]
    exact nofun
  · rw [Ne, hilike, evalLeaf, hnull]
    exact nofun

/-- The name of a user. -/
def userName : Path := ⟨[], .users, "user_name", .text⟩

/-- `LIC` is no part of alice's name, but its lowercase is one of the lowercase. -/
theorem containment_alice :
    ∃ c d, compile userName .like "LIC" = .ok c ∧ compile userName .ilike "LIC" = .ok d ∧
      c.eval twoOwnings ⟨1, [("user_name", .text "alice")]⟩ ≠ some true ∧
      d.eval twoOwnings ⟨1, [("user_name", .text "alice")]⟩ = some true ∧
      d.eval twoOwnings ⟨1, [("user_name", .null)]⟩ ≠ some true := by
  obtain ⟨c, d, hc, hd, hrows⟩ := containment (p := userName) rfl (v := "LIC") (by decide)
  obtain ⟨htext, -⟩ := hrows twoOwnings identified_twoOwnings _ _
    (.here ⟨1, [("user_name", .text "alice")]⟩)
  obtain ⟨-, hnull⟩ := hrows twoOwnings identified_twoOwnings _ _
    (.here ⟨1, [("user_name", .null)]⟩)
  obtain ⟨hlike, hilike⟩ := htext "alice" rfl (by decide)
  refine ⟨c, d, hc, hd, ?_, ?_, (hnull rfl).2⟩
  · rw [Ne, hlike.exact_plain (by decide) (by decide) (List.forall_iff_forall_mem.mp (by decide))]
    decide
  · rw [hilike.exact_plain (by decide +kernel) (by decide +kernel)
      (List.forall_iff_forall_mem.mp (by decide +kernel))]
    decide +kernel

/-- A name of the one character is found when another is asked for. -/
theorem like_stray :
    ∃ c, compile userName .like "\uFFFD" = .ok c ∧
      c.eval twoOwnings ⟨1, [("user_name", .text "\uFFFE")]⟩ = some true ∧
      ¬MatchesIn Eq "\uFFFD".toList "\uFFFE".toList := by
  refine ⟨_, rfl, by decide, ?_⟩
  rw [matchesIn_eq_iff (by decide) (by decide)]
  decide

end Condition

end AssetRegister
