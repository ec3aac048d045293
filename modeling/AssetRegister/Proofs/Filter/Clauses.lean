import AssetRegister.Filter.Clause
import AssetRegister.Proofs.Text.Longest
import Mathlib.Data.List.Infix

/-!
# The clauses of a filter text

`clauses` cuts a filter text at its separators from left to right. Its two equations say what it does at
the first clause: the text ends there, or what follows the separator is cut in the same way.

A separator takes all the white space around its word, but it shows in the text by five characters in a
row: white space, `and` and white space (`HoldsSeparator`).

* `firstClause_eq_some`, `firstClause_snd_eq_none`: a clause ends at the first separator, or it is the
  whole text because there is none.
* `firstClause_append`: a part without separators stays together, whatever follows it, if it ends in a
  character that no separator has.
-/

namespace AssetRegister.Filter

open Text (isSpace)

/-- If nothing ends the first clause, it is the only one. -/
theorem clauses_eq_singleton {s : List Char} (clause : List Char)
    (h : firstClause s = (clause, none)) :
    clauses s = [clause] := by
  rw [clauses]
  split
  · next hc =>
    rw [h] at hc
    cases hc
    rfl
  · next hc =>
    rw [h] at hc
    cases hc

/-- If a separator does, what comes after it is cut in the same way. -/
theorem clauses_eq_cons {s : List Char} (clause rest : List Char)
    (h : firstClause s = (clause, some rest)) :
    clauses s = clause :: clauses rest := by
  rw [clauses]
  split
  · next hc =>
    rw [h] at hc
    cases hc
  · next hc =>
    rw [h] at hc
    cases hc
    rfl

/-! ## Reading words and white space -/

/-- A run of white space, which has at least one character. -/
def Spaces (w : List Char) : Prop := w ≠ [] ∧ ∀ c ∈ w, isSpace c = true

theorem Spaces.singleton {c : Char} (h : isSpace c = true) : Spaces [c] :=
  ⟨List.cons_ne_nil _ _, List.forall_mem_singleton.mpr h⟩

/-- The first character of a run. -/
theorem Spaces.exists_cons {w : List Char} (h : Spaces w) :
    ∃ a v, w = a :: v ∧ isSpace a = true ∧ ∀ c ∈ v, isSpace c = true := by
  obtain ⟨hne, hall⟩ := h
  obtain ⟨a, v, rfl⟩ := List.exists_cons_of_ne_nil hne
  obtain ⟨ha, hv⟩ := List.forall_mem_cons.mp hall
  exact ⟨a, v, rfl, ha, hv⟩

/-- The last one. -/
theorem Spaces.exists_concat {w : List Char} (h : Spaces w) :
    ∃ v a, w = v ++ [a] ∧ isSpace a = true := by
  obtain ⟨hne, hall⟩ := h
  refine ⟨w.dropLast, w.getLast hne, (List.dropLast_append_getLast hne).symm, ?_⟩
  exact hall _ (List.getLast_mem hne)

/-- White space is read to its end. -/
theorem afterSpace?_eq_some {s r : List Char} :
    afterSpace? s = some r ↔
      ∃ w, Spaces w ∧ s = w ++ r ∧ ∀ c ∈ r.head?, isSpace c = false := by
  constructor
  · intro h
    cases s with
    | nil => cases h
    | cons a s =>
      unfold afterSpace? at h
      dsimp only at h
      split at h
      · next ha =>
        cases h
        refine ⟨a :: s.takeWhile isSpace, ⟨List.cons_ne_nil _ _, ?_⟩, ?_, Text.head?_dropWhile _ _⟩
        · exact List.forall_mem_cons.mpr ⟨ha, fun c hc => List.mem_takeWhile_imp hc⟩
        · rw [List.cons_append, List.takeWhile_append_dropWhile]
      · cases h
  · rintro ⟨w, hw, rfl, hr⟩
    -- the run is not empty, and ends before the rest
    obtain ⟨a, v, rfl, ha, hv⟩ := hw.exists_cons
    show (if isSpace a then some ((v ++ r).dropWhile isSpace) else none) = some r
    rw [if_pos ha, Text.dropWhile_append hv hr]

/-- A word is read where it stands. -/
theorem afterWord?_eq_some {w s r : List Char} : afterWord? w s = some r ↔ s = w ++ r := by
  induction w generalizing s with
  | nil =>
    show some s = some r ↔ s = r
    rw [Option.some.injEq]
  | cons a w ih =>
    cases s with
    | nil => simp [afterWord?]
    | cons c s =>
      unfold afterWord?
      by_cases h : a = c
      · rw [if_pos h, ih, h, List.cons_append, List.cons.injEq, and_iff_right rfl]
      · simp [h, Ne.symm h]

/-- A separator is white space, `and` and white space, and takes all of the latter. -/
theorem afterSeparator?_eq_some {s r : List Char} :
    afterSeparator? s = some r ↔
      ∃ w₁ w₂, Spaces w₁ ∧ Spaces w₂ ∧ s = w₁ ++ ['a', 'n', 'd'] ++ w₂ ++ r ∧
        ∀ c ∈ r.head?, isSpace c = false := by
  have hletter : isSpace 'a' = false := by decide
  unfold afterSeparator?
  simp only [Option.bind_eq_some_iff, afterSpace?_eq_some, afterWord?_eq_some]
  constructor
  · rintro ⟨_, ⟨w₁, hw₁, rfl, -⟩, _, rfl, w₂, hw₂, rfl, hr⟩
    exact ⟨w₁, w₂, hw₁, hw₂, by simp, hr⟩
  · rintro ⟨w₁, w₂, hw₁, hw₂, rfl, hr⟩
    refine ⟨['a', 'n', 'd'] ++ (w₂ ++ r), ⟨w₁, hw₁, by simp, ?_⟩, w₂ ++ r, rfl, w₂, hw₂, rfl, hr⟩
    -- white space is read up to the word, which does not start with any
    intro c hc
    cases hc
    exact hletter

/-! ## Where separators show -/

/-- White space, `and` and white space stand in a row somewhere in the text. -/
def HoldsSeparator (s : List Char) : Prop :=
  ∃ a b, isSpace a = true ∧ isSpace b = true ∧ [a, 'a', 'n', 'd', b] <:+: s

/-- A text with a separator has it in any longer text. -/
theorem HoldsSeparator.mono {s t : List Char} (h : HoldsSeparator s) (hst : s <:+: t) :
    HoldsSeparator t := by
  obtain ⟨a, b, ha, hb, hrow⟩ := h
  exact ⟨a, b, ha, hb, hrow.trans hst⟩

theorem HoldsSeparator.exists_space {s : List Char} (h : HoldsSeparator s) :
    ∃ c ∈ s, isSpace c = true := by
  obtain ⟨a, b, ha, -, hrow⟩ := h
  exact ⟨a, hrow.subset List.mem_cons_self, ha⟩

/-- Where the row of five characters stands behind white space, a separator is read. -/
theorem isSome_afterSeparator? {v : List Char} {a b : Char} (hv : ∀ c ∈ v, isSpace c = true)
    (ha : isSpace a = true) (hb : isSpace b = true) {s : List Char}
    (h : v ++ [a, 'a', 'n', 'd', b] <+: s) : (afterSeparator? s).isSome := by
  obtain ⟨s, rfl⟩ := h
  rw [Option.isSome_iff_exists]
  refine ⟨s.dropWhile isSpace, afterSeparator?_eq_some.mpr
    ⟨v ++ [a], b :: s.takeWhile isSpace, ?_, ?_, ?_, Text.head?_dropWhile _ _⟩⟩
  · exact ⟨by simp, List.forall_mem_append.mpr ⟨hv, List.forall_mem_singleton.mpr ha⟩⟩
  · exact ⟨List.cons_ne_nil _ _,
      List.forall_mem_cons.mpr ⟨hb, fun c hc => List.mem_takeWhile_imp hc⟩⟩
  · simp

/-- The word `and` with the last character of white space before it and the first one behind it. -/
theorem exists_row_of_afterSeparator? {s r : List Char} (h : afterSeparator? s = some r) :
    ∃ v a b, isSpace a = true ∧ isSpace b = true ∧ (∀ c ∈ v, isSpace c = true) ∧
      v ++ [a, 'a', 'n', 'd', b] <+: s := by
  obtain ⟨w₁, w₂, hw₁, hw₂, rfl, -⟩ := afterSeparator?_eq_some.mp h
  obtain ⟨v, a, rfl, ha⟩ := hw₁.exists_concat
  obtain ⟨b, u, rfl, hb, -⟩ := hw₂.exists_cons
  refine ⟨v, a, b, ha, hb, fun c hc => hw₁.2 c (List.mem_append_left _ hc), u ++ r, ?_⟩
  simp

/-- A separator that is read shows by the row. -/
theorem holdsSeparator_of_afterSeparator? {s r : List Char} (h : afterSeparator? s = some r) :
    HoldsSeparator s := by
  obtain ⟨v, a, b, ha, hb, -, hrow⟩ := exists_row_of_afterSeparator? h
  exact ⟨a, b, ha, hb, (List.suffix_append v _).isInfix.trans hrow.isInfix⟩

/-! ## The end of the first clause -/

/-- A clause that a separator ends is the text before it. -/
theorem firstClause_eq_some {s clause r : List Char} (h : firstClause s = (clause, some r)) :
    ∃ sep, s = clause ++ sep ++ r ∧ afterSeparator? (sep ++ r) = some r := by
  induction s generalizing clause with
  | nil => cases h
  | cons c s ih =>
    unfold firstClause at h
    split at h
    -- a separator starts here, so the clause ends
    · next hsep =>
      cases h
      obtain ⟨w₁, w₂, -, -, hs, -⟩ := afterSeparator?_eq_some.mp hsep
      exact ⟨w₁ ++ ['a', 'n', 'd'] ++ w₂, hs, hs ▸ hsep⟩
    · cases hrest : firstClause s with
      | mk left right =>
        rw [hrest] at h
        cases h
        obtain ⟨sep, hs, hsep⟩ := ih hrest
        exact ⟨sep, congrArg (c :: ·) hs, hsep⟩

/-- A clause that nothing ends is the whole text. -/
theorem firstClause_fst {s : List Char} (h : (firstClause s).2 = none) : (firstClause s).1 = s := by
  induction s with
  | nil => rfl
  | cons c s ih =>
    unfold firstClause at h ⊢
    split
    · next hsep =>
      rw [hsep] at h
      cases h
    · next hsep =>
      rw [hsep] at h
      exact congrArg (c :: ·) (ih h)

/-- Nothing ends the first clause exactly if no separator shows in the text. -/
theorem firstClause_snd_eq_none {s : List Char} :
    (firstClause s).2 = none ↔ ¬HoldsSeparator s := by
  induction s with
  | nil =>
    refine iff_of_true rfl fun h => ?_
    obtain ⟨c, hc, -⟩ := h.exists_space
    cases hc
  | cons c s ih =>
    unfold firstClause
    cases hsep : afterSeparator? (c :: s) with
    | some r =>
      refine iff_of_false (Option.some_ne_none r) (not_not_intro ?_)
      exact holdsSeparator_of_afterSeparator? hsep
    | none =>
      refine ih.trans (not_congr ⟨fun h => h.mono (List.suffix_cons c s).isInfix, ?_⟩)
      -- a row in the longer text does not start at its first character
      rintro ⟨a, b, ha, hb, hrow⟩
      rcases List.infix_cons_iff.mp hrow with hfirst | hrow
      · have := isSome_afterSeparator? (List.forall_mem_nil _) ha hb hfirst
        rw [hsep] at this
        cases this
      · exact ⟨a, b, ha, hb, hrow⟩

/-- A text with a separator in it does not stay together. -/
theorem exists_firstClause_eq_some {s : List Char} (h : HoldsSeparator s) :
    ∃ clause r, firstClause s = (clause, some r) := by
  cases hrest : (firstClause s).2 with
  | none => exact absurd h (firstClause_snd_eq_none.mp hrest)
  | some r => exact ⟨(firstClause s).1, r, Prod.ext rfl hrest⟩

/-- A clause stands in the text as it is. Induction along the cuts. -/
theorem infix_of_mem_clauses {s clause : List Char} (h : clause ∈ clauses s) : clause <:+: s := by
  induction s using clauses.induct with
  | case1 s first hfirst =>
    rw [clauses_eq_singleton first hfirst, List.mem_singleton] at h
    have hfst := firstClause_fst (congrArg Prod.snd hfirst)
    rw [hfirst] at hfst
    rw [h, ← hfst]
  | case2 s first rest hfirst _ ih =>
    rw [clauses_eq_cons first rest hfirst] at h
    obtain ⟨sep, hs, -⟩ := firstClause_eq_some hfirst
    rcases List.mem_cons.mp h with rfl | h
    · rw [hs, List.append_assoc]
      exact (List.prefix_append _ _).isInfix
    · rw [hs]
      exact (ih h).trans (List.suffix_append _ _).isInfix

/-- A prefix of a text ends before a character that it does not have. -/
theorem prefix_of_notMem {w x y : List Char} {q : Char} (h : w <+: x ++ q :: y) (hq : q ∉ w) :
    w <+: x := by
  have hx : x ++ [q] <+: x ++ q :: y := ⟨y, by simp⟩
  rcases List.prefix_or_prefix_of_prefix h hx with h | h
  · rcases List.prefix_concat_iff.mp h with rfl | h
    · exact absurd (List.mem_append_right x List.mem_cons_self) hq
    · exact h
  · exact absurd (h.subset (List.mem_append_right x List.mem_cons_self)) hq

/-- Parts without separators stay together if the character between them and what follows is neither
white space nor a letter of the word. Induction on the part. -/
theorem firstClause_append {x : List Char} {q : Char} (hspace : isSpace q = false)
    (hword : q ∉ ['a', 'n', 'd']) (hx : ¬HoldsSeparator x) (y : List Char) :
    firstClause (x ++ q :: y) = (x ++ q :: (firstClause y).1, (firstClause y).2) := by
  have hne : ∀ c, isSpace c = true → q ≠ c := by
    rintro c hc rfl
    rw [hc] at hspace
    cases hspace
  -- no separator starts in the part, since it would end in it too
  have hnone : ∀ z, ¬HoldsSeparator z → afterSeparator? (z ++ q :: y) = none := by
    intro z hz
    refine Option.eq_none_iff_forall_ne_some.mpr fun r hr => hz ?_
    obtain ⟨v, a, b, ha, hb, hv, hrow⟩ := exists_row_of_afterSeparator? hr
    have hq : q ∉ v ++ [a, 'a', 'n', 'd', b] := by
      simp only [List.mem_append, List.mem_cons, List.not_mem_nil, or_false, not_or] at hword ⊢
      exact ⟨fun hq => hne q (hv q hq) rfl, hne a ha, hword.1, hword.2.1, hword.2.2, hne b hb⟩
    have hinfix := (List.suffix_append v [a, 'a', 'n', 'd', b]).isInfix
    exact ⟨a, b, ha, hb, hinfix.trans (prefix_of_notMem hrow hq).isInfix⟩
  induction x with
  | nil =>
    have hsep := hnone [] hx
    rw [List.nil_append] at hsep
    rw [List.nil_append, List.nil_append, firstClause, hsep]
  | cons c x ih =>
    have hsep := hnone (c :: x) hx
    rw [List.cons_append] at hsep
    have hx' : ¬HoldsSeparator x := fun h => hx (h.mono (List.suffix_cons c x).isInfix)
    rw [List.cons_append, firstClause, hsep]
    dsimp only
    rw [ih hx', List.cons_append]

end AssetRegister.Filter
