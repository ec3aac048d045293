import AssetRegister.Proofs.Filter.Malformed

/-!
# Lossless splitting

`Split` says what it is to cut a filter text into clauses, without a scan: the clauses and separators make
up the text, no separator starts inside a clause, and each one is as long as it can be. There is exactly one
such cut, and `clauses` gives its clauses.

* `afterSeparator?_append`: what the scan leaves behind a separator.
* `longest_iff`: a separator is as long as it can be if no white space comes after it.
* `untouched_firstClause`: no separator starts in the first clause.
* `exists_split`, `Split.unique`: the cut exists, and there is no other.

Main statement: `clauses_split`.
-/

namespace AssetRegister.Filter

open Text (isSpace)

/-! ## Separators in a text -/

/-- White space, the word `and`, and white space. -/
def Separator (sep : List Char) : Prop :=
  ∃ w₁ w₂, Spaces w₁ ∧ Spaces w₂ ∧ sep = w₁ ++ ['a', 'n', 'd'] ++ w₂

/-- A separator starts where the text does. -/
def StartsSeparator (t : List Char) : Prop := ∃ sep, Separator sep ∧ sep <+: t

/-- In front of the text `t`, the separator takes all that a separator can take. -/
def Longest (sep t : List Char) : Prop :=
  ∀ longer, Separator longer → longer <+: sep ++ t → longer.length ≤ sep.length

theorem Separator.ne_nil {sep : List Char} (h : Separator sep) : sep ≠ [] := by
  obtain ⟨w₁, w₂, -, -, rfl⟩ := h
  simp

/-- The scan goes behind a separator and all white space after it. -/
theorem afterSeparator?_append {sep : List Char} (h : Separator sep) (t : List Char) :
    afterSeparator? (sep ++ t) = some (t.dropWhile isSpace) := by
  obtain ⟨w₁, w₂, hw₁, hw₂, rfl⟩ := h
  refine afterSeparator?_eq_some.mpr
    ⟨w₁, w₂ ++ t.takeWhile isSpace, hw₁, ⟨by simp [hw₂.1], ?_⟩, by simp, Text.head?_dropWhile _ _⟩
  exact List.forall_mem_append.mpr ⟨hw₂.2, fun c hc => List.mem_takeWhile_imp hc⟩

/-- The scan finds a separator wherever one starts. -/
theorem startsSeparator_iff {t : List Char} : StartsSeparator t ↔ (afterSeparator? t).isSome := by
  constructor
  · rintro ⟨sep, hsep, t, rfl⟩
    rw [afterSeparator?_append hsep]
    rfl
  · intro h
    obtain ⟨r, hr⟩ := Option.isSome_iff_exists.mp h
    obtain ⟨w₁, w₂, hw₁, hw₂, rfl, -⟩ := afterSeparator?_eq_some.mp hr
    exact ⟨_, ⟨w₁, w₂, hw₁, hw₂, rfl⟩, List.prefix_append _ _⟩

/-- A separator is as long as it can be if and only if what comes after it does not start with white
space. -/
theorem longest_iff {sep t : List Char} (h : Separator sep) :
    Longest sep t ↔ ∀ c ∈ t.head?, isSpace c = false := by
  constructor
  · intro hlongest c hc
    by_contra hspace
    rw [Bool.not_eq_false] at hspace
    obtain ⟨w₁, w₂, hw₁, hw₂, rfl⟩ := h
    obtain ⟨t, rfl⟩ : ∃ u, t = c :: u := List.head?_eq_some_iff.mp hc
    -- with this character the separator would be longer
    have hlonger : Separator (w₁ ++ ['a', 'n', 'd'] ++ (w₂ ++ [c])) :=
      ⟨w₁, w₂ ++ [c], hw₁,
        ⟨by simp, List.forall_mem_append.mpr ⟨hw₂.2, List.forall_mem_singleton.mpr hspace⟩⟩, rfl⟩
    have hlength := hlongest _ hlonger ⟨t, by simp⟩
    simp only [List.length_append, List.length_cons, List.length_nil] at hlength
    omega
  · rintro hhead longer hlonger ⟨u, hu⟩
    -- the scan leaves the same behind both
    have hleft := afterSeparator?_append hlonger u
    rw [hu, afterSeparator?_append h, Text.dropWhile_eq_self hhead] at hleft
    have hle := length_dropWhile_le isSpace u
    rw [← Option.some.inj hleft] at hle
    have hlength := congrArg List.length hu
    simp only [List.length_append] at hlength
    omega

/-! ## Cuts -/

/-- No separator starts inside the clause in front of the text `t`. The separator need not end in the
clause. -/
def Untouched (clause t : List Char) : Prop :=
  ∀ u v, clause = u ++ v → v ≠ [] → ¬StartsSeparator (v ++ t)

/-- The text of separators, each with the clause behind it. -/
def joined (parts : List (List Char × List Char)) : List Char :=
  parts.flatMap fun p => p.1 ++ p.2

/-- A separator with the clause behind it, in front of the text `t`. -/
structure Part (sep clause t : List Char) : Prop where
  separator : Separator sep
  longest : Longest sep (clause ++ t)
  start : ∀ c ∈ clause.head?, isSpace c = false
  untouched : Untouched clause t

/-- Each separator and its clause are such before those that follow. -/
def Parts : List (List Char × List Char) → Prop
  | [] => True
  | (sep, clause) :: after => Part sep clause (joined after) ∧ Parts after

/-- A text cut into its first clause and separators with the clauses behind them. -/
structure Split (s first : List Char) (parts : List (List Char × List Char)) : Prop where
  text : s = first ++ joined parts
  untouched : Untouched first (joined parts)
  parts : Parts parts

theorem joined_cons (sep clause : List Char) (parts : List (List Char × List Char)) :
    joined ((sep, clause) :: parts) = sep ++ (clause ++ joined parts) := by
  simp [joined]

theorem Untouched.nil (t : List Char) : Untouched [] t := by
  intro u v h hv
  exact absurd (List.append_eq_nil_iff.mp h.symm).2 hv

/-- A character may be put in front of a clause if no separator starts at it. -/
theorem Untouched.cons {c : Char} {clause t : List Char}
    (hstart : ¬StartsSeparator (c :: clause ++ t)) (h : Untouched clause t) :
    Untouched (c :: clause) t := by
  intro u v huv hv
  cases u with
  | nil =>
    rw [List.nil_append] at huv
    rw [← huv]
    exact hstart
  | cons d u =>
    rw [List.cons_append, List.cons.injEq] at huv
    exact h u v huv.2 hv

/-! ## The cut that the scan makes -/

/-- The text starts with its first clause, in which no separator starts. Induction along the scan. -/
theorem untouched_firstClause (s : List Char) :
    ∃ t, s = (firstClause s).1 ++ t ∧ Untouched (firstClause s).1 t := by
  induction s with
  | nil => exact ⟨[], rfl, .nil []⟩
  | cons c s ih =>
    obtain ⟨t, hs, huntouched⟩ := ih
    unfold firstClause
    split
    · exact ⟨c :: s, rfl, .nil _⟩
    · next hnone =>
      refine ⟨t, congrArg (c :: ·) hs, .cons ?_ huntouched⟩
      rw [List.cons_append, ← hs, startsSeparator_iff, hnone]
      exact Bool.false_ne_true

/-- The clauses that are read, with the separators between them, are a cut. Induction along the cuts of
the scan. -/
theorem exists_split (s : List Char) :
    ∃ first parts, Split s first parts ∧ clauses s = first :: parts.map Prod.snd := by
  induction s using clauses.induct with
  | case1 s clause hfirst =>
    have hwhole := firstClause_fst (congrArg Prod.snd hfirst)
    obtain ⟨t, hs, huntouched⟩ := untouched_firstClause s
    rw [hfirst] at hwhole hs huntouched
    -- nothing comes after a clause that is the whole text
    have ht : t = [] := by
      rw [← hwhole] at hs
      exact List.self_eq_append_right.mp hs
    subst ht
    exact ⟨clause, [], ⟨hs, huntouched, trivial⟩, clauses_eq_singleton clause hfirst⟩
  | case2 s clause rest hfirst _ ih =>
    -- behind the first separator, the text is cut as any other
    obtain ⟨first, parts, ⟨hrest, huntouched, hparts⟩, hclauses⟩ := ih
    obtain ⟨t, hs, hclause⟩ := untouched_firstClause s
    obtain ⟨sep, hs', hafter⟩ := firstClause_eq_some hfirst
    rw [hfirst] at hs hclause
    have ht : t = sep ++ rest := by
      rw [hs', List.append_assoc] at hs
      exact (List.append_cancel_left hs).symm
    obtain ⟨w₁, w₂, hw₁, hw₂, hsep, hhead⟩ := afterSeparator?_eq_some.mp hafter
    have hseparator : Separator sep := ⟨w₁, w₂, hw₁, hw₂, List.append_cancel_right hsep⟩
    have hjoined : joined ((sep, first) :: parts) = t := by rw [joined_cons, ← hrest, ht]
    refine ⟨clause, (sep, first) :: parts, ⟨?_, ?_, ⟨hseparator, ?_, ?_, huntouched⟩, hparts⟩, ?_⟩
    · rw [hjoined]
      exact hs
    · rw [hjoined]
      exact hclause
    · rw [← hrest]
      exact (longest_iff hseparator).mpr hhead
    · -- where the clause has a first character, it is that of the rest
      intro c hc
      refine hhead c ?_
      rw [hrest, List.head?_append, hc]
      rfl
    · rw [clauses_eq_cons clause rest hfirst, hclauses]
      rfl

/-! ## No other cut -/

variable {first first' : List Char} {parts parts' : List (List Char × List Char)}

/-- The text behind the first clause starts with a separator, unless nothing is left. -/
theorem Parts.startsSeparator (h : Parts parts) (hne : parts ≠ []) (t : List Char) :
    StartsSeparator (joined parts ++ t) := by
  obtain ⟨⟨sep, clause⟩, after, rfl⟩ := List.exists_cons_of_ne_nil hne
  refine ⟨sep, h.1.separator, ?_⟩
  rw [joined_cons, List.append_assoc]
  exact List.prefix_append _ _

/-- A first clause is no longer than another, or else the other's separator would start in it. -/
theorem Untouched.eq_append (h : Untouched first (joined parts)) (hparts : Parts parts')
    {v : List Char} (hfirst : first = first' ++ v) (hjoined : joined parts' = v ++ joined parts) :
    v = [] := by
  by_contra hv
  have hne : parts' ≠ [] := by
    rintro rfl
    exact hv (List.append_eq_nil_iff.mp hjoined.symm).1
  have hstarts := hparts.startsSeparator hne []
  rw [List.append_nil, hjoined] at hstarts
  exact h first' v hfirst hv hstarts

/-- Two cuts of a text have the same first clause. -/
theorem first_unique (h : Untouched first (joined parts)) (hparts : Parts parts)
    (h' : Untouched first' (joined parts')) (hparts' : Parts parts')
    (htext : first ++ joined parts = first' ++ joined parts') :
    first = first' ∧ joined parts = joined parts' := by
  rcases List.append_eq_append_iff.mp htext with ⟨v, hfirst, hjoined⟩ | ⟨v, hfirst, hjoined⟩
  · have hv := h'.eq_append hparts hfirst hjoined
    subst hv
    exact ⟨by simp [hfirst], hjoined⟩
  · have hv := h.eq_append hparts' hfirst hjoined
    subst hv
    exact ⟨by simp [hfirst], hjoined.symm⟩

/-- They have the same separators and clauses behind it too. -/
theorem parts_unique (h : Untouched first (joined parts)) (hparts : Parts parts)
    (h' : Untouched first' (joined parts')) (hparts' : Parts parts')
    (htext : first ++ joined parts = first' ++ joined parts') : first = first' ∧ parts = parts' := by
  -- on the parts of one cut: the first clauses are the same, and so is what each first separator leaves
  induction parts generalizing first first' parts' with
  | nil =>
    obtain ⟨hfirst, hjoined⟩ := first_unique h hparts h' hparts' htext
    refine ⟨hfirst, ?_⟩
    cases parts' with
    | nil => rfl
    | cons p after =>
      rw [joined_cons] at hjoined
      exact absurd (List.append_eq_nil_iff.mp hjoined.symm).1 hparts'.1.separator.ne_nil
  | cons p after ih =>
    obtain ⟨sep, clause⟩ := p
    obtain ⟨hfirst, hjoined⟩ := first_unique h hparts h' hparts' htext
    refine ⟨hfirst, ?_⟩
    cases parts' with
    | nil =>
      rw [joined_cons] at hjoined
      exact absurd (List.append_eq_nil_iff.mp hjoined).1 hparts.1.separator.ne_nil
    | cons p' after' =>
      obtain ⟨sep', clause'⟩ := p'
      obtain ⟨hpart, hafter⟩ := hparts
      obtain ⟨hpart', hafter'⟩ := hparts'
      rw [joined_cons, joined_cons] at hjoined
      have hleft := afterSeparator?_append hpart.separator (clause ++ joined after)
      have hleft' := afterSeparator?_append hpart'.separator (clause' ++ joined after')
      rw [Text.dropWhile_eq_self ((longest_iff hpart.separator).mp hpart.longest)] at hleft
      rw [Text.dropWhile_eq_self ((longest_iff hpart'.separator).mp hpart'.longest)] at hleft'
      have hrest : clause ++ joined after = clause' ++ joined after' := by
        rw [hjoined, hleft'] at hleft
        exact (Option.some.inj hleft).symm
      have hsep : sep = sep' := by
        rw [hrest] at hjoined
        exact List.append_cancel_right hjoined
      obtain ⟨hclause, hsame⟩ := ih hpart.untouched hafter hpart'.untouched hafter' hrest
      rw [hsep, hclause, hsame]

/-- There is no second cut of a text. -/
theorem Split.unique {s : List Char} (h : Split s first parts) (h' : Split s first' parts') :
    first = first' ∧ parts = parts' :=
  parts_unique h.untouched h.parts h'.untouched h'.parts (h.text.symm.trans h'.text)

/-- **Splitting into clauses loses nothing and goes from left to right.** A filter text is cut into clauses
with separators between them (`Split`):

* the clauses and the separators, one after the other, are the text;
* each separator is white space, `and` and white space, and is as long as it can be;
* no separator starts inside a clause, even one that would end behind it;
* no clause behind a separator starts with white space.

These are the clauses that are read, and there is no other cut. That a separator is as long as it can be says
more than that the clause behind it does not start with white space where that clause is empty. -/
theorem clauses_split (filter : String) :
    ∃ first parts, Split filter.toList first parts ∧
      clauses filter.toList = first :: parts.map Prod.snd ∧
      (∀ mode, Token.ofFilter mode filter = Token.ofClauses mode (first :: parts.map Prod.snd)) ∧
      ∀ first' parts', Split filter.toList first' parts' → first' = first ∧ parts' = parts := by
  obtain ⟨first, parts, hsplit, hclauses⟩ := exists_split filter.toList
  refine ⟨first, parts, hsplit, hclauses, fun mode => ?_, fun _ _ h => h.unique hsplit⟩
  rw [Token.ofFilter_eq, hclauses]

/-- A word that stands twice, with more white space than is needed, and a text that ends in a word. -/
theorem clauses_split_overlapping :
    clauses "a and and b and \t and c and".toList =
      ["a", "and b", "and c and"].map String.toList ∧
    ∀ first parts, Split "a and and b and \t and c and".toList first parts →
      first :: parts.map Prod.snd = ["a", "and b", "and c and"].map String.toList := by
  obtain ⟨first, parts, -, hclauses, -, hunique⟩ := clauses_split "a and and b and \t and c and"
  have hcut : clauses "a and and b and \t and c and".toList =
      ["a", "and b", "and c and"].map String.toList := by decide +kernel
  refine ⟨hcut, fun first' parts' h => ?_⟩
  obtain ⟨rfl, rfl⟩ := hunique first' parts' h
  exact hclauses.symm.trans hcut

end AssetRegister.Filter
