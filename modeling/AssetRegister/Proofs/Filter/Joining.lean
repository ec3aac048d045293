import AssetRegister.Proofs.Filter.Leftmost
import AssetRegister.Proofs.Filter.Malformed
import Mathlib.Data.List.DropRight

/-!
# Joining filter texts

Two filter texts joined by ` and ` are read as one after the other, if the separator between them is the
one that was written: the first text must not end in the start of a separator, and the second must not
start with white space, which the separator would take. Nothing is asked of the clauses; they may be
malformed or hold quotes that are not closed.

* `clauses_append`: texts that are put together without a separator between them meet in one clause.
* `comparison?_append_spaces`: white space at the end of a clause does not change what is read from it.

Main statement: `Token.ofFilter_append_and`.
-/

namespace AssetRegister.Filter

open Text (isSpace isBlank isBlankText dropEndWhile)

/-! ## Texts that end outside of separators -/

/-- The text does not end in white space, nor in white space and the word `and`, so no separator that
starts in it goes on behind it. -/
structure Sealed (s : List Char) : Prop where
  last : ∀ c ∈ s.getLast?, isSpace c = false
  word : ∀ a, isSpace a = true → ¬[a, 'a', 'n', 'd'] <:+ s

/-- What a text ends in keeps its end. -/
theorem Sealed.suffix {s t : List Char} (h : Sealed s) (ht : t <:+ s) : Sealed t := by
  refine ⟨fun c hc => ?_, fun a ha hword => h.word a ha (hword.trans ht)⟩
  obtain ⟨before, rfl⟩ := ht
  refine h.last c ?_
  rw [List.getLast?_append, hc]
  rfl

/-- A sealed text is not all white space. -/
theorem Sealed.exists_not_isSpace {s : List Char} (h : Sealed s) (hne : s ≠ []) :
    ∃ c ∈ s, isSpace c = false :=
  ⟨s.getLast hne, List.getLast_mem hne, h.last _ (List.getLast?_eq_some_getLast hne)⟩

/-- So a run of white space does not go through one. -/
theorem spaces_ne_append {v s : List Char} (hv : ∀ c ∈ v, isSpace c = true) (hs : Sealed s)
    (hne : s ≠ []) (t : List Char) : v ≠ s ++ t := by
  rintro rfl
  obtain ⟨c, hc, hspace⟩ := hs.exists_not_isSpace hne
  rw [hv c (List.mem_append_left t hc)] at hspace
  cases hspace

variable {s x y t : List Char}

/-- A separator within a sealed text is the same before any further text. -/
theorem afterSeparator?_append_of_some {r : List Char} (hs : Sealed s)
    (h : afterSeparator? s = some r) (y : List Char) : afterSeparator? (s ++ y) = some (r ++ y) := by
  obtain ⟨w₁, w₂, hw₁, hw₂, rfl, hr⟩ := afterSeparator?_eq_some.mp h
  refine afterSeparator?_eq_some.mpr ⟨w₁, w₂, hw₁, hw₂, by simp, ?_⟩
  cases r with
  | cons c r => exact fun d hd => hr d hd
  | nil =>
    -- the text would end in the separator's white space
    have hsuffix : w₂ <:+ w₁ ++ ['a', 'n', 'd'] ++ w₂ ++ [] := by
      rw [List.append_nil]
      exact List.suffix_append _ _
    exact absurd (List.append_nil w₂).symm (spaces_ne_append hw₂.2 (hs.suffix hsuffix) hw₂.1 [])

/-- No separator starts in a sealed text and ends behind it, if white space or nothing follows. -/
theorem afterSeparator?_append_of_none (hs : Sealed s) (hne : s ≠ [])
    (h : afterSeparator? s = none) (hy : ∀ c ∈ y.head?, isSpace c = true) :
    afterSeparator? (s ++ y) = none := by
  refine Option.eq_none_iff_forall_ne_some.mpr fun r hr => ?_
  obtain ⟨v, a, b, ha, hb, hv, hrow⟩ := exists_row_of_afterSeparator? hr
  have hletter : ∀ c ∈ ['a', 'n', 'd'], ∀ z, ¬c :: z <+: y := by
    rintro c hc z ⟨u, rfl⟩
    have hletters : ∀ c ∈ ['a', 'n', 'd'], isSpace c = false := by simp [isSpace]
    cases (hletters c hc).symm.trans (hy c rfl)
  have hnot : ¬v ++ [a, 'a', 'n', 'd', b] <+: s := by
    intro hwhole
    have := isSome_afterSeparator? hv ha hb hwhole
    rw [h] at this
    cases this
  obtain ⟨z, hcut⟩ :=
    (List.prefix_or_prefix_of_prefix hrow (List.prefix_append s y)).resolve_left hnot
  have hz : z <+: y := (List.prefix_append_right_inj s).mp (hcut ▸ hrow)
  rcases List.append_eq_append_iff.mp hcut with ⟨u, hu, -⟩ | ⟨u, rfl, hu⟩
  · exact spaces_ne_append hv hs hne u hu
  -- the text ends in the first characters of the row, `u`, and what follows it starts with the others
  -- one case for each place in the row, which has five characters
  rcases u with _ | ⟨c₁, _ | ⟨c₂, _ | ⟨c₃, _ | ⟨c₄, _ | ⟨c₅, u⟩⟩⟩⟩⟩
  · exact spaces_ne_append hv hs hne [] (by simp)
  · cases hu
    exact hletter 'a' (by decide) _ hz
  · cases hu
    exact hletter 'n' (by decide) _ hz
  · cases hu
    exact hletter 'd' (by decide) _ hz
  · cases hu
    exact hs.word a ha ⟨v, rfl⟩
  · simp only [List.cons_append, List.cons.injEq, List.nil_eq, List.append_eq_nil_iff] at hu
    obtain ⟨rfl, rfl, rfl, rfl, rfl, rfl, rfl⟩ := hu
    exact hnot (List.prefix_refl _)

/-! ## Clauses of texts put together -/

/-- A first clause that a separator ends in a sealed text ends there in the longer text too. -/
theorem firstClause_append_of_some {clause r : List Char} (hx : Sealed x)
    (hy : ∀ c ∈ y.head?, isSpace c = true) (h : firstClause x = (clause, some r)) :
    firstClause (x ++ y) = (clause, some (r ++ y)) := by
  induction x generalizing clause with
  | nil => cases h
  | cons c x ih =>
    unfold firstClause at h
    split at h
    · next hsep =>
      cases h
      -- the separator is found at the same place, with all its white space
      have hjoined := afterSeparator?_append_of_some hx hsep y
      rw [List.cons_append] at hjoined
      rw [List.cons_append, firstClause, hjoined]
    · next hsep =>
      cases hrest : firstClause x with
      | mk left right =>
        rw [hrest] at h
        cases h
        -- none starts here either, although more text follows
        have hjoined := afterSeparator?_append_of_none hx (List.cons_ne_nil _ _) hsep hy
        rw [List.cons_append] at hjoined
        rw [List.cons_append, firstClause, hjoined]
        dsimp only
        rw [ih (hx.suffix (List.suffix_cons c x)) hrest]

/-- A sealed text without separators is the start of the first clause of the longer text. -/
theorem firstClause_append_of_none (hx : Sealed x) (hy : ∀ c ∈ y.head?, isSpace c = true)
    (h : (firstClause x).2 = none) :
    firstClause (x ++ y) = (x ++ (firstClause y).1, (firstClause y).2) := by
  induction x with
  | nil => rfl
  | cons c x ih =>
    unfold firstClause at h
    split at h
    · cases h
    · next hsep =>
      have hjoined := afterSeparator?_append_of_none hx (List.cons_ne_nil _ _) hsep hy
      rw [List.cons_append] at hjoined
      rw [List.cons_append, firstClause, hjoined]
      dsimp only
      rw [ih (hx.suffix (List.suffix_cons c x)) h, List.cons_append]

/-- The two ways in which a first clause ends, in one equation. -/
theorem clauses_eq (s : List Char) :
    clauses s = (firstClause s).1 :: ((firstClause s).2.map clauses).getD [] := by
  cases h : (firstClause s).2 with
  | none => exact clauses_eq_singleton _ (Prod.ext rfl h)
  | some r => exact clauses_eq_cons _ _ (Prod.ext rfl h)

/-- The last clause of a sealed text and the first clause of what follows it become one clause. Induction
along the cuts of the first text. -/
theorem clauses_append (hx : Sealed x) (hy : ∀ c ∈ y.head?, isSpace c = true) :
    ∃ before last first after, clauses x = before ++ [last] ∧ clauses y = first :: after ∧
      clauses (x ++ y) = before ++ (last ++ first) :: after := by
  induction x using clauses.induct with
  | case1 x clause hfirst =>
    have hnone : (firstClause x).2 = none := congrArg Prod.snd hfirst
    have hwhole : clause = x := by
      have hfst := firstClause_fst hnone
      rwa [hfirst] at hfst
    refine ⟨[], clause, _, _, clauses_eq_singleton clause hfirst, clauses_eq y, ?_⟩
    rw [clauses_eq (x ++ y), firstClause_append_of_none hx hy hnone, hwhole]
    rfl
  | case2 x clause r hfirst _ ih =>
    obtain ⟨sep, hcut, -⟩ := firstClause_eq_some hfirst
    -- what the separator leaves ends like the text, so it is sealed too
    have hsuffix : r <:+ x := by
      rw [hcut]
      exact List.suffix_append _ _
    obtain ⟨before, last, first, after, hr, hy, hjoined⟩ := ih (hx.suffix hsuffix)
    refine ⟨clause :: before, last, first, after, ?_, hy, ?_⟩
    · rw [clauses_eq_cons clause r hfirst, hr, List.cons_append]
    · rw [clauses_eq_cons _ _ (firstClause_append_of_some hx ‹_› hfirst), hjoined,
        List.cons_append]

/-- White space alone is one clause. -/
theorem clauses_spaces (ht : ∀ c ∈ t, isSpace c = true) : clauses t = [t] := by
  have hnone : (firstClause t).2 = none := by
    refine firstClause_snd_eq_none.mpr ?_
    rintro ⟨a, b, -, -, hrow⟩
    have hletter : isSpace 'a' = true := ht 'a' (hrow.subset (by simp))
    exact absurd hletter (by decide)
  exact clauses_eq_singleton t (Prod.ext (firstClause_fst hnone) hnone)

/-- White space and `and ` end an empty clause. -/
theorem clauses_separator (ht : ∀ c ∈ t, isSpace c = true) {s : List Char}
    (hs : ∀ c ∈ s.head?, isSpace c = false) :
    clauses (t ++ [' ', 'a', 'n', 'd', ' '] ++ s) = [] :: clauses s := by
  have hspace : isSpace ' ' = true := by decide
  have hsep : afterSeparator? (t ++ [' ', 'a', 'n', 'd', ' '] ++ s) = some s := by
    refine afterSeparator?_eq_some.mpr ⟨t ++ [' '], [' '], ⟨by simp, ?_⟩, .singleton hspace,
      by simp, hs⟩
    intro c hc
    rcases List.mem_append.mp hc with hc | hc
    · exact ht c hc
    · rwa [List.mem_singleton.mp hc]
  refine clauses_eq_cons _ _ ?_
  obtain ⟨c, u, hu⟩ : ∃ c u, t ++ [' ', 'a', 'n', 'd', ' '] ++ s = c :: u :=
    List.exists_cons_of_ne_nil (by simp)
  rw [hu] at hsep ⊢
  unfold firstClause
  rw [hsep]

/-- What is left of a text without the white space at its end is sealed if it does not end in white space
and `and`. -/
theorem exists_sealed_append {s : List Char}
    (hs : ∀ a, isSpace a = true → ¬[a, 'a', 'n', 'd'] <:+ dropEndWhile isSpace s) :
    ∃ x t, s = x ++ t ∧ Sealed x ∧ ∀ c ∈ t, isSpace c = true := by
  refine ⟨s.rdropWhile isSpace, s.rtakeWhile isSpace, ?_, ⟨fun c hc => ?_, hs⟩, fun c hc => ?_⟩
  · rw [List.rdropWhile_append_rtakeWhile]
  · obtain ⟨hne, rfl⟩ := List.mem_getLast?_eq_getLast hc
    simpa using List.rdropWhile_last_not isSpace s hne
  · exact List.mem_rtakeWhile_imp hc

/-- Joining cuts the texts where they are cut alone, except that the last clause of the first text has no
white space at its end. -/
theorem clauses_append_and {s₁ s₂ : List Char}
    (hend : ∀ a, isSpace a = true → ¬[a, 'a', 'n', 'd'] <:+ dropEndWhile isSpace s₁)
    (hstart : ∀ c ∈ s₂.head?, isSpace c = false) :
    ∃ before last t, (∀ c ∈ t, isSpace c = true) ∧ clauses s₁ = before ++ [last ++ t] ∧
      clauses (s₁ ++ [' ', 'a', 'n', 'd', ' '] ++ s₂) = before ++ last :: clauses s₂ := by
  obtain ⟨x, t, rfl, hx, ht⟩ := exists_sealed_append hend
  have htspace : ∀ c ∈ t.head?, isSpace c = true := fun c hc => ht c (List.mem_of_mem_head? hc)
  have hyspace : ∀ c ∈ (t ++ [' ', 'a', 'n', 'd', ' '] ++ s₂).head?, isSpace c = true := by
    intro c hc
    cases t with
    | nil => cases hc; decide
    | cons d t => exact htspace c hc
  -- the sealed part is cut alike before white space alone and before the joining word
  obtain ⟨before, last, first, after, hclauses, hfirst, halone⟩ := clauses_append hx htspace
  obtain ⟨before', last', first', after', hclauses', hfirst', hjoined⟩ := clauses_append hx hyspace
  obtain ⟨rfl, hlast⟩ := List.append_inj' (hclauses.symm.trans hclauses') rfl
  obtain rfl := List.singleton_inj.mp hlast
  rw [clauses_spaces ht] at hfirst
  rw [clauses_separator ht hstart] at hfirst'
  cases hfirst
  cases hfirst'
  have htext : x ++ t ++ [' ', 'a', 'n', 'd', ' '] ++ s₂ =
      x ++ (t ++ [' ', 'a', 'n', 'd', ' '] ++ s₂) := by
    simp
  refine ⟨before, last, t, ht, halone, ?_⟩
  rw [htext, hjoined, List.append_nil]

/-! ## White space at the end of a clause -/

/-- What clauses take for white space is blank. -/
theorem isBlank_of_isSpace {c : Char} (h : isSpace c = true) : isBlank c = true := by
  simp only [isSpace, Bool.or_eq_true, beq_iff_eq, Bool.and_eq_true, decide_eq_true_eq] at h
  rcases h with rfl | ⟨h₁, h₂⟩
  · decide
  · simp [isBlank, h₁, h₂]

/-- White space at the end of a clause does not change whether it is blank. -/
theorem isBlankText_append_spaces (ht : ∀ c ∈ t, isSpace c = true) (s : List Char) :
    isBlankText (s ++ t) = isBlankText s := by
  have hblank : t.all isBlank = true := List.all_eq_true.mpr fun c hc => isBlank_of_isSpace (ht c hc)
  unfold isBlankText
  rw [List.all_append, hblank, Bool.and_true]

/-- White space behind a text does not change the literal at its start. -/
theorem Literal.append_spaces {r literal : List Char} (h : Literal r literal) (hne : literal ≠ [])
    (ht : ∀ c ∈ t, isSpace c = true) : Literal (r ++ t) literal := by
  cases h with
  | @quoted v s hv =>
    have hquoted := Literal.quoted (s ++ t) hv
    simpa using hquoted
  | @bare _ s hopen hv hs =>
    rw [List.append_assoc]
    refine .bare ?_ hv ?_
    · -- a quote behind the first one is in the literal's text, since it is no white space
      rintro ⟨u, hu, hquote⟩
      obtain ⟨c, v, rfl⟩ := List.exists_cons_of_ne_nil hne
      obtain ⟨rfl, rfl⟩ := List.cons.inj hu
      have hquote : '\x27' ∈ v ++ s ++ t := List.append_assoc v s t ▸ hquote
      rcases List.mem_append.mp hquote with hquote | hquote
      · exact hopen ⟨_, rfl, hquote⟩
      · exact absurd (ht _ hquote) (by decide)
    · intro c hc
      cases s with
      | nil => exact ht c (List.mem_of_mem_head? hc)
      | cons d s => exact hs c hc

theorem literalAt?_append_spaces {r : List Char} (hr : ∃ c s, r = c :: s ∧ isSpace c = false)
    (ht : ∀ c ∈ t, isSpace c = true) : literalAt? (r ++ t) = literalAt? r := by
  obtain ⟨c, s, rfl, hc⟩ := hr
  obtain ⟨literal, hliteral, hne⟩ := exists_literal hc s
  rw [literalAt?_eq_some.mpr ⟨hliteral, hne⟩]
  exact literalAt?_eq_some.mpr ⟨hliteral.append_spaces hne ht, hne⟩

/-- White space behind a text is never part of a comparison at its start: what is read from the text goes
on at least to a character that is no white space. -/
theorem comparisonAt?_append_spaces (ht : ∀ c ∈ t, isSpace c = true) (s : List Char) :
    comparisonAt? (s ++ t) = comparisonAt? s := by
  refine Option.ext fun w => ?_
  rw [comparisonAt?_eq_some, comparisonAt?_eq_some]
  constructor
  · rintro ⟨r, ⟨hne, hword, ⟨c, u, hr, hc⟩, w₁, w₂, hw₁, hw₂, htext⟩, hliteral⟩
    dsimp only at hr htext
    have hmem : c ∉ t := fun hmem => by
      rw [ht c hmem] at hc
      cases hc
    simp only [List.nil_append, ← List.append_assoc] at htext
    -- the literal starts in the white space, which cannot be, or before it
    rcases List.append_eq_append_iff.mp htext with ⟨z, -, rfl⟩ | ⟨z, hs, rfl⟩
    · exact absurd (List.mem_append_right z (hr ▸ List.mem_cons_self)) hmem
    · cases z with
      | nil => exact absurd (hr ▸ List.mem_cons_self : c ∈ [] ++ t) hmem
      | cons d z =>
        obtain ⟨rfl, -⟩ := List.cons.inj hr
        have hhead : ∃ e u, d :: z = e :: u ∧ isSpace e = false := ⟨d, z, rfl, hc⟩
        refine ⟨d :: z, ⟨hne, hword, hhead, w₁, w₂, hw₁, hw₂, by simpa using hs⟩, ?_⟩
        rwa [literalAt?_append_spaces hhead ht] at hliteral
  · rintro ⟨r, ⟨hne, hword, hhead, w₁, w₂, hw₁, hw₂, rfl⟩, hliteral⟩
    refine ⟨r ++ t, ⟨hne, hword, ?_, w₁, w₂, hw₁, hw₂, by simp⟩, ?_⟩
    · obtain ⟨c, u, hr, hc⟩ := hhead
      exact ⟨c, u ++ t, congrArg (· ++ t) hr, hc⟩
    · rwa [literalAt?_append_spaces hhead ht]

/-- White space at the end of a clause does not change the comparison that is read from it. -/
theorem comparison?_append_spaces (ht : ∀ c ∈ t, isSpace c = true) (s : List Char) :
    comparison? (s ++ t) = comparison? s := by
  induction s with
  | nil => exact comparison?_of_isBlankText ((isBlankText_append_spaces ht []).trans rfl)
  | cons c s ih =>
    have hstart := comparisonAt?_append_spaces ht (c :: s)
    rw [List.cons_append] at hstart ⊢
    unfold comparison?
    rw [hstart, ih]

end AssetRegister.Filter

namespace AssetRegister.Token

open AssetRegister.Filter
open Text (isSpace dropEndWhile)

theorem ofClause?_append_spaces {t : List Char} (ht : ∀ c ∈ t, isSpace c = true)
    (clause : List Char) : ofClause? (clause ++ t) = ofClause? clause := by
  unfold ofClause?
  rw [comparison?_append_spaces ht]

/-- So it does not change whether the clause is malformed. -/
theorem malformed_append_spaces {t : List Char} (ht : ∀ c ∈ t, isSpace c = true)
    {clause : List Char} : Malformed (clause ++ t) ↔ Malformed clause := by
  unfold Malformed
  rw [ofClause?_append_spaces ht, isBlankText_append_spaces ht]

/-- **Joining two filter texts joins their tokens.** The first text, without white space at its end, does
not end in white space and `and`, and the second does not start with white space; their clauses may be
malformed. Then lenient reading of both, joined by ` and `, gives the tokens of one after those of the
other, and strict reading accepts it exactly if it accepts both. -/
theorem ofFilter_append_and (f₁ f₂ : String)
    (hend : ∀ a, isSpace a = true → ¬[a, 'a', 'n', 'd'] <:+ dropEndWhile isSpace f₁.toList)
    (hstart : ∀ c ∈ f₂.toList.head?, isSpace c = false) :
    (∃ ts₁ ts₂, ofFilter .lenient f₁ = .ok ts₁ ∧ ofFilter .lenient f₂ = .ok ts₂ ∧
      ofFilter .lenient (f₁ ++ " and " ++ f₂) = .ok (ts₁ ++ ts₂)) ∧
    ((∃ ts, ofFilter .strict (f₁ ++ " and " ++ f₂) = .ok ts) ↔
      (∃ ts, ofFilter .strict f₁ = .ok ts) ∧ ∃ ts, ofFilter .strict f₂ = .ok ts) := by
  obtain ⟨before, last, t, ht, hfirst, hjoined⟩ := clauses_append_and hend hstart
  have htext : (f₁ ++ " and " ++ f₂).toList =
      f₁.toList ++ [' ', 'a', 'n', 'd', ' '] ++ f₂.toList := by
    rw [String.toList_append, String.toList_append]
    rfl
  simp only [ofFilter_eq, htext, hfirst, hjoined]
  constructor
  · refine ⟨_, _, ofClauses_eq_ok.mpr ⟨nofun, rfl⟩, ofClauses_eq_ok.mpr ⟨nofun, rfl⟩,
      ofClauses_eq_ok.mpr ⟨nofun, ?_⟩⟩
    -- only the last clause of the first text has changed, by its white space
    have hlast : [last ++ t].filterMap ofClause? = [last].filterMap ofClause? := by
      simp only [List.filterMap_cons, ofClause?_append_spaces ht]
    rw [List.append_cons, List.filterMap_append, List.filterMap_append, List.filterMap_append, hlast]
  · have hstrict : ∀ clauses, (∃ ts, ofClauses .strict clauses = .ok ts) ↔
        ∀ c ∈ clauses, ¬Malformed c := by
      intro clauses
      simp [ofClauses_eq_ok]
    rw [hstrict, hstrict, hstrict, List.forall_mem_append, List.forall_mem_append,
      List.forall_mem_cons, List.forall_mem_singleton, malformed_append_spaces ht, and_assoc]

/-- The first text has no comparison, a quote that is not closed and spaces at its end. The second is read
as if it stood alone, but strict reading refuses the first. -/
theorem ofFilter_append_and_open :
    (∀ a, isSpace a = true → ¬[a, 'a', 'n', 'd'] <:+ dropEndWhile isSpace "price >> 'open  ".toList) ∧
      (∀ c ∈ "name = 'a'".toList.head?, isSpace c = false) ∧
      ofFilter .lenient ("price >> 'open  " ++ " and " ++ "name = 'a'") =
        .ok [⟨"name", .comparison .eq, "a"⟩] ∧
      ¬∃ ts, ofFilter .strict ("price >> 'open  " ++ " and " ++ "name = 'a'") = .ok ts := by
  have hend : ∀ a, isSpace a = true →
      ¬[a, 'a', 'n', 'd'] <:+ dropEndWhile isSpace "price >> 'open  ".toList := by
    intro a _ hsuffix
    exact absurd (hsuffix.subset (by simp : 'd' ∈ [a, 'a', 'n', 'd'])) (by decide)
  have hstart : ∀ c ∈ "name = 'a'".toList.head?, isSpace c = false := by
    rintro c ⟨⟩
    decide
  have hfirst : clauses "price >> 'open  ".toList = ["price >> 'open  ".toList] :=
    clauses_eq_singleton _ (by decide)
  have hsecond : clauses "name = 'a'".toList = ["name = 'a'".toList] :=
    clauses_eq_singleton _ (by decide)
  obtain ⟨⟨ts₁, ts₂, h₁, h₂, hlenient⟩, hstrict⟩ := ofFilter_append_and _ _ hend hstart
  rw [ofFilter_eq, hfirst] at h₁
  rw [ofFilter_eq, hsecond] at h₂
  cases h₁.symm.trans (by decide : ofClauses .lenient ["price >> 'open  ".toList] = .ok [])
  cases h₂.symm.trans (by decide : ofClauses .lenient ["name = 'a'".toList] =
    .ok [⟨"name", .comparison .eq, "a"⟩])
  refine ⟨hend, hstart, hlenient, fun h => ?_⟩
  obtain ⟨⟨ts, hts⟩, -⟩ := hstrict.mp h
  rw [ofFilter_eq, hfirst] at hts
  cases hts.symm.trans (by decide : ofClauses .strict ["price >> 'open  ".toList] =
    .error ⟨"price >> 'open  "⟩)

end AssetRegister.Token
