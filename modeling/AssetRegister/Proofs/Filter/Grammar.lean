import AssetRegister.Proofs.Filter.Malformed

/-!
# The grammar of filter texts

A filter text is given by a grammar that is read from left to right: repetitions go as far as they can,
and nothing that has been read is given back. Reading such a grammar may fail on a text, also where the
text could be read in another way. `Expression` is the language of these grammars and `Expression.Reads`
its meaning.

* `Expression.Reads.unique`: a text is read in one way at most, or not at all.
* `Grammar.reads_filter`: the grammar of filters fails on no text. It reads every text to its end, and the
  clauses that it keeps are those of `clauses`.

Main statement: `Token.ofFilter_modes`, which says how the two modes of reading differ.
-/

namespace AssetRegister.Filter

open Text (isSpace)

/-! ## Grammars -/

/-- An expression of a grammar: a character of a class, a given word, the end of the text, one expression
after another, as many as possible of an expression, that an expression does not stand there, or an
expression whose text is kept. -/
inductive Expression where
  | one (p : Char → Bool)
  | word (w : List Char)
  | finish
  | next (a b : Expression)
  | many (a : Expression)
  | absent (a : Expression)
  | kept (a : Expression)

/-- The texts that were kept and the text that is left, or nothing if the expression does not stand at the
start of the text. -/
abbrev Expression.Outcome := Option (List (List Char) × List Char)

/-- What reading an expression at the start of a text gives. -/
inductive Expression.Reads : Expression → List Char → Outcome → Prop where
  | one {p c s} (h : p c = true) : Reads (.one p) (c :: s) (some ([], s))
  | one_refused {p s} (h : ∀ c ∈ s.head?, p c = false) : Reads (.one p) s none
  | word {w s t} (h : s = w ++ t) : Reads (.word w) s (some ([], t))
  | word_refused {w s} (h : ¬w <+: s) : Reads (.word w) s none
  | finish : Reads .finish [] (some ([], []))
  | finish_refused {c s} : Reads .finish (c :: s) none
  | next {a b s t u xs ys} (ha : Reads a s (some (xs, t))) (hb : Reads b t (some (ys, u))) :
      Reads (.next a b) s (some (xs ++ ys, u))
  | next_refused {a b s} (ha : Reads a s none) : Reads (.next a b) s none
  | next_refused_second {a b s t xs} (ha : Reads a s (some (xs, t))) (hb : Reads b t none) :
      Reads (.next a b) s none
  | many_stop {a s} (ha : Reads a s none) : Reads (.many a) s (some ([], s))
  | many_step {a s t u xs ys} (ha : Reads a s (some (xs, t)))
      (hrest : Reads (.many a) t (some (ys, u))) : Reads (.many a) s (some (xs ++ ys, u))
  | absent {a s} (ha : Reads a s none) : Reads (.absent a) s (some ([], s))
  | absent_refused {a s x} (ha : Reads a s (some x)) : Reads (.absent a) s none
  | kept {a w s t xs} (hs : s = w ++ t) (ha : Reads a s (some (xs, t))) :
      Reads (.kept a) s (some ([w], t))
  | kept_refused {a s} (ha : Reads a s none) : Reads (.kept a) s none

/-- A text is read in one way at most. Induction on the first of two readings. -/
theorem Expression.Reads.unique {e : Expression} {s : List Char} {x y : Outcome}
    (hx : e.Reads s x) (hy : e.Reads s y) : x = y := by
  -- each way to read an expression excludes the others, by the readings of its parts
  induction hx generalizing y with
  | one h =>
    cases hy with
    | one _ => rfl
    | one_refused h' => rw [h' _ rfl] at h; cases h
  | one_refused h =>
    cases hy with
    | one h' => rw [h _ rfl] at h'; cases h'
    | one_refused _ => rfl
  | word h =>
    cases hy with
    | word h' => rw [List.append_cancel_left (h.symm.trans h')]
    | word_refused h' => exact absurd ⟨_, h.symm⟩ h'
  | word_refused h =>
    cases hy with
    | word h' => exact absurd ⟨_, h'.symm⟩ h
    | word_refused _ => rfl
  | finish => cases hy; rfl
  | finish_refused => cases hy; rfl
  | next _ _ iha ihb =>
    cases hy with
    | next ha' hb' => cases iha ha'; cases ihb hb'; rfl
    | next_refused ha' => cases iha ha'
    | next_refused_second ha' hb' => cases iha ha'; cases ihb hb'
  | next_refused _ iha =>
    cases hy with
    | next ha' _ => cases iha ha'
    | next_refused _ => rfl
    | next_refused_second _ _ => rfl
  | next_refused_second _ _ iha ihb =>
    cases hy with
    | next ha' hb' => cases iha ha'; cases ihb hb'
    | next_refused _ => rfl
    | next_refused_second _ _ => rfl
  | many_stop _ iha =>
    cases hy with
    | many_stop _ => rfl
    | many_step ha' _ => cases iha ha'
  | many_step _ _ iha ihrest =>
    cases hy with
    | many_stop ha' => cases iha ha'
    | many_step ha' hrest' => cases iha ha'; cases ihrest hrest'; rfl
  | absent _ iha =>
    cases hy with
    | absent _ => rfl
    | absent_refused ha' => cases iha ha'
  | absent_refused _ iha =>
    cases hy with
    | absent ha' => cases iha ha'
    | absent_refused _ => rfl
  | kept hs _ iha =>
    cases hy with
    | kept hs' ha' => cases iha ha'; rw [List.append_cancel_right (hs.symm.trans hs')]
    | kept_refused ha' => cases iha ha'
  | kept_refused _ iha =>
    cases hy with
    | kept _ ha' => cases iha ha'
    | kept_refused _ => rfl

/-! ## The grammar of filters -/

namespace Grammar

open Expression

/-- White space, which has at least one character. -/
def spaces : Expression := .next (.one isSpace) (.many (.one isSpace))

/-- White space, the word `and` and white space. -/
def separator : Expression := .next spaces (.next (.word ['a', 'n', 'd']) spaces)

/-- All characters up to a separator or the end. -/
def clauseText : Expression := .many (.next (.absent separator) (.one fun _ => true))

/-- A clause, and further clauses behind separators. -/
def clauseTexts : Expression := .next (.kept clauseText) (.many (.next separator (.kept clauseText)))

/-- A filter text: clauses, and nothing behind them. -/
def filter : Expression := .next clauseTexts .finish

/-- What is read if no text is kept. -/
def silent (rest : Option (List Char)) : Outcome := rest.map ([], ·)

theorem reads_one_nil (p : Char → Bool) : (Expression.one p).Reads [] none :=
  .one_refused fun _ hc => absurd hc (Option.not_mem_none _)

/-- A repetition over a class of characters goes to the end of their run. -/
theorem reads_many_space (s : List Char) :
    (Expression.many (.one isSpace)).Reads s (some ([], s.dropWhile isSpace)) := by
  induction s with
  | nil => exact .many_stop (reads_one_nil isSpace)
  | cons c s ih =>
    by_cases hc : isSpace c = true
    · rw [List.dropWhile_cons_of_pos hc]
      exact .many_step (.one hc) ih
    · rw [List.dropWhile_cons_of_neg hc]
      refine .many_stop (.one_refused fun d hd => ?_)
      cases hd
      simpa using hc

/-- White space is read as by the scan. -/
theorem reads_spaces (s : List Char) : spaces.Reads s (silent (afterSpace? s)) := by
  cases s with
  | nil => exact .next_refused (reads_one_nil isSpace)
  | cons c s =>
    unfold afterSpace?
    dsimp only
    split
    · next hc => exact .next (.one hc) (reads_many_space s)
    · next hc =>
      refine .next_refused (.one_refused fun d hd => ?_)
      cases hd
      simpa using hc

/-- So is a separator, part by part. -/
theorem reads_separator (s : List Char) : separator.Reads s (silent (afterSeparator? s)) := by
  unfold afterSeparator?
  have hspaces := reads_spaces s
  cases hs : afterSpace? s with
  | none =>
    rw [hs] at hspaces
    exact .next_refused hspaces
  | some t =>
    rw [hs] at hspaces
    rw [Option.bind_some]
    cases ht : afterWord? ['a', 'n', 'd'] t with
    | none =>
      -- what has been read as white space is not given back when the word does not follow
      refine .next_refused_second hspaces (.next_refused (.word_refused ?_))
      rintro ⟨u, hu⟩
      cases ht.symm.trans (afterWord?_eq_some.mpr hu.symm)
    | some u =>
      have hword : (Expression.word ['a', 'n', 'd']).Reads t (some ([], u)) :=
        .word (afterWord?_eq_some.mp ht)
      have hbehind := reads_spaces u
      rw [Option.bind_some]
      cases hu : afterSpace? u with
      | none =>
        rw [hu] at hbehind
        exact .next_refused_second hspaces (.next_refused_second hword hbehind)
      | some r =>
        rw [hu] at hbehind
        exact .next hspaces (.next hword hbehind)

/-- The text of a clause ends where a separator or nothing is left. -/
theorem reads_clauseText (s : List Char) :
    ∃ t, s = (firstClause s).1 ++ t ∧ clauseText.Reads s (some ([], t)) ∧
      separator.Reads t (silent (firstClause s).2) ∧ ((firstClause s).2 = none → t = []) := by
  induction s with
  | nil =>
    refine ⟨[], rfl, .many_stop (.next_refused_second (.absent (reads_separator [])) ?_),
      reads_separator [], fun _ => rfl⟩
    exact reads_one_nil _
  | cons c s ih =>
    have hseparator := reads_separator (c :: s)
    unfold firstClause
    -- the repetition stops exactly where a separator stands or nothing is left
    cases hsep : afterSeparator? (c :: s) with
    | some r =>
      rw [hsep] at hseparator
      exact ⟨c :: s, rfl, .many_stop (.next_refused (.absent_refused hseparator)), hseparator,
        fun hend => absurd hend (Option.some_ne_none r)⟩
    | none =>
      rw [hsep] at hseparator
      obtain ⟨t, hs, hclause, ht, hend⟩ := ih
      refine ⟨t, congrArg (c :: ·) hs, ?_, ht, hend⟩
      exact .many_step (.next (.absent hseparator) (.one rfl)) hclause

/-- Clauses and separators are read in turn until nothing is left. Induction along the cuts. -/
theorem reads_clauseTexts (s : List Char) : clauseTexts.Reads s (some (clauses s, [])) := by
  induction s using clauses.induct with
  | case1 s clause hfirst =>
    obtain ⟨t, hs, hclause, hsep, hend⟩ := reads_clauseText s
    rw [hfirst] at hs hsep hend
    obtain rfl := hend rfl
    rw [clauses_eq_singleton clause hfirst]
    exact .next (.kept hs hclause) (.many_stop (.next_refused hsep))
  | case2 s clause rest hfirst _ ih =>
    obtain ⟨t, hs, hclause, hsep, -⟩ := reads_clauseText s
    rw [hfirst] at hs hsep
    rw [clauses_eq_cons clause rest hfirst]
    -- of what is read of the rest only its two parts are needed
    generalize clauses rest = kept at ih
    cases ih with
    | next hfirst hrest =>
      exact .next (.kept hs hclause) (.many_step (.next hsep hfirst) hrest)

/-- **The grammar of filters fails on no text**, and the clauses that it keeps are the clauses of the
text. -/
theorem reads_filter {s : List Char} {outcome : Outcome} :
    filter.Reads s outcome ↔ outcome = some (clauses s, []) := by
  have hread : filter.Reads s (some (clauses s ++ [], [])) := .next (reads_clauseTexts s) .finish
  rw [List.append_nil] at hread
  exact ⟨fun h => h.unique hread, fun h => h ▸ hread⟩

end Grammar

end AssetRegister.Filter

namespace AssetRegister.Token

open AssetRegister.Filter

/-- **The modes of reading differ only on clauses without a comparison.** Whatever the filter text is:

* the grammar reads it to its end and keeps its clauses, which stand in it as they are;
* lenient reading succeeds, and gives the tokens of the clauses that hold a comparison;
* strict reading gives the same if every clause that is not blank holds a comparison, and otherwise
  reports the first clause that does not;
* a blank text has no tokens. -/
theorem ofFilter_modes (filter : String) :
    (∀ outcome, Grammar.filter.Reads filter.toList outcome ↔
      outcome = some (clauses filter.toList, [])) ∧
    (∀ clause ∈ clauses filter.toList, clause <:+: filter.toList) ∧
    ofFilter .lenient filter = .ok ((clauses filter.toList).filterMap ofClause?) ∧
    (∀ ts, ofFilter .strict filter = .ok ts ↔
      (∀ clause ∈ clauses filter.toList, ¬Malformed clause) ∧ ofFilter .lenient filter = .ok ts) ∧
    (∀ fault, ofFilter .strict filter = .error fault ↔
      ∃ before clause after, clauses filter.toList = before ++ clause :: after ∧
        (∀ c ∈ before, ¬Malformed c) ∧ Malformed clause ∧ fault = ⟨String.ofList clause⟩) ∧
    (Text.isBlankText filter.toList = true → ∀ mode, ofFilter mode filter = .ok []) := by
  have hlenient : ofFilter .lenient filter = .ok ((clauses filter.toList).filterMap ofClause?) := by
    rw [ofFilter_eq, ofClauses_eq_ok]
    exact ⟨nofun, rfl⟩
  refine ⟨fun outcome => Grammar.reads_filter, fun clause => infix_of_mem_clauses, hlenient,
    fun ts => ?_, fun fault => ?_, fun hblank mode => if_pos hblank⟩
  -- strict reading asks once more that no clause is malformed
  · rw [hlenient, ofFilter_eq, ofClauses_eq_ok, Except.ok.injEq]
    exact and_congr_left fun _ => forall_prop_of_true rfl
  · rw [ofFilter_eq, ofClauses_eq_error]
    exact and_iff_right rfl

/-- The first of two clauses has no operator, so strict reading reports it as it stands. A text of blanks
that are no white space of filters has no tokens. -/
theorem ofFilter_modes_arrow :
    ofFilter .strict "price >> 100 and a = 1" = .error ⟨"price >> 100"⟩ ∧
      Text.isBlankText "\u00a0\u2003".toList = true ∧
      ∀ mode, ofFilter mode "\u00a0\u2003" = .ok [] := by
  have hclauses : clauses "price >> 100 and a = 1".toList =
      [] ++ "price >> 100".toList :: ["a = 1".toList] := by
    rw [clauses_eq_cons "price >> 100".toList "a = 1".toList (by decide),
      clauses_eq_singleton "a = 1".toList (by decide)]
    rfl
  have hmalformed : Malformed "price >> 100".toList := ⟨by decide, by decide⟩
  obtain ⟨-, -, -, -, hstrict, hblank⟩ := ofFilter_modes "price >> 100 and a = 1"
  refine ⟨?_, by decide, (ofFilter_modes "\u00a0\u2003").2.2.2.2.2 (by decide)⟩
  exact (hstrict _).mpr ⟨_, _, _, hclauses, List.forall_mem_nil _, hmalformed, by rfl⟩

end AssetRegister.Token
