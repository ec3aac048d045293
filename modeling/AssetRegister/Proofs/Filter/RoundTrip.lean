import AssetRegister.Proofs.Filter.Comparison

/-!
# Reading a written filter back

`Token.renderAll` writes tokens as clauses with quoted values. A value may hold white space, operators
and percent signs, but a quote in it would end it, and the separator of clauses is looked for before
quotes are. Values with neither are read back as they were written, and no others are.

Main statement: `Token.ofFilter_renderAll`.
-/

namespace AssetRegister.Token

open AssetRegister.Filter Outcome
open Text (isSpace)

/-- The field can stand in a filter: it has characters, and only those of fields. -/
def Named (t : Token) : Prop := t.field ≠ "" ∧ ∀ c ∈ t.field.toList, isWord c = true

/-- The value can stand between quotes in a filter: it has no quote, and nowhere in it do white space,
`and` and white space stand in a row. -/
def Quotable (t : Token) : Prop := '\x27' ∉ t.value.toList ∧ ¬HoldsSeparator t.value.toList

/-! ## One clause -/

/-- What stands before the value's opening quote. -/
def opening (t : Token) : List Char :=
  t.field.toList ++ ([' '] ++ (t.operator.symbol.toList ++ [' ']))

/-- A written clause, cut before the quotes of its value. -/
theorem render_eq (t : Token) :
    t.render = t.opening ++ '\x27' :: (t.value.toList ++ ['\x27']) := by
  simp [render, opening]

theorem Named.toList_ne_nil {t : Token} (h : t.Named) : t.field.toList ≠ [] :=
  fun hnil => h.1 (String.toList_eq_nil_iff.mp hnil)

/-- A written clause starts with a character of its field. -/
theorem Named.exists_cons_render {t : Token} (h : t.Named) :
    ∃ c s, t.render = c :: s ∧ isWord c = true := by
  obtain ⟨c, f, hf⟩ := List.exists_cons_of_ne_nil h.toList_ne_nil
  refine ⟨c, f ++ ([' '] ++ (t.operator.symbol.toList ++ [' '])) ++
    '\x27' :: (t.value.toList ++ ['\x27']), ?_, h.2 c (hf ▸ List.mem_cons_self)⟩
  rw [render_eq, opening, hf]
  rfl

/-- Nothing before the value looks like a separator: its only word between white space is an operator. -/
theorem Named.not_holdsSeparator_opening {t : Token} (h : t.Named) : ¬HoldsSeparator t.opening := by
  rintro ⟨a, b, ha, -, hrow⟩
  -- the row starts with white space, so it starts behind the field
  have hfield : ∀ f, (∀ c ∈ f, isWord c = true) →
      [a, 'a', 'n', 'd', b] <:+: f ++ ([' '] ++ (t.operator.symbol.toList ++ [' '])) →
      [a, 'a', 'n', 'd', b] <:+: [' '] ++ (t.operator.symbol.toList ++ [' ']) := by
    intro f hf hrow
    induction f with
    | nil => exact hrow
    | cons c f ih =>
      obtain ⟨hc, hf⟩ := List.forall_mem_cons.mp hf
      rcases List.infix_cons_iff.mp hrow with hfirst | hrow
      · rw [(List.cons_prefix_cons.mp hfirst).1, isSpace_of_isWord hc] at ha
        cases ha
      · exact ih hf hrow
  have hletter : 'd' ∈ [' '] ++ (t.operator.symbol.toList ++ [' ']) :=
    (hfield _ h.2 hrow).subset (by simp)
  have hnone : ∀ op : Operator, 'd' ∉ [' '] ++ (op.symbol.toList ++ [' ']) := by
    intro op
    cases op with
    | comparison o => cases o <;> decide
    | like => decide
    | ilike => decide
  exact hnone t.operator hletter

/-- The first clause goes on at least to the opening quote. -/
theorem Named.firstClause_opening {t : Token} (h : t.Named) (s : List Char) :
    firstClause (t.opening ++ '\x27' :: s) =
      (t.opening ++ '\x27' :: (firstClause s).1, (firstClause s).2) :=
  firstClause_append (by decide) (by decide) h.not_holdsSeparator_opening s

/-- What is read from a field, an operator and a literal in a clause. -/
theorem Named.ofClause?_opening {t : Token} (h : t.Named) {s literal : List Char}
    (hliteral : literalAt? ('\x27' :: s) = some literal) :
    ofClause? (t.opening ++ '\x27' :: s) =
      some ⟨t.field, t.operator, String.ofList (literalValue literal)⟩ := by
  have hspaces : Spaces [' '] := .singleton (by decide)
  have hquote : ∀ c ∈ ('\x27' :: s).head?, isSpace c = false := by
    intro c hc
    cases hc
    decide
  have hwritten := comparisonAt?_append t.operator h.toList_ne_nil h.2 hspaces hspaces hquote hliteral
  have hclause : t.opening ++ '\x27' :: s =
      t.field.toList ++ ([' '] ++ (t.operator.symbol.toList ++ ([' '] ++ '\x27' :: s))) := by
    simp [opening]
  unfold ofClause?
  rw [hclause, comparison?_of_comparisonAt? hwritten, Option.map_some, ofWritten, String.ofList_toList]

/-- A written clause is read back. -/
theorem ofClause?_render {t : Token} (h : t.Named) (hquote : '\x27' ∉ t.value.toList) :
    ofClause? t.render = some t := by
  have hliteral := literalAt?_quoted hquote []
  rw [render_eq, h.ofClause?_opening hliteral, literalValue_quoted hquote, String.ofList_toList]

/-- The first clause goes on to the closing quote if the value can be quoted. -/
theorem firstClause_render {t : Token} (h : t.Named) (hvalue : t.Quotable) (s : List Char) :
    firstClause (t.render ++ s) = (t.render ++ (firstClause s).1, (firstClause s).2) := by
  have hclosing := firstClause_append (q := '\x27') (by decide) (by decide) hvalue.2 s
  rw [render_eq, List.append_assoc, List.cons_append, List.append_assoc, List.singleton_append,
    h.firstClause_opening, hclosing]
  simp

/-! ## Several clauses -/

/-- The clauses of a filter, written one after another. -/
def joined (ts : List Token) : List Char :=
  ((ts.map render).intersperse [' ', 'a', 'n', 'd', ' ']).flatten

theorem joined_cons_cons (t u : Token) (ts : List Token) :
    joined (t :: u :: ts) = t.render ++ ([' ', 'a', 'n', 'd', ' '] ++ joined (u :: ts)) := by
  simp [joined]

/-- Written clauses start with a character of a field too. -/
theorem exists_cons_joined {t : Token} (h : t.Named) (ts : List Token) :
    ∃ c s, joined (t :: ts) = c :: s ∧ isWord c = true := by
  obtain ⟨c, s, hs, hc⟩ := h.exists_cons_render
  cases ts with
  | nil => exact ⟨c, s, by simp [joined, hs], hc⟩
  | cons u ts =>
    exact ⟨c, s ++ ([' ', 'a', 'n', 'd', ' '] ++ joined (u :: ts)),
      by rw [joined_cons_cons, hs, List.cons_append], hc⟩

/-- Written clauses are cut where they were joined. Induction on the tokens: a clause ends at the
separator behind it, since there is none within it and the next clause does not start with white
space. -/
theorem clauses_joined {t : Token} {ts : List Token} (h : ∀ u ∈ t :: ts, u.Named ∧ u.Quotable) :
    clauses (joined (t :: ts)) = (t :: ts).map render := by
  induction ts generalizing t with
  | nil =>
    obtain ⟨hnamed, hvalue⟩ := h t List.mem_cons_self
    have hfirst := firstClause_render hnamed hvalue []
    rw [List.append_nil] at hfirst
    have hjoined : joined [t] = t.render := by simp [joined]
    rw [hjoined]
    exact clauses_eq_singleton _ (hfirst.trans (by simp [firstClause]))
  | cons u ts ih =>
    obtain ⟨⟨hnamed, hvalue⟩, hrest⟩ := List.forall_mem_cons.mp h
    obtain ⟨c, s, hs, hc⟩ := exists_cons_joined (hrest u List.mem_cons_self).1 ts
    -- the separator ends before the field of the next clause
    have hsep : afterSeparator? ([' ', 'a', 'n', 'd', ' '] ++ joined (u :: ts)) =
        some (joined (u :: ts)) := by
      refine afterSeparator?_eq_some.mpr
        ⟨[' '], [' '], .singleton (by decide), .singleton (by decide), rfl, ?_⟩
      rw [hs]
      intro d hd
      cases hd
      exact isSpace_of_isWord hc
    have hfirst := firstClause_render hnamed hvalue ([' ', 'a', 'n', 'd', ' '] ++ joined (u :: ts))
    rw [List.cons_append] at hsep hfirst
    rw [firstClause, hsep] at hfirst
    dsimp only at hfirst
    rw [List.append_nil] at hfirst
    rw [joined_cons_cons, List.map_cons, ← ih hrest]
    exact clauses_eq_cons _ _ hfirst

/-- Written clauses are read back one by one. -/
theorem ofClauses_render {mode : ParseMode} {ts : List Token}
    (h : ∀ t ∈ ts, t.Named ∧ t.Quotable) : ofClauses mode (ts.map render) = .ok ts := by
  induction ts with
  | nil => rfl
  | cons t ts ih =>
    obtain ⟨⟨hnamed, hvalue⟩, hts⟩ := List.forall_mem_cons.mp h
    rw [List.map_cons, ofClauses, ofClause?_render hnamed hvalue.1]
    dsimp only
    rw [ih hts]
    rfl

/-- A filter that is written from some tokens is not blank. -/
theorem isBlankText_joined {t : Token} (h : t.Named) (ts : List Token) :
    Text.isBlankText (joined (t :: ts)) = false := by
  obtain ⟨c, s, hs, hc⟩ := exists_cons_joined h ts
  rw [hs]
  show (Text.isBlank c && s.all Text.isBlank) = false
  rw [isBlank_of_isWord hc, Bool.false_and]

/-- A filter text that is written from tokens is cut into clauses. -/
theorem ofFilter_joined {t : Token} (h : t.Named) (ts : List Token) (mode : ParseMode) :
    ofFilter mode (renderAll (t :: ts)) = ofClauses mode (clauses (joined (t :: ts))) := by
  have htext : (renderAll (t :: ts)).toList = joined (t :: ts) := by
    unfold renderAll
    rw [String.toList_ofList]
    rfl
  unfold ofFilter
  rw [htext, isBlankText_joined h]
  rfl

/-- A filter text that is written from tokens is read back if their values can be quoted. -/
theorem ofFilter_renderAll_of_quotable (mode : ParseMode) {ts : List Token}
    (h : ∀ t ∈ ts, t.Named ∧ t.Quotable) : ofFilter mode (renderAll ts) = .ok ts := by
  cases ts with
  | nil => rfl
  | cons t ts =>
    rw [ofFilter_joined (h t List.mem_cons_self).1, clauses_joined h]
    exact ofClauses_render h

/-! ## Values that cannot be quoted -/

/-- If the value has no quote but a separator, the first clause ends within the value, so no value with
white space is read from it. -/
theorem exists_clauses_cut {t : Token} (h : t.Named) (hquote : '\x27' ∉ t.value.toList)
    (hsep : HoldsSeparator t.value.toList) :
    ∃ clause rest u, clauses (joined [t]) = clause :: rest ∧ ofClause? clause = some u ∧
      ∀ c ∈ u.value.toList, isSpace c = false := by
  -- the separator in the value ends the first clause
  have hrow : HoldsSeparator (t.value.toList ++ ['\x27']) :=
    hsep.mono (List.prefix_append _ _).isInfix
  obtain ⟨left, right, hfirst⟩ := exists_firstClause_eq_some hrow
  obtain ⟨sep, htext, hafter⟩ := firstClause_eq_some hfirst
  -- so the closing quote is behind it
  have hleft : '\x27' ∉ left := by
    have hne : sep ++ right ≠ [] := by
      intro hnil
      rw [hnil] at hafter
      cases hafter
    have hstart : left <+: t.value.toList := by
      have hwhole : left <+: t.value.toList ++ ['\x27'] :=
        ⟨sep ++ right, by rw [htext, List.append_assoc]⟩
      refine List.prefix_of_prefix_length_le hwhole (List.prefix_append _ _) ?_
      have hlength := congrArg List.length htext
      have hpos := List.length_pos_iff.mpr hne
      simp only [List.length_append, List.length_singleton] at hlength hpos
      omega
    exact fun hmem => hquote (hstart.subset hmem)
  refine ⟨t.opening ++ '\x27' :: left, clauses right, _, ?_,
    h.ofClause?_opening (literalAt?_unclosed hleft), ?_⟩
  · have hjoined : joined [t] = t.opening ++ '\x27' :: (t.value.toList ++ ['\x27']) := by
      simp [joined, render_eq]
    refine clauses_eq_cons _ _ ?_
    rw [hjoined, h.firstClause_opening, hfirst]
  · -- the literal is bare, and a bare literal ends at white space
    intro c hc
    rw [String.toList_ofList] at hc
    obtain ⟨hc, hne⟩ := mem_literalValue hc
    rcases List.mem_cons.mp hc with rfl | hc
    · exact absurd rfl hne
    · simpa using List.mem_takeWhile_imp hc

/-- **A written filter is read back, exactly if its values can be quoted.** Fields are words, and values
are arbitrary texts:

* tokens whose values have no quote and no separator are read back in order, in both modes;
* a single token with any other value is not read back. -/
theorem ofFilter_renderAll (mode : ParseMode) :
    (∀ ts : List Token, (∀ t ∈ ts, t.Named ∧ t.Quotable) → ofFilter mode (renderAll ts) = .ok ts) ∧
    ∀ t : Token, t.Named → (ofFilter mode (renderAll [t]) = .ok [t] ↔ t.Quotable) := by
  have hread : ∀ ts : List Token, (∀ t ∈ ts, t.Named ∧ t.Quotable) →
      ofFilter mode (renderAll ts) = .ok ts := fun ts => ofFilter_renderAll_of_quotable mode
  refine ⟨hread, fun t hnamed => ⟨fun hok => ?_, fun hvalue => ?_⟩⟩
  · have hquote := quote_notMem_value hok t List.mem_cons_self
    refine ⟨hquote, fun hsep => ?_⟩
    -- the value has white space, and the first value that is read has none
    obtain ⟨c, hc, hspace⟩ := hsep.exists_space
    obtain ⟨clause, rest, u, hclauses, hu, hnone⟩ := exists_clauses_cut hnamed hquote hsep
    rw [ofFilter_joined hnamed, hclauses, ofClauses, hu] at hok
    obtain ⟨us, -, hus⟩ := map_eq_ok.mp hok
    cases hus
    rw [hnone c hc] at hspace
    cases hspace
  · exact hread [t] (List.forall_mem_singleton.mpr ⟨hnamed, hvalue⟩)

/-- Clauses whose fields are called `and` and `like`, with values that are empty or have percent signs,
operators and a line break. -/
theorem ofFilter_renderAll_and :
    ofFilter .strict (renderAll [⟨"and", .like, "%a >= b\n%"⟩, ⟨"like", .ilike, ""⟩]) =
      .ok [⟨"and", .like, "%a >= b\n%"⟩, ⟨"like", .ilike, ""⟩] ∧
    ofFilter .lenient (renderAll [⟨"name", .comparison .eq, "salt and pepper"⟩]) ≠
      .ok [⟨"name", .comparison .eq, "salt and pepper"⟩] := by
  have hnone : ∀ s : List Char, 'd' ∉ s → ¬HoldsSeparator s := by
    rintro s hs ⟨a, b, -, -, hrow⟩
    exact hs (hrow.subset (by simp))
  have hfield : ∀ s : String, s.toList.all isWord = true → ∀ c ∈ s.toList, isWord c = true :=
    fun s => List.all_eq_true.mp
  constructor
  · refine (ofFilter_renderAll .strict).1 _ (List.forall_mem_cons.mpr ⟨?_,
      List.forall_mem_singleton.mpr ?_⟩)
    · exact ⟨⟨by decide, hfield "and" rfl⟩, by decide, hnone _ (by decide)⟩
    · exact ⟨⟨by decide, hfield "like" rfl⟩, by decide, hnone _ (by decide)⟩
  · intro hok
    have hvalue := ((ofFilter_renderAll .lenient).2 _ ⟨by decide, hfield "name" rfl⟩).mp hok
    exact hvalue.2 ⟨' ', ' ', by decide, by decide, "salt".toList, "pepper".toList, by decide⟩

end AssetRegister.Token
