import AssetRegister.Proofs.Filter.Comparison
import Mathlib.Order.WellFounded

/-!
# The leftmost comparison of a clause

A comparison is read part by part, each as far as it goes, and nothing that has been read is given back.
What is found is said here without following the reader. A `Cut` divides a clause before a field, behind
it, around its operator, and before the literal; there may be several ways to do so, and the one with the
least text in front is read.

* `comparisonAt?_eq_some`: no way to cut a text at its start is missed by reading without return.
* `literalAt?_eq_some`: a literal ends at its second quote, or else before white space.

Main statement: `Token.ofClause?_leftmost`.
-/

namespace AssetRegister.Filter

open Text (isSpace)

/-! ## Literals and their values -/

/-- The text starts with a quote and has another one. -/
def Quoted (s : List Char) : Prop := ∃ t, s = '\x27' :: t ∧ '\x27' ∈ t

/-- The literal at the start of a text. It goes to the second quote if the text starts with a quote and
has another one, and otherwise it is the longest start without white space. -/
inductive Literal : List Char → List Char → Prop where
  | quoted {v : List Char} (s : List Char) (hv : '\x27' ∉ v) :
      Literal ('\x27' :: (v ++ '\x27' :: s)) ('\x27' :: (v ++ ['\x27']))
  | bare {v s : List Char} (hopen : ¬Quoted (v ++ s)) (hv : ∀ c ∈ v, isSpace c = false)
      (hs : ∀ c ∈ s.head?, isSpace c = true) : Literal (v ++ s) v

/-- The value that a literal stands for: one percent sign is dropped at its start if there is one, then
one at the end of what is left, then every quote. -/
def StandsFor (literal value : List Char) : Prop :=
  ∃ s t, (literal = '%' :: s ∨ literal.head? ≠ some '%' ∧ s = literal) ∧
    (s = t ++ ['%'] ∨ s.getLast? ≠ some '%' ∧ t = s) ∧ value = t.filter (· != '\x27')

/-- What a quoted text has before its second quote. -/
theorem Quoted.exists_split {s : List Char} (h : Quoted s) :
    ∃ v t, s = '\x27' :: (v ++ '\x27' :: t) ∧ '\x27' ∉ v := by
  obtain ⟨t, rfl, hquote⟩ := h
  obtain ⟨v, u, rfl, hv⟩ := List.eq_append_cons_of_mem hquote
  exact ⟨v, u, rfl, hv⟩

/-- A text has no quoted literal exactly if no second quote comes behind the first. -/
theorem quotedAt?_eq_none {s : List Char} : quotedAt? s = none ↔ ¬Quoted s := by
  unfold quotedAt?
  split
  · next t =>
    -- behind a quote at the start everything depends on a second one
    by_cases hquote : '\x27' ∈ t
    · refine iff_of_false ?_ (not_not_intro ⟨t, rfl, hquote⟩)
      rw [if_pos (by simpa using hquote)]
      exact Option.some_ne_none _
    · refine iff_of_true (if_neg (by simpa using hquote)) ?_
      rintro ⟨u, hu, hmem⟩
      exact hquote ((List.cons.inj hu).2 ▸ hmem)
  · next hstart =>
    refine iff_of_true rfl ?_
    rintro ⟨t, rfl, -⟩
    exact hstart t rfl

/-- A start without white space that white space ends, or nothing, is the longest one. -/
theorem takeWhile_not_isSpace {v s : List Char} (hv : ∀ c ∈ v, isSpace c = false)
    (hs : ∀ c ∈ s.head?, isSpace c = true) : (v ++ s).takeWhile (!isSpace ·) = v :=
  Text.takeWhile_append (fun c hc => by rw [hv c hc]; rfl) fun c hc => by rw [hs c hc]; rfl

/-- The literal that is read is the one at the start of the text, which must not be empty. -/
theorem literalAt?_eq_some {r literal : List Char} :
    literalAt? r = some literal ↔ Literal r literal ∧ literal ≠ [] := by
  constructor
  · intro h
    by_cases hr : Quoted r
    · obtain ⟨v, s, rfl, hv⟩ := hr.exists_split
      cases (literalAt?_quoted hv s).symm.trans h
      exact ⟨.quoted s hv, List.cons_ne_nil _ _⟩
    · unfold literalAt? at h
      rw [quotedAt?_eq_none.mpr hr] at h
      dsimp only at h
      split at h
      · cases h
      · next hne =>
        cases h
        -- the longest start without white space, and what comes after it
        have hcut := List.takeWhile_append_dropWhile (p := (!isSpace ·)) (l := r)
        refine ⟨?_, by simpa using hne⟩
        conv => arg 1; rw [← hcut]
        refine .bare (by rwa [hcut]) (fun c hc => by simpa using List.mem_takeWhile_imp hc) ?_
        intro c hc
        have hhead := List.head?_dropWhile_not (!isSpace ·) r
        rw [Option.mem_def.mp hc] at hhead
        simpa using hhead
  · rintro ⟨h, hne⟩
    cases h with
    | quoted s hv => exact literalAt?_quoted hv s
    | bare hopen hv hs =>
      unfold literalAt?
      rw [quotedAt?_eq_none.mpr hopen]
      dsimp only
      rw [takeWhile_not_isSpace hv hs, if_neg (by simpa using hne)]

/-- There is a literal wherever something else than white space stands. -/
theorem exists_literal {c : Char} (hc : isSpace c = false) (s : List Char) :
    ∃ literal, Literal (c :: s) literal ∧ literal ≠ [] := by
  cases h : literalAt? (c :: s) with
  | some literal => exact ⟨literal, literalAt?_eq_some.mp h⟩
  | none =>
    unfold literalAt? at h
    split at h
    · cases h
    · simp [List.takeWhile_cons_of_pos, hc] at h

/-- A literal does not start with white space. -/
theorem Literal.head_ne {r literal : List Char} (h : Literal r literal) (hne : literal ≠ []) :
    ∃ c s, r = c :: s ∧ isSpace c = false := by
  cases h with
  | quoted s hv => exact ⟨_, _, rfl, by decide⟩
  | bare hopen hv hs =>
    obtain ⟨c, v, rfl⟩ := List.exists_cons_of_ne_nil hne
    exact ⟨c, _, rfl, hv c List.mem_cons_self⟩

/-- One percent sign is dropped at the start, or there is none. -/
theorem withoutLeadingPercent_cases (s : List Char) :
    s = '%' :: withoutLeadingPercent s ∨ s.head? ≠ some '%' ∧ withoutLeadingPercent s = s := by
  unfold withoutLeadingPercent
  split
  · exact .inl rfl
  · next hstart =>
    refine .inr ⟨fun hhead => ?_, rfl⟩
    obtain ⟨t, rfl⟩ := List.head?_eq_some_iff.mp hhead
    exact hstart t rfl

/-- One is dropped at the end, or there is none there. -/
theorem withoutTrailingPercent_cases (s : List Char) :
    s = withoutTrailingPercent s ++ ['%'] ∨
      s.getLast? ≠ some '%' ∧ withoutTrailingPercent s = s := by
  unfold withoutTrailingPercent
  rcases withoutLeadingPercent_cases s.reverse with h | ⟨hhead, h⟩
  · left
    rw [← List.reverse_cons, ← h, List.reverse_reverse]
  · rw [List.head?_reverse] at hhead
    exact .inr ⟨hhead, by rw [h, List.reverse_reverse]⟩

/-- The value that is read is the one that the literal stands for. -/
theorem standsFor_literalValue (literal : List Char) : StandsFor literal (literalValue literal) :=
  ⟨_, _, withoutLeadingPercent_cases literal, withoutTrailingPercent_cases _, rfl⟩

/-! ## Cuts at comparisons -/

/-- A way to cut a clause at a comparison: the text before it, its field and operator, and the text from
its literal on. -/
structure Cut where
  before : List Char
  field : List Char
  operator : Operator
  rest : List Char

namespace Cut

/-- The parts stand in the clause one after another, with white space before and behind the operator. The
field is made of characters of fields, and the literal does not start with white space. -/
structure In (p : Cut) (clause : List Char) : Prop where
  field_ne_nil : p.field ≠ []
  isWord_field : ∀ c ∈ p.field, isWord c = true
  head_rest : ∃ c s, p.rest = c :: s ∧ isSpace c = false
  parts : ∃ w₁ w₂, Spaces w₁ ∧ Spaces w₂ ∧
    clause = p.before ++ (p.field ++ (w₁ ++ (p.operator.symbol.toList ++ (w₂ ++ p.rest))))

/-- No other way to cut the clause has less text in front. -/
def Leftmost (p : Cut) (clause : List Char) : Prop :=
  p.In clause ∧ ∀ q : Cut, q.In clause → p.before.length ≤ q.before.length

/-- A cut stays one if something is put in front of the clause. -/
theorem In.cons {p : Cut} {clause : List Char} (h : p.In clause) (c : Char) :
    Cut.In { p with before := c :: p.before } (c :: clause) := by
  obtain ⟨hne, hword, hhead, w₁, w₂, hw₁, hw₂, rfl⟩ := h
  exact ⟨hne, hword, hhead, w₁, w₂, hw₁, hw₂, rfl⟩

/-- If there is any cut, there is a leftmost one. -/
theorem In.exists_leftmost {p : Cut} {clause : List Char} (h : p.In clause) :
    ∃ q : Cut, q.Leftmost clause := by
  obtain ⟨q, hq, hmin⟩ :=
    (measure fun p : Cut => p.before.length).wf.has_min {p | p.In clause} ⟨p, h⟩
  exact ⟨q, hq, fun r hr => Nat.le_of_not_lt (hmin r hr)⟩

end Cut

/-! ## Reading at a cut -/

/-- The operator that is read stands there with its symbol. -/
theorem append_of_operatorAt? {s r : List Char} {op : Operator} (h : operatorAt? s = some (op, r)) :
    s = op.symbol.toList ++ r := by
  obtain ⟨op', -, hop⟩ := List.exists_of_findSome?_eq_some h
  obtain ⟨t, ht, hpair⟩ := Option.map_eq_some_iff.mp hop
  cases hpair
  exact afterWord?_eq_some.mp ht

/-- Reading at the start of a text finds what stands there, and misses nothing: a field, white space and
an operator end where the next part starts, so none of them goes too far. -/
theorem comparisonAt?_eq_some {s : List Char} {w : Written} :
    comparisonAt? s = some w ↔
      ∃ r, (Cut.mk [] w.field w.operator r).In s ∧ literalAt? r = some w.literal := by
  constructor
  · intro h
    unfold comparisonAt? at h
    dsimp only at h
    split at h
    · cases h
    · next hne =>
      simp only [Option.bind_eq_some_iff, Option.map_eq_some_iff, Prod.exists] at h
      obtain ⟨s₁, hs₁, op, s₂, hs₂, r, hr, literal, hliteral, rfl⟩ := h
      -- each part that was read stands in the text, one after another
      obtain ⟨w₁, hw₁, hs₁, -⟩ := afterSpace?_eq_some.mp hs₁
      obtain ⟨w₂, hw₂, rfl, -⟩ := afterSpace?_eq_some.mp hr
      refine ⟨r, ⟨by simpa using hne, fun c hc => List.mem_takeWhile_imp hc, ?_,
        w₁, w₂, hw₁, hw₂, ?_⟩, hliteral⟩
      · obtain ⟨hword, hnonempty⟩ := literalAt?_eq_some.mp hliteral
        exact hword.head_ne hnonempty
      · conv => lhs; rw [← List.takeWhile_append_dropWhile (p := isWord) (l := s)]
        rw [hs₁, append_of_operatorAt? hs₂]
        rfl
  · rintro ⟨r, ⟨hne, hword, ⟨c, s, rfl, hc⟩, w₁, w₂, hw₁, hw₂, rfl⟩, hliteral⟩
    exact comparisonAt?_append w.operator hne hword hw₁ hw₂ (fun d hd => by cases hd; exact hc)
      hliteral

/-- Where a comparison is read, the clause can be cut. -/
theorem exists_in_of_comparison? {clause : List Char} {w : Written}
    (h : comparison? clause = some w) : ∃ p : Cut, p.In clause := by
  induction clause with
  | nil => cases h
  | cons c s ih =>
    unfold comparison? at h
    split at h
    · next hw =>
      obtain ⟨r, hin, -⟩ := comparisonAt?_eq_some.mp hw
      exact ⟨_, hin⟩
    · obtain ⟨p, hp⟩ := ih h
      exact ⟨_, hp.cons c⟩

/-- The leftmost cut is the one that is read. Induction on the text before it, at whose first character
nothing can be read. -/
theorem Cut.Leftmost.comparison?_eq {p : Cut} {clause literal : List Char} (h : p.Leftmost clause)
    (hliteral : literalAt? p.rest = some literal) :
    comparison? clause = some ⟨p.field, p.operator, literal⟩ := by
  obtain ⟨before, field, operator, rest⟩ := p
  induction before generalizing clause with
  | nil => exact comparison?_of_comparisonAt? (comparisonAt?_eq_some.mpr ⟨rest, h.1, hliteral⟩)
  | cons c before ih =>
    obtain ⟨⟨hne, hword, hhead, w₁, w₂, hw₁, hw₂, rfl⟩, hmin⟩ := h
    rw [List.cons_append] at hmin ⊢
    unfold comparison?
    split
    -- what is read here would be a cut further left
    · next w hw =>
      obtain ⟨r, hin, -⟩ := comparisonAt?_eq_some.mp hw
      exact absurd (hmin _ hin) (by simp)
    · refine ih ⟨⟨hne, hword, hhead, w₁, w₂, hw₁, hw₂, rfl⟩, fun q hq => ?_⟩ hliteral
      exact Nat.le_of_succ_le_succ (hmin _ (hq.cons c))

/-- The field of the leftmost cut is a whole word: a further character of fields in front of it would
belong to the field of a cut further left. -/
theorem Cut.Leftmost.not_isWord_before {p : Cut} {clause : List Char} (h : p.Leftmost clause) :
    ∀ c ∈ p.before.getLast?, isWord c = false := by
  intro c hc
  by_contra hword
  obtain ⟨before, hbefore⟩ := List.getLast?_eq_some_iff.mp hc
  obtain ⟨⟨hne, hfield, hhead, w₁, w₂, hw₁, hw₂, hclause⟩, hmin⟩ := h
  have hlonger : (Cut.mk before (c :: p.field) p.operator p.rest).In clause := by
    refine ⟨List.cons_ne_nil _ _, List.forall_mem_cons.mpr ⟨by simpa using hword, hfield⟩, hhead,
      w₁, w₂, hw₁, hw₂, ?_⟩
    rw [hclause, hbefore]
    simp
  have hle := hmin _ hlonger
  rw [hbefore, List.length_append] at hle
  exact Nat.lt_irrefl _ hle

end AssetRegister.Filter

namespace AssetRegister.Token

open AssetRegister.Filter
open Text (isSpace)

/-- **A clause is read exactly if a comparison stands in it, and then the leftmost one is taken.**

* There is a token if and only if the clause can be cut at a comparison.
* Wherever it is cut with the least text in front, the field is a whole word, the token has its field and
  operator, and its value is what the literal there stands for. A value has no quote, and white space only
  if its literal is quoted. -/
theorem ofClause?_leftmost (clause : List Char) :
    ((∃ t, ofClause? clause = some t) ↔ ∃ p : Cut, p.In clause) ∧
    ∀ p : Cut, p.Leftmost clause →
      (∀ c ∈ p.before.getLast?, isWord c = false) ∧
      ∃ literal value, Literal p.rest literal ∧ StandsFor literal value ∧
        ofClause? clause = some ⟨String.ofList p.field, p.operator, String.ofList value⟩ ∧
        '\x27' ∉ value ∧ ((∃ c ∈ value, isSpace c = true) → Quoted p.rest) := by
  have hread : ∀ p : Cut, p.Leftmost clause → ∃ literal, Literal p.rest literal ∧
      ofClause? clause =
        some ⟨String.ofList p.field, p.operator, String.ofList (literalValue literal)⟩ := by
    intro p hp
    obtain ⟨c, s, hrest, hc⟩ := hp.1.head_rest
    obtain ⟨literal, hliteral, hne⟩ := exists_literal hc s
    rw [← hrest] at hliteral
    refine ⟨literal, hliteral, ?_⟩
    unfold ofClause?
    rw [hp.comparison?_eq (literalAt?_eq_some.mpr ⟨hliteral, hne⟩)]
    rfl
  refine ⟨⟨?_, ?_⟩, fun p hp => ⟨hp.not_isWord_before, ?_⟩⟩
  · rintro ⟨t, ht⟩
    obtain ⟨w, hw, -⟩ := Option.map_eq_some_iff.mp ht
    exact exists_in_of_comparison? hw
  · rintro ⟨p, hp⟩
    obtain ⟨q, hq⟩ := hp.exists_leftmost
    obtain ⟨literal, -, htoken⟩ := hread q hq
    exact ⟨_, htoken⟩
  · obtain ⟨literal, hliteral, htoken⟩ := hread p hp
    refine ⟨literal, _, hliteral, standsFor_literalValue literal, htoken,
      fun hquote => (mem_literalValue hquote).2 rfl, ?_⟩
    rintro ⟨c, hc, hspace⟩
    -- a bare literal has no white space, and its value has only characters of the literal
    by_contra hopen
    have hmem := (mem_literalValue hc).1
    generalize hrest : p.rest = rest at hliteral hopen
    cases hliteral with
    | quoted s hv => exact hopen ⟨_, rfl, List.mem_append_right _ List.mem_cons_self⟩
    | bare _ hv _ =>
      rw [hv c hmem] at hspace
      cases hspace

/-- A clause with noise in front, percent signs and a space between its quotes, and a second comparison. -/
def noisyClause : List Char := "(name like '%a b%') x = 1".toList

/-- The first comparison of the clause, behind the bracket. -/
def noisyCut : Cut where
  before := ['(']
  field := "name".toList
  operator := .like
  rest := "'%a b%') x = 1".toList

/-- The field is the whole word behind the bracket, and the value keeps what is between the quotes. -/
theorem ofClause?_leftmost_noisy :
    noisyCut.Leftmost noisyClause ∧ (∀ c ∈ noisyCut.before.getLast?, isWord c = false) ∧
      Quoted noisyCut.rest ∧ ofClause? noisyClause = some ⟨"name", .like, "%a b%"⟩ := by
  have hin : noisyCut.In noisyClause := by
    refine ⟨by decide, List.all_eq_true.mp (by decide), ⟨_, _, rfl, by decide⟩, [' '], [' '], ?_, ?_, rfl⟩
    · exact .singleton (by decide)
    · exact .singleton (by decide)
  -- no field starts at the bracket
  have hleftmost : noisyCut.Leftmost noisyClause := by
    refine ⟨hin, fun q hq => Nat.succ_le_of_lt (List.length_pos_iff.mpr fun hnil => ?_)⟩
    obtain ⟨hne, hword, -, w₁, w₂, -, -, hclause⟩ := hq
    obtain ⟨c, f, hf⟩ := List.exists_cons_of_ne_nil hne
    rw [hnil, hf] at hclause
    cases (List.cons.inj hclause).1
    exact absurd (hword _ (hf ▸ List.mem_cons_self)) (by decide)
  have htoken : ofClause? noisyClause = some ⟨"name", .like, "%a b%"⟩ := by decide
  obtain ⟨hbefore, literal, value, -, -, hsome, -, hquoted⟩ :=
    (ofClause?_leftmost noisyClause).2 noisyCut hleftmost
  refine ⟨hleftmost, hbefore, hquoted ⟨' ', ?_, by decide⟩, htoken⟩
  have hvalue : "%a b%" = String.ofList value := by
    have := hsome.symm.trans htoken
    simp only [Option.some.injEq, Token.mk.injEq] at this
    exact this.2.2.symm
  have hmem : ' ' ∈ (String.ofList value).toList := hvalue ▸ (by decide : ' ' ∈ "%a b%".toList)
  rwa [String.toList_ofList] at hmem

end AssetRegister.Token
