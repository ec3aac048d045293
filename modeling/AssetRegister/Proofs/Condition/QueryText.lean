import AssetRegister.Proofs.Condition.Built
import AssetRegister.Proofs.Filter.Clauses

/-!
# Query texts and their placeholders

A query text is made of the catalog's names, fixed words and placeholders; the operands are bound beside
it. `placeholders` counts the placeholders of a text. No name of the catalog has one, so a predicate that
can be built has one for each operand, and they stand in the order of the operands.

`Predicate.form` is what is left of a predicate without its operands. It determines the query text, so
the words that a caller chooses never get into it.

Main statement: `Predicate.queryText_parametric`.
-/

namespace AssetRegister

open Outcome

/-! ## Counting placeholders -/

/-- The number of placeholders in a text. -/
def placeholders (text : String) : Nat := text.toList.count '?'

theorem placeholders_append (s t : String) :
    placeholders (s ++ t) = placeholders s + placeholders t := by
  unfold placeholders
  rw [String.toList_append, List.count_append]

theorem placeholders_join_cons (s : String) (texts : List String) :
    placeholders (String.join (s :: texts)) = placeholders s + placeholders (String.join texts) := by
  rw [String.join_cons, placeholders_append]

/-- A joined text is cut at each of its parts: the parts before it and behind it keep their
placeholders, and separators have none. Induction on the parts before. -/
theorem intercalate_split {sep : String} (hsep : placeholders sep = 0) (before : List String)
    (s : String) (after : List String) :
    ∃ left right, String.intercalate sep (before ++ s :: after) = left ++ s ++ right ∧
      placeholders left = placeholders (String.join before) ∧
      placeholders right = placeholders (String.join after) := by
  induction before with
  | nil =>
    induction after generalizing s with
    | nil =>
      refine ⟨"", "", ?_, by rw [String.join_nil], by rw [String.join_nil]⟩
      rw [List.nil_append, String.intercalate_singleton, String.empty_append, String.append_empty]
    | cons t after ih =>
      obtain ⟨left, right, htext, hleft, hright⟩ := ih t
      refine ⟨"", sep ++ (left ++ t ++ right), ?_, by rw [String.join_nil], ?_⟩
      · rw [List.nil_append] at htext ⊢
        rw [String.intercalate_cons_cons, htext, String.empty_append, String.append_assoc]
      · rw [String.join_nil] at hleft
        rw [placeholders_join_cons, placeholders_append, placeholders_append, placeholders_append,
          hsep, hleft, hright]
        show 0 + (0 + placeholders t + placeholders (String.join after)) = _
        omega
  | cons t before ih =>
    obtain ⟨left, right, htext, hleft, hright⟩ := ih
    -- one more text and a separator in front, nothing new behind
    refine ⟨t ++ sep ++ left, right, ?_, ?_, hright⟩
    · rw [List.cons_append, String.intercalate_cons_of_ne_nil (by simp), htext]
      simp only [String.append_assoc]
    · rw [placeholders_append, placeholders_append, hsep, hleft, placeholders_join_cons, Nat.add_zero]

/-- Joining texts by a separator without placeholders adds none. -/
theorem placeholders_intercalate {sep : String} (hsep : placeholders sep = 0) (texts : List String) :
    placeholders (String.intercalate sep texts) = placeholders (String.join texts) := by
  cases texts with
  | nil => rw [String.intercalate_nil, String.join_nil]
  | cons s after =>
    obtain ⟨left, right, htext, hleft, hright⟩ := intercalate_split hsep [] s after
    rw [List.nil_append] at htext
    rw [String.join_nil] at hleft
    rw [htext, placeholders_append, placeholders_append, hleft, hright, placeholders_join_cons]
    show 0 + placeholders s + _ = _
    omega

theorem placeholders_join_replicate (n : Nat) :
    placeholders (String.join (List.replicate n "?")) = n := by
  have hone : placeholders "?" = 1 := rfl
  induction n with
  | zero =>
    rw [List.replicate_zero, String.join_nil]
    rfl
  | succ n ih =>
    rw [List.replicate_succ, placeholders_join_cons, hone, ih]
    omega

/-! ## Names of the catalog -/

namespace Entity

/-- No column that an attribute names has a placeholder. -/
theorem placeholders_column {e : Entity} {a : Attribute} (ha : a ∈ e.attributes) :
    placeholders a.column = 0 := by
  revert a
  cases e <;> decide

theorem placeholders_table (e : Entity) : placeholders e.table = 0 := by
  cases e <;> rfl

theorem placeholders_qualified (e : Entity) {column : String} (h : placeholders column = 0) :
    placeholders (e.qualified column) = 0 := by
  have hdot : placeholders "." = 0 := rfl
  unfold qualified
  rw [placeholders_append, placeholders_append, placeholders_table, hdot, h]

end Entity

/-! ## One placeholder for each operand -/

/-- The text of a membership in a list that is not empty. -/
theorem Test.queryText_among (column : String) {vs : List Operand} (h : vs ≠ []) :
    (among vs).queryText column =
      column ++ " IN (" ++ String.intercalate ", " (List.replicate vs.length "?") ++ ")" := by
  cases vs with
  | nil => exact absurd rfl h
  | cons v vs =>
    rw [← List.map_const']
    rfl

/-- A test has one placeholder for each of its operands. -/
theorem Test.placeholders_queryText {column : String} (h : placeholders column = 0) (t : Test) :
    placeholders (t.queryText column) = t.operands.length := by
  cases t with
  | compare c v =>
    have hsymbol : placeholders c.symbol = 0 := by cases c <;> rfl
    show placeholders (column ++ " " ++ c.symbol ++ " ?") = 1
    rw [placeholders_append, placeholders_append, placeholders_append, h, hsymbol]
    rfl
  | like pattern =>
    show placeholders (column ++ " LIKE ?") = 1
    rw [placeholders_append, h]
    rfl
  | ilike pattern =>
    show placeholders ("unicode_lower(" ++ column ++ ") LIKE ?") = 1
    rw [placeholders_append, placeholders_append, h]
    rfl
  | among vs =>
    cases vs with
    | nil =>
      show placeholders "0 = 1" = 0
      rfl
    | cons v vs =>
      -- one placeholder for each value, and none in what surrounds them
      have hcomma : placeholders ", " = 0 := rfl
      have hmarks : placeholders (String.intercalate ", " (List.replicate (v :: vs).length "?")) =
          (v :: vs).length := by
        rw [placeholders_intercalate hcomma, placeholders_join_replicate]
      rw [queryText_among column (List.cons_ne_nil v vs), placeholders_append, placeholders_append,
        placeholders_append, h, hmarks]
      exact Nat.zero_add _
  | isNull =>
    show placeholders (column ++ " IS NULL") = 0
    rw [placeholders_append, h]
    rfl

/-- A subquery has the placeholders of the text inside. -/
theorem Hop.placeholders_queryText {h : Hop} (hcolumn : placeholders h.column = 0)
    (inner : String) : placeholders (h.queryText inner) = placeholders inner := by
  have hid : placeholders h.target.primaryKey = 0 := by
    show placeholders "id" = 0
    rfl
  unfold queryText
  simp only [placeholders_append, Entity.placeholders_table, Entity.placeholders_qualified _ hcolumn,
    Entity.placeholders_qualified _ hid]
  show 0 + 0 + 0 + 0 + 0 + 0 + placeholders inner + 0 = placeholders inner
  omega

/-- The subqueries around a text add no placeholder. Induction on the chain of relations. -/
theorem Chain.placeholders_queryText {e last : Entity} {hops : List Hop} (h : Chain e hops last)
    (inner : String) : placeholders (hops.foldr Hop.queryText inner) = placeholders inner := by
  induction h with
  | nil => rfl
  | cons hname _ _ ih =>
    rw [List.foldr_cons, Hop.placeholders_queryText, ih]
    exact Entity.placeholders_column (Entity.mem_of_attribute? hname)

/-- A condition whose path resolves has one for each operand of its test. -/
theorem Condition.placeholders_queryText {e : Entity} {c : Condition} (hc : c.path.Resolved e) :
    placeholders c.queryText = c.test.operands.length := by
  obtain ⟨a, ha, hcolumn, -⟩ := hc.leaf
  unfold Condition.queryText
  rw [hc.chain.placeholders_queryText]
  refine Test.placeholders_queryText (Entity.placeholders_qualified _ ?_) c.test
  rw [hcolumn]
  exact Entity.placeholders_column ha

namespace Predicate

/-- Conditions in parentheses have one placeholder for each operand. -/
theorem placeholders_join {e : Entity} {cs : List Condition} (h : ∀ c ∈ cs, c.path.Resolved e) :
    placeholders (String.join (cs.map fun c => "(" ++ c.queryText ++ ")")) =
      (Predicate.mk cs).operands.length := by
  have hopen : placeholders "(" = 0 := rfl
  have hclose : placeholders ")" = 0 := rfl
  induction cs with
  | nil =>
    rw [List.map_nil, String.join_nil]
    rfl
  | cons c cs ih =>
    obtain ⟨hc, hcs⟩ := List.forall_mem_cons.mp h
    -- the parentheses add nothing to the placeholders of the condition
    rw [List.map_cons, placeholders_join_cons, ih hcs, placeholders_append, placeholders_append, hopen,
      hclose, Condition.placeholders_queryText hc]
    show 0 + c.test.operands.length + 0 + (Predicate.mk cs).operands.length =
      (c.test.operands ++ (Predicate.mk cs).operands).length
    rw [List.length_append]
    omega

/-- A predicate that can be built has one for each of its operands. -/
theorem placeholders_queryText {e : Entity} {p : Predicate} (hp : p.Built e) :
    placeholders p.queryText = p.operands.length := by
  have hand : placeholders " AND " = 0 := rfl
  unfold queryText
  rw [placeholders_intercalate hand, placeholders_join hp.resolved]

/-- The query text of a predicate is cut at each of its conditions so that placeholders and operands
before it, in it and behind it agree in number. -/
theorem queryText_split {e : Entity} {before after : List Condition} {c : Condition}
    (hp : Built e ⟨before ++ c :: after⟩) :
    ∃ left right,
      (Predicate.mk (before ++ c :: after)).queryText = left ++ c.queryText ++ right ∧
      placeholders left = (Predicate.mk before).operands.length ∧
      placeholders c.queryText = c.test.operands.length ∧
      placeholders right = (Predicate.mk after).operands.length := by
  have hand : placeholders " AND " = 0 := rfl
  have hopen : placeholders "(" = 0 := rfl
  have hclose : placeholders ")" = 0 := rfl
  obtain ⟨hbefore, hrest⟩ := List.forall_mem_append.mp hp.resolved
  obtain ⟨hc, hafter⟩ := List.forall_mem_cons.mp hrest
  obtain ⟨left, right, htext, hleft, hright⟩ := intercalate_split hand
    (before.map fun c => "(" ++ c.queryText ++ ")") ("(" ++ c.queryText ++ ")")
    (after.map fun c => "(" ++ c.queryText ++ ")")
  -- the parentheses of the condition go with the texts around it
  refine ⟨left ++ "(", ")" ++ right, ?_, ?_, Condition.placeholders_queryText hc, ?_⟩
  · unfold queryText
    rw [List.map_append, List.map_cons, htext]
    simp only [String.append_assoc]
  · rw [placeholders_append, hopen, hleft, placeholders_join hbefore, Nat.add_zero]
  · rw [placeholders_append, hclose, hright, placeholders_join hafter, Nat.zero_add]

end Predicate

/-! ## What the text depends on -/

/-- What a test asks, its operands aside. -/
inductive TestForm where
  | compare (c : Comparison)
  | like
  | ilike
  | among (n : Nat)
  | isNull
  deriving DecidableEq, Repr

def Test.form : Test → TestForm
  | compare c _ => .compare c
  | like _ => .like
  | ilike _ => .ilike
  | among vs => .among vs.length
  | isNull => .isNull

/-- What is left of a condition and of a predicate without the operands: paths, and forms of tests. -/
def Condition.form (c : Condition) : Path × TestForm := (c.path, c.test.form)

def Predicate.form (p : Predicate) : List (Path × TestForm) := p.conditions.map Condition.form

/-- The text of a test is made of its column and its form. -/
theorem Test.queryText_congr {t u : Test} (h : t.form = u.form) (column : String) :
    t.queryText column = u.queryText column := by
  cases t with
  | compare c v => cases u <;> cases h; rfl
  | like pattern => cases u <;> cases h; rfl
  | ilike pattern => cases u <;> cases h; rfl
  | among vs =>
    cases u with
    | among ws =>
      -- the empty list has a text of its own, so both lists are empty or neither is
      have hlength : vs.length = ws.length := TestForm.among.inj h
      cases vs with
      | nil =>
        rw [List.length_eq_zero_iff.mp hlength.symm]
      | cons v vs =>
        have hws : ws ≠ [] := List.ne_nil_of_length_eq_add_one hlength.symm
        rw [queryText_among column (List.cons_ne_nil v vs), queryText_among column hws, hlength]
    | compare | like | ilike | isNull => cases h
  | isNull => cases u <;> cases h; rfl

/-- The text of a condition is made of its path and the form of its test. -/
theorem Condition.queryText_congr {c d : Condition} (h : c.form = d.form) :
    c.queryText = d.queryText := by
  obtain ⟨hpath, htest⟩ := Prod.mk.inj h
  unfold Condition.queryText
  rw [hpath, Test.queryText_congr htest]

namespace Predicate

/-- Predicates of the same form have the same query text. Induction on the conditions of both. -/
theorem queryText_congr {p q : Predicate} (h : p.form = q.form) : p.queryText = q.queryText := by
  have htexts : ∀ cs ds : List Condition, cs.map Condition.form = ds.map Condition.form →
      (cs.map fun c => "(" ++ c.queryText ++ ")") = ds.map fun c => "(" ++ c.queryText ++ ")" := by
    intro cs
    induction cs with
    | nil =>
      intro ds hds
      rw [List.map_eq_nil_iff.mp hds.symm]
    | cons c cs ih =>
      intro ds hds
      cases ds with
      | nil => cases hds
      | cons d ds =>
        rw [List.map_cons, List.map_cons, List.cons.injEq] at hds
        rw [List.map_cons, List.map_cons, Condition.queryText_congr hds.1, ih ds hds.2]
  unfold queryText
  rw [htexts p.conditions q.conditions h]

/-- Narrowing by the same predicate keeps forms equal. -/
theorem form_narrowed {p q : Predicate} (h : p.form = q.form) (extra : Option Predicate) :
    (p.narrowed extra).form = (q.narrowed extra).form := by
  cases extra with
  | none => exact h
  | some r =>
    have happend : ∀ s : Predicate, (s.both r).form = s.form ++ r.form :=
      fun _ => List.map_append
    exact (happend p).trans (h ▸ (happend q).symm)

end Predicate

/-- The form of the test that an operator compiles to does not depend on the operand. -/
theorem Test.form_of_compile {kind : Kind} {op : Operator} {v w : String} {t u : Test}
    (ht : Test.compile kind op v = .ok t) (hu : Test.compile kind op w = .ok u) :
    t.form = u.form := by
  cases kind with
  | numeric width =>
    cases op with
    | comparison c =>
      -- the form is the comparison's, whatever integers the operands denote
      unfold Test.compile at ht hu
      dsimp only at ht hu
      split at ht
      · split at hu
        · cases ht
          cases hu
          rfl
        · cases hu
      · cases ht
    | like => cases ht
    | ilike => cases ht
  | text =>
    cases op with
    | comparison c => cases c <;> cases ht <;> cases hu <;> rfl
    | like => cases ht; cases hu; rfl
    | ilike => cases ht; cases hu; rfl

/-- Comparisons of the same field by the same operator become conditions of the same form. -/
theorem Condition.form_of_ofToken {e : Entity} {s t : Token} {c d : Condition}
    (hfield : s.field = t.field) (hop : s.operator = t.operator)
    (hc : Condition.ofToken e s = .ok c) (hd : Condition.ofToken e t = .ok d) :
    c.form = d.form := by
  -- the field alone decides the path, and so the kind that the operator meets
  unfold Condition.ofToken Condition.compile at hc hd
  rw [hfield, hop] at hc
  split at hc
  · next p hp =>
    rw [hp] at hd
    obtain ⟨test, htest, rfl⟩ := map_eq_ok.mp hc
    obtain ⟨other, hother, rfl⟩ := map_eq_ok.mp hd
    exact congrArg (p, ·) (Test.form_of_compile htest hother)
  · cases hc

/-- Filters with the same fields and operators become predicates of the same form, if they compile. -/
theorem Predicate.form_of_ofTokens {e : Entity} {ss ts : List Token} {p q : Predicate}
    (h : ss.map (fun t => (t.field, t.operator)) = ts.map fun t => (t.field, t.operator))
    (hp : Predicate.ofTokens e ss = .ok p) (hq : Predicate.ofTokens e ts = .ok q) :
    p.form = q.form := by
  have hps := Predicate.ofTokens_eq_ok.mp hp
  have hqs := Predicate.ofTokens_eq_ok.mp hq
  unfold form
  -- both lists of conditions go along with the comparisons they come from
  generalize p.conditions = cs at hps
  generalize q.conditions = ds at hqs
  clear hp hq
  induction hps generalizing ts ds with
  | nil =>
    rw [List.map_eq_nil_iff.mp h.symm] at hqs
    cases hqs
    rfl
  | cons hc _ ih =>
    cases hqs with
    | nil => cases h
    | cons hd hqs =>
      rw [List.map_cons, List.map_cons, List.cons.injEq, Prod.mk.injEq] at h
      obtain ⟨⟨hfield, hop⟩, hrest⟩ := h
      rw [List.map_cons, List.map_cons, Condition.form_of_ofToken hfield hop hc hd, ih hrest _ hqs]

namespace Predicate

/-- **Query texts carry no operand, and placeholders and operands line up.**

* A predicate that can be built has as many placeholders as operands. The operands are those of its
  conditions in their order, and its text is cut at each condition so that placeholders and operands
  before it, in it and behind it agree in number.
* The text depends only on the paths and the forms of the tests.
* So filters whose comparisons have the same fields and operators, and that compile, give the same text,
  also with a further predicate. -/
theorem queryText_parametric (e : Entity) :
    (∀ p, Built e p →
      placeholders p.queryText = p.operands.length ∧
      ∀ before c after, p.conditions = before ++ c :: after →
        ∃ left right,
          p.queryText = left ++ c.queryText ++ right ∧
          p.operands = (Predicate.mk before).operands ++ c.test.operands ++
            (Predicate.mk after).operands ∧
          placeholders left = (Predicate.mk before).operands.length ∧
          placeholders c.queryText = c.test.operands.length ∧
          placeholders right = (Predicate.mk after).operands.length) ∧
    (∀ p q : Predicate, p.form = q.form → p.queryText = q.queryText) ∧
    ∀ (mode₁ mode₂ : ParseMode) (filter₁ filter₂ : String) (ss ts : List Token) (p q : Predicate),
      Token.ofFilter mode₁ filter₁ = .ok ss → Token.ofFilter mode₂ filter₂ = .ok ts →
      ss.map (fun t => (t.field, t.operator)) = ts.map (fun t => (t.field, t.operator)) →
      Predicate.ofTokens e ss = .ok p → Predicate.ofTokens e ts = .ok q →
      ∀ extra, (p.narrowed extra).queryText = (q.narrowed extra).queryText := by
  refine ⟨fun p hp => ⟨placeholders_queryText hp, ?_⟩, fun p q => queryText_congr, ?_⟩
  · intro before c after hsplit
    obtain ⟨cs⟩ := p
    have hcs : cs = before ++ c :: after := hsplit
    subst hcs
    -- the operands are put together from the conditions as the text is
    obtain ⟨left, right, htext, hcounts⟩ := queryText_split hp
    refine ⟨left, right, htext, ?_, hcounts⟩
    unfold operands
    rw [List.flatMap_append, List.flatMap_cons, List.append_assoc]
  · intro mode₁ mode₂ filter₁ filter₂ ss ts p q _ _ hsame hp hq extra
    exact queryText_congr (form_narrowed (form_of_ofTokens hsame hp hq) extra)

/-- Query words and a placeholder in a value change neither the text nor the number of placeholders. -/
theorem queryText_injected :
    ∃ p q,
      Predicate.ofTokens .userGroups [⟨"createdBy_userName", .like, "bob"⟩] = .ok p ∧
      Predicate.ofTokens .userGroups [⟨"createdBy_userName", .like, "?) OR (1 = 1"⟩] = .ok q ∧
      p.queryText = q.queryText ∧ placeholders q.queryText = 1 := by
  have hplain : Token.ofFilter .strict "createdBy_userName like bob" =
      .ok [⟨"createdBy_userName", .like, "bob"⟩] := by
    rw [Token.ofFilter, if_neg (by decide)]
    rw [Filter.clauses_eq_singleton "createdBy_userName like bob".toList (by decide)]
    decide
  have hinjected : Token.ofFilter .lenient "createdBy_userName like '?) OR (1 = 1'" =
      .ok [⟨"createdBy_userName", .like, "?) OR (1 = 1"⟩] := by
    rw [Token.ofFilter, if_neg (by decide)]
    rw [Filter.clauses_eq_singleton "createdBy_userName like '?) OR (1 = 1'".toList (by decide)]
    decide
  have hcompile : ∃ q, Predicate.ofTokens .userGroups
      [⟨"createdBy_userName", .like, "?) OR (1 = 1"⟩] = .ok q := ⟨_, rfl⟩
  obtain ⟨q, hq⟩ := hcompile
  obtain ⟨hcount, -, hsame⟩ := queryText_parametric .userGroups
  refine ⟨_, q, rfl, hq, hsame _ _ _ _ _ _ _ _ hplain hinjected rfl rfl hq none, ?_⟩
  rw [(hcount q (.ofTokens hq)).1]
  cases hq
  rfl

end Predicate

end AssetRegister
