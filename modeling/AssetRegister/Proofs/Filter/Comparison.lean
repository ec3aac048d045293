import AssetRegister.Filter.Token
import AssetRegister.Proofs.Filter.Clauses
import AssetRegister.Proofs.Outcome

/-!
# Reading one comparison

A field, white space, an operator, white space and a literal are read in this order, each as far as it
goes. Where they stand one after another they are read as they stand (`comparisonAt?_append`), since
none of them can take a character of the next.

A literal in quotes stands for what is between the quotes (`literalValue_quoted`). No value that is read
has a quote (`Token.quote_notMem_value`).
-/

namespace AssetRegister.Filter

open Text (isSpace isBlank)

/-! ## Characters of fields -/

/-- The characters of fields are among those from `0` to `z`, all far from white space. -/
theorem isWord_bounds {c : Char} (h : isWord c = true) : 0x30 ≤ c.toNat ∧ c.toNat ≤ 0x7A := by
  -- capitals, small letters, digits and the underscore, by their ranges
  have hranges : ((decide ('A'.val ≤ c.val ∧ c.val ≤ 'Z'.val) ||
      (decide ('a'.val ≤ c.val) && decide (c.val ≤ 'z'.val))) ||
      (decide ('0'.val ≤ c.val) && decide (c.val ≤ '9'.val)) || c == '_') = true := h
  simp only [Bool.or_eq_true, decide_eq_true_eq, Bool.and_eq_true, beq_iff_eq,
    UInt32.le_iff_toNat_le] at hranges
  rcases hranges with ((⟨h₁, h₂⟩ | ⟨h₁, h₂⟩) | ⟨h₁, h₂⟩) | rfl
  · exact ⟨Nat.le_trans (by decide) h₁, Nat.le_trans h₂ (by decide)⟩
  · exact ⟨Nat.le_trans (by decide) h₁, Nat.le_trans h₂ (by decide)⟩
  · exact ⟨Nat.le_trans (by decide) h₁, Nat.le_trans h₂ (by decide)⟩
  · decide

/-- No character of a field is white space. -/
theorem isSpace_of_isWord {c : Char} (h : isWord c = true) : isSpace c = false := by
  have hbounds := isWord_bounds h
  have hne : c ≠ ' ' := by
    rintro rfl
    exact absurd hbounds.1 (by decide)
  simp only [isSpace, Bool.or_eq_false_iff, beq_eq_false_iff_ne, Bool.and_eq_false_iff,
    decide_eq_false_iff_not]
  exact ⟨hne, .inr (by omega)⟩

/-- And none is blank. -/
theorem isBlank_of_isWord {c : Char} (h : isWord c = true) : isBlank c = false := by
  have hbounds := isWord_bounds h
  rw [Bool.eq_false_iff]
  intro hblank
  simp only [isBlank, Bool.or_eq_true, Bool.and_eq_true, decide_eq_true_eq, beq_iff_eq] at hblank
  omega

/-! ## Field, operator and literal -/

/-- An operator is not taken for another one if white space follows it. -/
theorem operatorAt?_append (op : Operator) {c : Char} (hc : isSpace c = true) (s : List Char) :
    operatorAt? (op.symbol.toList ++ c :: s) = some (op, c :: s) := by
  have hne : '=' ≠ c := by
    rintro rfl
    cases hc
  cases op with
  | comparison o =>
    cases o <;> simp [operatorAt?, operatorOrder, afterWord?, Operator.symbol, Comparison.symbol, hne]
  | like => simp [operatorAt?, operatorOrder, afterWord?, Operator.symbol, Comparison.symbol]
  | ilike => simp [operatorAt?, operatorOrder, afterWord?, Operator.symbol, Comparison.symbol]

/-- Symbols of operators do not start with white space. -/
theorem isSpace_head_symbol (op : Operator) (s : List Char) :
    ∀ c ∈ (op.symbol.toList ++ s).head?, isSpace c = false := by
  intro c hc
  cases op with
  | comparison o => cases o <;> cases hc <;> decide
  | like => cases hc; decide
  | ilike => cases hc; decide

/-- The parts of a comparison are read as they stand. -/
theorem comparisonAt?_append {f w₁ w₂ r literal : List Char} (op : Operator) (hf : f ≠ [])
    (hword : ∀ c ∈ f, isWord c = true) (hw₁ : Spaces w₁) (hw₂ : Spaces w₂)
    (hr : ∀ c ∈ r.head?, isSpace c = false) (hliteral : literalAt? r = some literal) :
    comparisonAt? (f ++ (w₁ ++ (op.symbol.toList ++ (w₂ ++ r)))) = some ⟨f, op, literal⟩ := by
  obtain ⟨a, v, rfl, ha, -⟩ := hw₁.exists_cons
  obtain ⟨b, u, rfl, hb, -⟩ := hw₂.exists_cons
  -- white space is no character of a field, so the field ends before it
  have hstop : ∀ c ∈ (a :: v ++ (op.symbol.toList ++ (b :: u ++ r))).head?, isWord c = false := by
    rintro _ ⟨⟩
    by_contra h
    rw [isSpace_of_isWord (eq_true_of_ne_false h)] at ha
    cases ha
  have hspace₁ : afterSpace? (a :: v ++ (op.symbol.toList ++ (b :: u ++ r))) =
      some (op.symbol.toList ++ (b :: u ++ r)) :=
    afterSpace?_eq_some.mpr ⟨a :: v, hw₁, rfl, isSpace_head_symbol op _⟩
  have hspace₂ : afterSpace? (b :: u ++ r) = some r :=
    afterSpace?_eq_some.mpr ⟨b :: u, hw₂, rfl, hr⟩
  unfold comparisonAt?
  simp only [Text.takeWhile_append hword hstop, Text.dropWhile_append hword hstop, hspace₁, List.isEmpty_iff, hf, if_false, Option.bind_some]
  rw [List.cons_append, operatorAt?_append op hb, ← List.cons_append]
  simp only [Option.bind_some, hspace₂, hliteral, Option.map_some]

/-- A comparison at the start of a clause is its leftmost one. -/
theorem comparison?_of_comparisonAt? {s : List Char} {w : Written} (h : comparisonAt? s = some w) :
    comparison? s = some w := by
  cases s with
  | nil => cases h
  | cons c s =>
    unfold comparison?
    rw [h]

/-! ## Literals -/

/-- A literal in quotes goes to the next quote. -/
theorem literalAt?_quoted {v : List Char} (hv : '\x27' ∉ v) (s : List Char) :
    literalAt? ('\x27' :: (v ++ '\x27' :: s)) = some ('\x27' :: (v ++ ['\x27'])) := by
  have hquoted : quotedAt? ('\x27' :: (v ++ '\x27' :: s)) = some ('\x27' :: (v ++ ['\x27'])) := by
    show (if (v ++ '\x27' :: s).contains '\x27' then
      some ('\x27' :: ((v ++ '\x27' :: s).takeWhile (· != '\x27') ++ ['\x27'])) else none) = _
    rw [if_pos (by simp), Text.takeWhile_bne_append hv]
  unfold literalAt?
  rw [hquoted]

/-- After a quote that no other one follows, the literal goes to the next white space, the quote
included. -/
theorem literalAt?_unclosed {v : List Char} (hv : '\x27' ∉ v) :
    literalAt? ('\x27' :: v) = some ('\x27' :: v.takeWhile (!isSpace ·)) := by
  have hquoted : quotedAt? ('\x27' :: v) = none := by
    unfold quotedAt?
    exact if_neg (by simpa using hv)
  have htake : ('\x27' :: v).takeWhile (!isSpace ·) = '\x27' :: v.takeWhile (!isSpace ·) :=
    List.takeWhile_cons_of_pos (by decide)
  unfold literalAt?
  rw [hquoted]
  dsimp only
  rw [htake]
  rfl

/-- A quote at the end is no percent sign, so nothing is dropped. -/
theorem withoutTrailingPercent_quote (s : List Char) :
    withoutTrailingPercent (s ++ ['\x27']) = s ++ ['\x27'] := by
  unfold withoutTrailingPercent
  rw [List.reverse_append]
  show ('\x27' :: s.reverse).reverse = _
  rw [List.reverse_cons, List.reverse_reverse]

/-- The quotes around a value protect its percent signs. -/
theorem literalValue_quoted {v : List Char} (hv : '\x27' ∉ v) :
    literalValue ('\x27' :: (v ++ ['\x27'])) = v := by
  unfold literalValue
  show (withoutTrailingPercent (('\x27' :: v) ++ ['\x27'])).filter (· != '\x27') = v
  rw [withoutTrailingPercent_quote, List.cons_append, List.filter_cons_of_neg (by decide),
    List.filter_append]
  show v.filter (· != '\x27') ++ [] = v
  rw [List.append_nil, List.filter_eq_self]
  intro c hc
  rw [bne_iff_ne]
  rintro rfl
  exact hv hc

theorem withoutLeadingPercent_isSuffix (s : List Char) : withoutLeadingPercent s <:+ s := by
  unfold withoutLeadingPercent
  split
  · exact List.suffix_cons _ _
  · exact List.suffix_refl _

theorem withoutTrailingPercent_isPrefix (s : List Char) : withoutTrailingPercent s <+: s := by
  unfold withoutTrailingPercent
  have h := withoutLeadingPercent_isSuffix s.reverse
  rwa [← List.reverse_prefix, List.reverse_reverse] at h

/-- A value is made of characters of the literal that are no quotes. -/
theorem mem_literalValue {s : List Char} {c : Char} (h : c ∈ literalValue s) :
    c ∈ s ∧ c ≠ '\x27' := by
  obtain ⟨hc, hne⟩ := List.mem_filter.mp h
  refine ⟨?_, bne_iff_ne.mp hne⟩
  exact (withoutLeadingPercent_isSuffix s).subset ((withoutTrailingPercent_isPrefix _).subset hc)

end AssetRegister.Filter

namespace AssetRegister.Token

open Outcome

/-- No value that is read from a clause has a quote: all of them are dropped. -/
theorem quote_notMem_of_ofClause? {clause : List Char} {t : Token} (h : ofClause? clause = some t) :
    '\x27' ∉ t.value.toList := by
  obtain ⟨w, -, rfl⟩ := Option.map_eq_some_iff.mp h
  show '\x27' ∉ (String.ofList (Filter.literalValue w.literal)).toList
  rw [String.toList_ofList]
  exact fun hquote => (Filter.mem_literalValue hquote).2 rfl

/-- No value that is read has a quote. Induction on the clauses. -/
theorem quote_notMem_of_ofClauses {mode : ParseMode} {clauses : List (List Char)} {ts : List Token}
    (h : ofClauses mode clauses = .ok ts) : ∀ t ∈ ts, '\x27' ∉ t.value.toList := by
  induction clauses generalizing ts with
  | nil =>
    cases h
    exact List.forall_mem_nil _
  | cons clause rest ih =>
    unfold ofClauses at h
    split at h
    · next t ht =>
      obtain ⟨us, hus, rfl⟩ := map_eq_ok.mp h
      exact List.forall_mem_cons.mpr ⟨quote_notMem_of_ofClause? ht, ih hus⟩
    · split at h
      · cases h
      · exact ih h

/-- No value of a filter has a quote, in either mode of reading. -/
theorem quote_notMem_value {mode : ParseMode} {filter : String} {ts : List Token}
    (h : ofFilter mode filter = .ok ts) : ∀ t ∈ ts, '\x27' ∉ t.value.toList := by
  unfold ofFilter at h
  split at h
  · cases h
    exact List.forall_mem_nil _
  · exact quote_notMem_of_ofClauses h

end AssetRegister.Token
