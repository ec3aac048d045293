import AssetRegister.Proofs.Filter.Comparison

/-!
# Clauses that hold no comparison

Strict reading refuses a clause that is not blank and holds no comparison; lenient reading drops it.
All clauses are looked at before any comparison is compiled, so what reading gives depends on the
clauses alone: the comparisons of all of them, in order, or the first that is malformed.

* `Token.ofClauses_eq_ok`, `Token.ofClauses_eq_error`: when each happens.
* `Token.ofFilter_eq`: a blank filter is no special case.
-/

namespace AssetRegister

open Outcome

namespace Filter

open Text (isBlank isBlankText)

/-- The clauses of a blank text are blank. -/
theorem isBlankText_of_mem_clauses {s clause : List Char} (hs : isBlankText s = true)
    (h : clause ∈ clauses s) : isBlankText clause = true :=
  List.all_eq_true.mpr fun c hc => List.all_eq_true.mp hs c ((infix_of_mem_clauses h).subset hc)

/-- A comparison starts with a character of its field, so there is none in a blank clause. -/
theorem comparison?_of_isBlankText {clause : List Char} (h : isBlankText clause = true) :
    comparison? clause = none := by
  induction clause with
  | nil => rfl
  | cons c s ih =>
    have hall : ∀ d ∈ c :: s, isBlank d = true := List.all_eq_true.mp h
    -- a blank character cannot begin a field
    have hword : ¬isWord c = true := fun hc => by
      have hblank := isBlank_of_isWord hc
      rw [hall c List.mem_cons_self] at hblank
      cases hblank
    have hnone : comparisonAt? (c :: s) = none := by
      unfold comparisonAt?
      dsimp only
      rw [List.takeWhile_cons_of_neg hword]
      rfl
    unfold comparison?
    rw [hnone]
    exact ih (List.all_eq_true.mpr fun d hd => hall d (List.mem_cons_of_mem c hd))

end Filter

namespace Token

/-- A clause that is not blank and holds no comparison. -/
def Malformed (clause : List Char) : Prop :=
  ofClause? clause = none ∧ ¬Text.isBlankText clause = true

variable {mode : ParseMode} {clause : List Char} {rest clauses : List (List Char)}

/-- A clause that holds a comparison is not malformed. -/
theorem not_malformed_of_some {t : Token} (h : ofClause? clause = some t) : ¬Malformed clause := by
  rintro ⟨hnone, -⟩
  cases h.symm.trans hnone

theorem not_malformed_of_isBlankText (h : Text.isBlankText clause = true) : ¬Malformed clause :=
  fun hclause => hclause.2 h

/-- A clause is passed over or read, and the rest is read in the same way. -/
theorem ofClauses_cons (h : mode = .strict → ¬Malformed clause) :
    ofClauses mode (clause :: rest) =
      (ofClauses mode rest).map fun ts => (ofClause? clause).toList ++ ts := by
  cases hclause : ofClause? clause with
  | some t =>
    rw [ofClauses, hclause]
    rfl
  | none =>
    have hpass : ¬(mode = .strict ∧ ¬Text.isBlankText clause = true) :=
      fun hstrict => h hstrict.1 ⟨hclause, hstrict.2⟩
    rw [ofClauses, hclause]
    dsimp only
    rw [if_neg hpass]
    cases ofClauses mode rest <;> rfl

/-- Strict reading stops at a malformed clause, and reports it as it stands. -/
theorem ofClauses_cons_malformed (h : Malformed clause) :
    ofClauses .strict (clause :: rest) = .error ⟨String.ofList clause⟩ := by
  rw [ofClauses, h.1]
  exact if_pos ⟨rfl, h.2⟩

/-- Clauses are read if none is malformed, or if reading is lenient. -/
theorem ofClauses_eq_ok {ts : List Token} :
    ofClauses mode clauses = .ok ts ↔
      (mode = .strict → ∀ c ∈ clauses, ¬Malformed c) ∧ clauses.filterMap ofClause? = ts := by
  induction clauses generalizing ts with
  | nil => simp [ofClauses]
  | cons clause rest ih =>
    by_cases h : mode = .strict → ¬Malformed clause
    · have hcons : (clause :: rest).filterMap ofClause? =
          (ofClause? clause).toList ++ rest.filterMap ofClause? := by
        cases hclause : ofClause? clause with
        | none => exact List.filterMap_cons_none hclause
        | some t => exact List.filterMap_cons_some hclause
      rw [ofClauses_cons h, map_eq_ok, hcons]
      constructor
      · rintro ⟨us, hus, rfl⟩
        obtain ⟨hrest, rfl⟩ := ih.mp hus
        exact ⟨fun hmode => List.forall_mem_cons.mpr ⟨h hmode, hrest hmode⟩, rfl⟩
      · rintro ⟨hall, rfl⟩
        exact ⟨_, ih.mpr ⟨fun hmode => (List.forall_mem_cons.mp (hall hmode)).2, rfl⟩, rfl⟩
    -- strict reading stops at this clause, and its being malformed is what the other side excludes
    · obtain ⟨rfl, hclause⟩ := Classical.not_imp.mp h
      rw [ofClauses_cons_malformed (not_not.mp hclause)]
      refine iff_of_false nofun fun hall => ?_
      exact hclause (List.forall_mem_cons.mp (hall.1 rfl)).1

/-- Clauses are refused for the first of them that is malformed, in strict reading only. -/
theorem ofClauses_eq_error {fault : MalformedClause} :
    ofClauses mode clauses = .error fault ↔
      mode = .strict ∧ ∃ before clause after, clauses = before ++ clause :: after ∧
        (∀ c ∈ before, ¬Malformed c) ∧ Malformed clause ∧ fault = ⟨String.ofList clause⟩ := by
  induction clauses with
  | nil => simp [ofClauses]
  | cons first rest ih =>
    by_cases h : mode = .strict → ¬Malformed first
    · rw [ofClauses_cons h, map_eq_error, ih]
      refine and_congr_right fun hmode => ?_
      constructor
      · rintro ⟨before, clause, after, rfl, hbefore, hclause⟩
        exact ⟨first :: before, clause, after, rfl,
          List.forall_mem_cons.mpr ⟨h hmode, hbefore⟩, hclause⟩
      · rintro ⟨before, clause, after, hcut, hbefore, hclause⟩
        -- a clause that is passed over is not the one that is reported
        cases before with
        | nil =>
          cases hcut
          exact absurd hclause.1 (h hmode)
        | cons _ before =>
          cases hcut
          exact ⟨before, clause, after, rfl, (List.forall_mem_cons.mp hbefore).2, hclause⟩
    · obtain ⟨rfl, hfirst⟩ := Classical.not_imp.mp h
      have hfirst := not_not.mp hfirst
      rw [ofClauses_cons_malformed hfirst, and_iff_right rfl]
      constructor
      · rintro ⟨⟩
        exact ⟨[], first, rest, rfl, List.forall_mem_nil _, hfirst, rfl⟩
      · rintro ⟨before, clause, after, hcut, hbefore, -, rfl⟩
        cases before with
        | nil =>
          cases hcut
          rfl
        | cons _ before =>
          cases hcut
          exact absurd hfirst (hbefore _ List.mem_cons_self)

/-- Reading a filter is reading its clauses, blank or not. -/
theorem ofFilter_eq (mode : ParseMode) (filter : String) :
    ofFilter mode filter = ofClauses mode (Filter.clauses filter.toList) := by
  unfold ofFilter
  split
  · next hblank =>
    have hall : ∀ c ∈ Filter.clauses filter.toList, Text.isBlankText c = true :=
      fun c hc => Filter.isBlankText_of_mem_clauses hblank hc
    -- no clause of a blank filter is malformed, and none holds a comparison
    refine (ofClauses_eq_ok.mpr ⟨fun _ c hc => not_malformed_of_isBlankText (hall c hc), ?_⟩).symm
    rw [List.filterMap_eq_nil_iff]
    intro c hc
    unfold ofClause?
    rw [Filter.comparison?_of_isBlankText (hall c hc), Option.map_none]
  · rfl

end Token

end AssetRegister
