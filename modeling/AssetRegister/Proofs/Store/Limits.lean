import AssetRegister.Store.Limits
import Mathlib.Data.List.Forall2
import Mathlib.Data.List.Nodup

/-!
# Within the limits of the store

A statement is refused exactly if it has too many placeholders, is too deep or has too long an operand, so
whether it is refused does not depend on what is stored. Rows can only be at fault if a pattern is too
long: then, and only then, it matters which rows there are and on which of them the pattern is tried.

* `Predicate.statementExcess?_eq_none`: which statements are not refused.
* `Database.excess?_of_patterns`: without patterns that are too long, rows are not at fault.
* `Database.excess?_eq_none`: nothing within the limits is refused.
* `Database.fails_congr`: what a try of a pattern depends on.
-/

namespace AssetRegister

namespace Predicate

/-- One condition more makes a conjunction no less deep. -/
theorem depth_le_joinedDepth (depth : Nat) (c : Condition) : depth ≤ joinedDepth depth c := by
  unfold joinedDepth
  split <;> omega

/-- Nor do any that follow. -/
theorem depth_le_foldl_joinedDepth (depth : Nat) (cs : List Condition) :
    depth ≤ cs.foldl joinedDepth depth := by
  induction cs generalizing depth with
  | nil => exact Nat.le_refl depth
  | cons c cs ih => exact Nat.le_trans (depth_le_joinedDepth depth c) (ih _)

/-- Reading goes through exactly if it ends within both limits. Induction on the conditions: since what has
been read only grows, the limits are kept on the way if they are kept at the end. -/
theorem readingExcess?_eq_none {placeholders depth : Nat} (cs : List Condition)
    (hplaceholders : placeholders ≤ Limit.placeholders) (hdepth : depth ≤ Limit.depth) :
    readingExcess? placeholders depth cs = none ↔
      placeholders + (cs.flatMap fun c => c.test.operands).length ≤ Limit.placeholders ∧
        cs.foldl joinedDepth depth ≤ Limit.depth := by
  induction cs generalizing placeholders depth with
  | nil => simp [readingExcess?, hplaceholders, hdepth]
  | cons c cs ih =>
    have hgrows := depth_le_foldl_joinedDepth (joinedDepth depth c) cs
    unfold readingExcess?
    simp only [List.flatMap_cons, List.length_append, List.foldl_cons]
    split
    -- the placeholders read so far are too many already, and more can only be added
    · simp; omega
    · split
      · simp; omega
      · rw [ih (by omega) (by omega), Nat.add_assoc]

/-- **A statement is refused exactly if it goes beyond a limit**, whatever is stored. -/
theorem statementExcess?_eq_none {p : Predicate} :
    p.statementExcess? = none ↔
      p.operands.length ≤ Limit.placeholders ∧ p.depth ≤ Limit.depth ∧
        ∀ v ∈ p.operands, v.size ≤ Limit.operandSize := by
  have hread := readingExcess?_eq_none p.conditions (Nat.zero_le _) (Nat.zero_le Limit.depth)
  rw [Nat.zero_add] at hread
  have hdepth : p.conditions.foldl joinedDepth 0 ≤ p.depth := Nat.le_add_right _ _
  unfold statementExcess?
  cases hreading : readingExcess? 0 0 p.conditions with
  | some limit =>
    -- reading has stopped, so one of its two limits is broken
    rw [hreading] at hread
    refine iff_of_false nofun fun h => ?_
    cases hread.mpr ⟨h.1, Nat.le_trans hdepth h.2.1⟩
  | none =>
    -- reading has gone through, so what is left are the subqueries and the operands
    obtain ⟨hplaceholders, -⟩ := hread.mp hreading
    dsimp only
    rw [and_iff_right (show p.operands.length ≤ _ from hplaceholders)]
    split
    · exact iff_of_false nofun fun h => absurd h.1 (by omega)
    · rw [and_iff_right (by omega)]
      simp [List.any_eq_true]

/-- A conjunction is at least as deep as its first condition and one level for each further one. -/
theorem add_length_le_foldl_joinedDepth {depth : Nat} (h : 0 < depth) (cs : List Condition) :
    depth + cs.length ≤ cs.foldl joinedDepth depth := by
  induction cs generalizing depth with
  | nil => exact Nat.le_refl depth
  | cons c cs ih =>
    -- each further condition takes a conjunction around all before it
    have hjoined : depth + 1 ≤ joinedDepth depth c := by
      unfold joinedDepth
      split <;> omega
    have := ih (Nat.lt_of_lt_of_le h (depth_le_joinedDepth depth c))
    simp only [List.length_cons, List.foldl_cons]
    omega

/-- If placeholders are not what stops the reading, then depth is. -/
theorem readingExcess?_eq_depth {placeholders depth : Nat} {cs : List Condition}
    (hplaceholders : placeholders + (cs.flatMap fun c => c.test.operands).length ≤ Limit.placeholders)
    (hdepth : depth ≤ Limit.depth) (h : Limit.depth < cs.foldl joinedDepth depth) :
    readingExcess? placeholders depth cs = some .depth := by
  induction cs generalizing placeholders depth with
  | nil => exact absurd h (by simp only [List.foldl_nil]; omega)
  | cons c cs ih =>
    simp only [List.flatMap_cons, List.length_append, List.foldl_cons] at hplaceholders h
    unfold readingExcess?
    dsimp only
    -- placeholders are counted first, but there are not too many even at the end
    rw [if_neg (by omega)]
    by_cases hc : Limit.depth < joinedDepth depth c
    · rw [if_pos hc]
    · rw [if_neg hc]
      exact ih (by omega) (by omega) h

/-- So too many conditions are refused for the depth of their conjunction. -/
theorem statementExcess?_of_length {c : Condition} {cs : List Condition}
    (hplaceholders : (Predicate.mk (c :: cs)).operands.length ≤ Limit.placeholders)
    (h : Limit.depth < c.depth + cs.length) :
    (Predicate.mk (c :: cs)).statementExcess? = some .depth := by
  -- every further condition adds one level, once there is a first condition
  have hpos : 0 < c.depth := by
    unfold Condition.depth Test.depth
    split <;> omega
  have hdepth : Limit.depth < (c :: cs).foldl joinedDepth 0 :=
    Nat.lt_of_lt_of_le h (add_length_le_foldl_joinedDepth hpos cs)
  have hbound : 0 + ((c :: cs).flatMap fun c => c.test.operands).length ≤ Limit.placeholders := by
    rw [Nat.zero_add]
    exact hplaceholders
  have hread := readingExcess?_eq_depth hbound (Nat.zero_le _) hdepth
  unfold statementExcess?
  rw [hread]

end Predicate

/-! ## The order of tries -/

/-- A condition depends on a row by the content of its column. -/
theorem Condition.eval_eq_truthOf (db : Database) (c : Condition) (r : Row) :
    c.eval db r = c.truthOf db (r.get c.column) := by
  unfold eval truthOf column
  cases c.path.hops <;> rfl

namespace Try

variable {e : Entity} {before cs : List Condition} {ts : List Try} {t : Try}

/-- What is tried are the conditions of the predicate. -/
theorem mem_all (h : t ∈ all e before cs) : t.condition ∈ cs := by
  induction cs generalizing before with
  | nil => cases h
  | cons c cs ih =>
    -- what is put in for a column leaves the condition as it is
    rcases List.mem_cons.mp h with rfl | h
    · exact List.mem_cons_self
    · exact .tail _ (ih h)

/-- Conditions on other columns ask for no content of a column. -/
theorem asked?_eq_none {column : String} (h : column ∉ cs.map Condition.column) :
    asked? e column cs = none := by
  have hnil : cs.filter (fun c => decide (c.column = column)) = [] := by
    refine List.filter_eq_nil_iff.mpr fun c hc hcolumn => h ?_
    rw [← of_decide_eq_true hcolumn]
    exact List.mem_map_of_mem hc
  unfold asked?
  rw [hnil]
  rfl

/-- Conditions on different columns all go by what is stored. Induction on the conditions with those before
them left open. -/
theorem all_of_nodup (h : (before.map Condition.column ++ cs.map Condition.column).Nodup) :
    all e before cs = cs.map fun c => ⟨c, none⟩ := by
  induction cs generalizing before with
  | nil => rfl
  | cons c cs ih =>
    rw [List.map_cons, List.nodup_middle] at h
    have hnot := (List.nodup_cons.mp h).1
    have hbefore : asked? e c.column before = none :=
      asked?_eq_none fun hmem => hnot (List.mem_append_left _ hmem)
    have hafter : asked? e c.column cs.reverse = none :=
      asked?_eq_none fun hmem => hnot (List.mem_append_right _ (by simpa using hmem))
    have hrest : ((c :: before).map Condition.column ++ cs.map Condition.column).Nodup := h
    unfold all
    dsimp only
    rw [hafter, hbefore, ite_self, ih hrest, List.map_cons]

theorem exists_rank_of_lookingUp? (h : lookingUp? e ts = some t) :
    t ∈ ts ∧ ∃ rank, t.rank? e = some rank := by
  obtain ⟨rank, -, hfind⟩ := List.exists_of_findSome?_eq_some h
  have hrank := List.find?_some (p := fun t => rank? e t == some rank) hfind
  exact ⟨List.mem_of_find?_eq_some hfind, rank, beq_iff_eq.mp hrank⟩

/-- Rows are not looked up if no condition is a way of doing so. -/
theorem lookingUp?_eq_none (h : ∀ t ∈ ts, t.rank? e = none) : lookingUp? e ts = none := by
  refine List.findSome?_eq_none_iff.mpr fun rank _ => List.find?_eq_none.mpr fun t ht => ?_
  rw [h t ht]
  exact Bool.false_ne_true

/-- The order of tries is an order: it leaves none out and adds none. -/
theorem inOrder_perm (e : Entity) (ts : List Try) : (inOrder e ts).Perm ts := by
  unfold inOrder
  split
  · exact .refl ts
  · next t ht =>
    have hfirst := (List.perm_cons_erase (exists_rank_of_lookingUp? ht).1).symm
    dsimp only
    split
    · exact hfirst
    · exact ((List.filter_append_perm _ _).cons t).trans hfirst

theorem inOrder_of_rank (h : ∀ t ∈ ts, t.rank? e = none) : inOrder e ts = ts := by
  unfold inOrder
  rw [lookingUp?_eq_none h]

/-- What looks rows up in its own table needs no pattern. -/
theorem overlong_of_rank {rank : Nat} (hhops : t.condition.path.hops = [])
    (h : t.rank? e = some rank) : t.condition.test.overlong = false := by
  cases htest : t.condition.test with
  | compare => rfl
  | among => rfl
  | isNull => rfl
  | like | ilike =>
    have hlookup : t.condition.lookup? = none := by
      unfold Condition.lookup?
      rw [hhops, htest]
    unfold rank? at h
    rw [hlookup] at h
    cases hcontent : t.content? <;> rw [hcontent] at h <;> cases h

end Try

namespace Database

variable {db : Database} {e : Entity} {p : Predicate}

/-- A condition without a pattern that is too long can be tried. -/
theorem failsOn_of_not_overlong {c : Condition} (h : c.test.overlong = false) :
    db.failsOn c = false := by
  unfold failsOn
  rw [h, Bool.false_and]

/-- Conditions without a pattern that is too long are tried on a row without failing. -/
theorem failsAt_of_not_overlong {r : Row} {ts : List Try}
    (h : ∀ t ∈ ts, t.condition.test.overlong = false) : db.failsAt r ts = false := by
  induction ts with
  | nil => rfl
  | cons t ts ih =>
    obtain ⟨ht, hts⟩ := List.forall_mem_cons.mp h
    unfold failsAt
    rw [failsOn_of_not_overlong ht, ih hts, Bool.and_false, Bool.false_or]

/-- If no way of looking rows up fails, and no try on a row, then the predicate does not fail. -/
theorem fails_eq_false
    (hlookingUp : ∀ t ∈ Try.all e [] p.conditions, ∀ rank, t.rank? e = some rank →
      db.failsOn t.condition = false)
    (hrows : ∀ r ∈ db.rows e, ∀ ts : List Try, (∀ t ∈ ts, t.condition ∈ p.conditions) →
      db.failsAt r ts = false) : db.fails e p = false := by
  unfold fails
  dsimp only
  generalize hunsettled : (Try.all e [] p.conditions).filter (!·.isSettled) = unsettled
  have hall : ∀ t ∈ unsettled, t ∈ Try.all e [] p.conditions := by
    rw [← hunsettled]
    exact fun t ht => (List.mem_filter.mp ht).1
  -- what may be tried is either what rows are looked up by, or tried on a row
  have hfirst : (Try.lookingUp? e unsettled).any (fun t => db.failsOn t.condition) = false := by
    cases h : Try.lookingUp? e unsettled with
    | none => rfl
    | some t =>
      obtain ⟨ht, rank, hrank⟩ := Try.exists_rank_of_lookingUp? h
      exact hlookingUp t (hall t ht) rank hrank
  have hany : ((db.rows e).any fun r => db.failsAt r (Try.inOrder e unsettled)) = false := by
    refine List.any_eq_false.mpr fun r hr => ?_
    rw [hrows r hr _ fun t ht => Try.mem_all (hall t ((Try.inOrder_perm e unsettled).mem_iff.mp ht))]
    exact Bool.false_ne_true
  rw [hfirst, hany, Bool.or_false, Bool.and_false]

/-- A predicate without patterns that are too long is tried on every row without failing. -/
theorem fails_of_not_overlong (h : ∀ c ∈ p.conditions, c.test.overlong = false) :
    db.fails e p = false :=
  fails_eq_false (fun t ht _ _ => failsOn_of_not_overlong (h t.condition (Try.mem_all ht)))
    fun _ _ _ hts => failsAt_of_not_overlong fun t ht => h t.condition (hts t ht)

/-- A predicate fails on a row if the condition that is tried first does. Here the conditions are about
different columns and none of them looks rows up, so they are tried as they stand. -/
theorem fails_of_mem {r : Row} {c : Condition} {cs : List Condition} (hr : r ∈ db.rows e)
    (hp : p.conditions = c :: cs) (hcolumns : (p.conditions.map Condition.column).Nodup)
    (hrank : ∀ c ∈ p.conditions, Try.rank? e ⟨c, none⟩ = none)
    (hnever : ∀ c ∈ p.conditions, c.never e = false) (hc : db.failsOn c = true) :
    db.fails e p = true := by
  have hall : Try.all e [] p.conditions = p.conditions.map fun c => ⟨c, none⟩ :=
    Try.all_of_nodup hcolumns
  have hnone : p.conditions.any (·.never e) = false :=
    List.any_eq_false.mpr fun c hc => by simp [hnever c hc]
  -- nothing is put in for a column, so nothing is settled before rows are read
  have hrefuted : (p.conditions.map fun c => Try.mk c none).any (·.isRefuted db) = false := by
    rw [List.any_map]
    exact List.any_eq_false.mpr fun c _ => Bool.false_ne_true
  have hunsettled : (p.conditions.map fun c => Try.mk c none).filter (!·.isSettled) =
      p.conditions.map fun c => ⟨c, none⟩ := by
    refine List.filter_eq_self.mpr fun t ht => ?_
    obtain ⟨c, -, rfl⟩ := List.mem_map.mp ht
    rfl
  have horder : Try.inOrder e (p.conditions.map fun c => ⟨c, none⟩) =
      p.conditions.map fun c => ⟨c, none⟩ := by
    refine Try.inOrder_of_rank fun t ht => ?_
    obtain ⟨c, hc, rfl⟩ := List.mem_map.mp ht
    exact hrank c hc
  have hrows : ((db.rows e).any fun r => db.failsAt r (p.conditions.map fun c => ⟨c, none⟩)) = true := by
    refine List.any_eq_true.mpr ⟨r, hr, ?_⟩
    rw [hp, List.map_cons, failsAt, hc, Bool.true_or]
  unfold fails
  dsimp only
  rw [hall, hnone, hrefuted, hunsettled, horder, hrows, Bool.or_true]
  rfl

/-- A pattern that is too long is reported if it is tried first, and a row is there to try it on. -/
theorem excess?_eq_pattern {r : Row} {c : Condition} {cs : List Condition} (hr : r ∈ db.rows e)
    (hp : p.conditions = c :: cs) (hcolumns : (p.conditions.map Condition.column).Nodup)
    (hrank : ∀ c ∈ p.conditions, Try.rank? e ⟨c, none⟩ = none)
    (hnever : ∀ c ∈ p.conditions, c.never e = false) (hc : db.failsOn c = true)
    (hstatement : p.statementExcess? = none) : db.excess? e p = some .pattern := by
  have hfails : db.fails e p = true := fails_of_mem hr hp hcolumns hrank hnever hc
  unfold excess?
  rw [hstatement, hfails]
  rfl

/-- Without patterns that are too long, what is stored does not matter. -/
theorem excess?_of_patterns (h : ∀ c ∈ p.conditions, c.test.overlong = false) :
    db.excess? e p = p.statementExcess? := by
  unfold excess?
  rw [fails_of_not_overlong h]
  cases p.statementExcess? <;> rfl

/-- Nor is anything tried in a table without rows, unless a subquery is run to look its rows up. -/
theorem excess?_of_rows_eq_nil (hrows : db.rows e = []) (hhops : ∀ c ∈ p.conditions, c.path.hops = []) :
    db.excess? e p = p.statementExcess? := by
  have hfails : db.fails e p = false := by
    refine fails_eq_false (fun t ht rank hrank => ?_) fun r hr => ?_
    · exact failsOn_of_not_overlong (Try.overlong_of_rank (hhops _ (Try.mem_all ht)) hrank)
    · rw [hrows] at hr
      cases hr
  unfold excess?
  rw [hfails]
  cases p.statementExcess? <;> rfl

/-- **Nothing within the limits is refused.** -/
theorem excess?_eq_none (h : p.Within) : db.excess? e p = none := by
  rw [excess?_of_patterns h.patterns]
  exact Predicate.statementExcess?_eq_none.mpr ⟨h.placeholders, h.depth, h.operands⟩

/-! ## What a try depends on -/

section

variable {d₁ d₂ : Database}

/-- Subqueries are run along links in both of two stores or in neither, if the same tables have rows. -/
theorem reaches_congr {hops : List Hop}
    (h : ∀ hop ∈ hops, (d₁.rows hop.target).isEmpty = (d₂.rows hop.target).isEmpty) :
    d₁.reaches hops = d₂.reaches hops := by
  induction hops with
  | nil => rfl
  | cons hop hops ih =>
    obtain ⟨hhop, hhops⟩ := List.forall_mem_cons.mp h
    unfold reaches
    rw [hhop, ih hhops]

theorem failsOn_congr {c : Condition}
    (h : ∀ hop ∈ c.path.hops, (d₁.rows hop.target).isEmpty = (d₂.rows hop.target).isEmpty) :
    d₁.failsOn c = d₂.failsOn c := by
  unfold failsOn
  rw [reaches_congr h]

/-- Rows that have the same content in the columns of the conditions are tried in the same way. -/
theorem failsAt_congr {r s : Row} {ts : List Try}
    (hon : ∀ t ∈ ts, d₁.failsOn t.condition = d₂.failsOn t.condition)
    (htruth : ∀ t ∈ ts, ∀ v, t.condition.truthOf d₁ v = t.condition.truthOf d₂ v)
    (hget : ∀ t ∈ ts, r.get t.condition.column = s.get t.condition.column) :
    d₁.failsAt r ts = d₂.failsAt s ts := by
  induction ts with
  | nil => rfl
  | cons t ts ih =>
    obtain ⟨hon, hons⟩ := List.forall_mem_cons.mp hon
    obtain ⟨htruth, htruths⟩ := List.forall_mem_cons.mp htruth
    obtain ⟨hget, hgets⟩ := List.forall_mem_cons.mp hget
    have hsame : t.truth d₁ r = t.truth d₂ s := by
      unfold Try.truth
      rw [hget, htruth]
    unfold failsAt
    rw [hon, hsame, ih hons htruths hgets]

/-- Lists whose members correspond satisfy a test together. -/
theorem any_congr_of_forall₂ {α β : Type} {f : α → Bool} {g : β → Bool} {xs : List α} {ys : List β}
    (h : List.Forall₂ (fun x y => f x = g y) xs ys) : xs.any f = ys.any g := by
  induction h with
  | nil => rfl
  | cons hxy _ ih => rw [List.any_cons, List.any_cons, hxy, ih]

/-- A predicate fails in both of two stores or in neither, if the rows of the one have the same content as
those of the other in the columns of its conditions, each content makes these as true in the one as in the
other, and the same tables behind its links have rows. -/
theorem fails_congr {R : Row → Row → Prop} (hrows : List.Forall₂ R (d₁.rows e) (d₂.rows e))
    (hget : ∀ c ∈ p.conditions, ∀ r s, R r s → r.get c.column = s.get c.column)
    (htruth : ∀ c ∈ p.conditions, ∀ v, c.truthOf d₁ v = c.truthOf d₂ v)
    (htables : ∀ c ∈ p.conditions, ∀ hop ∈ c.path.hops,
      (d₁.rows hop.target).isEmpty = (d₂.rows hop.target).isEmpty) :
    d₁.fails e p = d₂.fails e p := by
  have hcondition : ∀ t ∈ Try.all e [] p.conditions, t.condition ∈ p.conditions :=
    fun t ht => Try.mem_all ht
  have hon : ∀ t ∈ Try.all e [] p.conditions, d₁.failsOn t.condition = d₂.failsOn t.condition :=
    fun t ht => failsOn_congr (htables _ (hcondition t ht))
  have hrefuted : ((Try.all e [] p.conditions).any fun t => t.isRefuted d₁) =
      (Try.all e [] p.conditions).any fun t => t.isRefuted d₂ := by
    refine any_congr_of_forall₂ (List.forall₂_same.mpr fun t ht => ?_)
    unfold Try.isRefuted
    simp only [htruth _ (hcondition t ht)]
  unfold fails
  dsimp only
  rw [hrefuted]
  generalize hunsettled : (Try.all e [] p.conditions).filter (!·.isSettled) = unsettled
  have hall : ∀ t ∈ unsettled, t ∈ Try.all e [] p.conditions := by
    rw [← hunsettled]
    exact fun t ht => (List.mem_filter.mp ht).1
  have hfirst : (Try.lookingUp? e unsettled).any (fun t => d₁.failsOn t.condition) =
      (Try.lookingUp? e unsettled).any fun t => d₂.failsOn t.condition := by
    cases h : Try.lookingUp? e unsettled with
    | none => rfl
    | some t => exact hon t (hall t (Try.exists_rank_of_lookingUp? h).1)
  have hordered : ∀ t ∈ Try.inOrder e unsettled, t ∈ Try.all e [] p.conditions :=
    fun t ht => hall t ((Try.inOrder_perm e unsettled).mem_iff.mp ht)
  have hany := any_congr_of_forall₂ <| hrows.imp fun r s hrs =>
    failsAt_congr (fun t ht => hon t (hordered t ht))
      (fun t ht => htruth _ (hcondition t (hordered t ht)))
      fun t ht => hget _ (hcondition t (hordered t ht)) r s hrs
  -- what is tried to look rows up, and on them, fails in both or in neither
  rw [hfirst, hany]

end

end Database

end AssetRegister
