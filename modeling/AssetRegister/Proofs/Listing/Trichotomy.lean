import AssetRegister.Proofs.Condition.Built
import AssetRegister.Proofs.Condition.Nested
import AssetRegister.Proofs.Condition.Refused
import AssetRegister.Proofs.Listing.Fitting

/-!
# Comparisons split the rows

A content that is there is less than an operand, equal to it or greater, whatever kinds of content the two
are. So of three comparisons of an attribute exactly one is true of a row, and the other three are their
negations. Where there is no content, because the column or a key on the way is empty, none of the six is
true, the negated ones no more than the others. Totals of listings add up accordingly.

Main statement: `Condition.comparisons_split`.
-/

namespace AssetRegister

open Outcome

/-! ## Comparisons of contents -/

/-- One of three comparisons holds, and the other three are the negations of these. -/
structure Comparison.Split (holds : Comparison → Prop) : Prop where
  one : ∃! c, c ∈ [lt, eq, gt] ∧ holds c
  le_iff : holds le ↔ ¬holds gt
  ge_iff : holds ge ↔ ¬holds lt
  ne_iff : holds ne ↔ ¬holds eq

namespace Comparison

/-- One order of two values makes the six comparisons fall apart. -/
theorem split_holds (o : Ordering) : Split fun c => c.holds o = true := by
  have hunique : ∀ c ∈ [lt, eq, gt], ∀ d ∈ [lt, eq, gt],
      c.holds o = true → d.holds o = true → d = c := by
    cases o <;> decide
  have hsome : ∃ c ∈ [lt, eq, gt], c.holds o = true := by
    cases o
    · exact ⟨lt, by decide, rfl⟩
    · exact ⟨eq, by decide, rfl⟩
    · exact ⟨gt, by decide, rfl⟩
  obtain ⟨c, hc, hholds⟩ := hsome
  refine ⟨⟨c, ⟨hc, hholds⟩, fun d hd => hunique c hc d hd.1 hholds hd.2⟩, ?_, ?_, ?_⟩ <;>
    cases o <;> decide

/-- What the comparisons say may be said in other words. -/
theorem Split.congr {P Q : Comparison → Prop} (h : Split P) (hPQ : ∀ c, Q c ↔ P c) : Split Q := by
  obtain rfl : Q = P := funext fun c => propext (hPQ c)
  exact h

/-- A row that differs is either below or above. -/
theorem Split.ne_iff_or {P : Comparison → Prop} (h : Split P) :
    (P ne ↔ P lt ∨ P gt) ∧ ¬(P lt ∧ P gt) := by
  obtain ⟨c, ⟨hc, hholds⟩, hunique⟩ := h.one
  have hlt : P lt → lt = c := fun hlt => hunique lt ⟨by decide, hlt⟩
  have heq : P eq → eq = c := fun heq => hunique eq ⟨by decide, heq⟩
  have hgt : P gt → gt = c := fun hgt => hunique gt ⟨by decide, hgt⟩
  rw [h.ne_iff]
  -- the one comparison that holds is one of three
  cases c with
  | lt => exact ⟨iff_of_true (fun h => nomatch heq h) (.inl hholds), fun h => nomatch hgt h.2⟩
  | eq =>
    refine ⟨iff_of_false (fun h => h hholds) ?_, fun h => nomatch hlt h.1⟩
    rintro (h | h)
    · exact nomatch hlt h
    · exact nomatch hgt h
  | gt => exact ⟨iff_of_true (fun h => nomatch heq h) (.inr hholds), fun h => nomatch hlt h.1⟩
  | ne | le | ge => exact absurd hc (by decide)

end Comparison

/-- Values that are there have an order, also across kinds of content. -/
theorem Value.exists_order? {a b : Value} (ha : a ≠ .null) (hb : b ≠ .null) :
    ∃ o, a.order? b = some o := by
  cases a <;> cases b <;> simp_all [order?]

/-- A number is a content. -/
theorem Value.ofBinary64_ne_null (x : Binary64) : ofBinary64 x ≠ .null := by
  unfold ofBinary64
  cases x.smallInteger? <;> simp

theorem Value.ne_null_of_numberOfText? {s : String} {v : Value} (h : numberOfText? s = some v) :
    v ≠ .null := by
  obtain ⟨d, -, rfl⟩ := Option.map_eq_some_iff.mp h
  dsimp only
  split
  · exact nofun
  · exact ofBinary64_ne_null _

/-- A column takes no operand as nothing. -/
theorem Affinity.convert_operand_ne_null (affinity : Affinity) (v : Operand) :
    affinity.convert v.value ≠ .null := by
  cases v with
  | integer n => cases affinity <;> exact nofun
  | text s =>
    cases affinity with
    | text => exact nofun
    | numeric =>
      -- a text that is no number stays a text
      show (Value.numberOfText? s).getD (.text s) ≠ .null
      cases h : Value.numberOfText? s with
      | none => exact nofun
      | some v => exact Value.ne_null_of_numberOfText? h

namespace Test

/-- The comparisons of a present content with an operand fall apart. -/
theorem split_eval (affinity : Affinity) {v : Value} (h : v ≠ .null) (operand : Operand) :
    Comparison.Split fun c => (compare c operand).eval affinity v = some true := by
  obtain ⟨o, ho⟩ := Value.exists_order? h (affinity.convert_operand_ne_null operand)
  refine (Comparison.split_holds o).congr fun c => ?_
  show (v.order? (affinity.convert operand.value)).map c.holds = some true ↔ _
  rw [ho, Option.map_some, Option.some.injEq]

/-- No comparison is true where there is no content. -/
theorem eval_compare_null (affinity : Affinity) (c : Comparison) (operand : Operand) :
    (compare c operand).eval affinity .null ≠ some true :=
  nofun

end Test

/-! ## Comparisons that compile -/

/-- The words that an attribute of a kind can be compared with. -/
def Kind.Accepts : Kind → String → Prop
  | numeric w, s => ∃ n, Text.Denotes s.toList n ∧ w.Holds n
  | text, _ => True

namespace Condition

/-- All comparisons that a kind knows are with the same operand. -/
theorem exists_compile_comparison {p : Path} {value : String} (h : p.kind.Accepts value) :
    ∃ v, ∀ c, p.kind.allows (.comparison c) = true →
      compile p (.comparison c) value = .ok ⟨p, .compare c v⟩ := by
  unfold compile
  cases hkind : p.kind with
  | numeric w =>
    rw [hkind] at h
    obtain ⟨n, hn⟩ := h
    refine ⟨.integer n, fun c _ => ?_⟩
    unfold Test.compile
    dsimp only
    rw [Text.readInteger_eq_ok.mpr hn]
    rfl
  -- texts know two of the six comparisons, and take every word
  | text =>
    refine ⟨.text value, fun c hc => ?_⟩
    cases c with
    | eq | ne => rfl
    | gt | lt | ge | le => cases hc

/-- Once the field is resolved, the comparison is compiled for its path. -/
theorem ofToken_of_resolve {e : Entity} {field value : String} {op : Operator} {p : Path}
    (h : Path.resolve e .underscored field = .ok p) :
    ofToken e ⟨field, op, value⟩ = compile p op value := by
  unfold ofToken
  dsimp only
  rw [h]

end Condition

/-! ## Comparisons behind links -/

namespace Condition

variable {db : Database} {p : Path} {v : Operand} {r t : Row}

/-- Comparisons behind links fall apart too, wherever these lead to a content. -/
theorem split_of_leads (hdb : db.Identified) (ht : db.Leads p.hops r t)
    (hpresent : t.get p.column ≠ .null) :
    Comparison.Split fun c => (Condition.mk p (.compare c v)).eval db r = some true := by
  have hleaf : Comparison.Split fun c => (Condition.mk p (.compare c v)).evalLeaf t = some true :=
    Test.split_eval (p.owner.affinity p.column) hpresent v
  exact hleaf.congr fun c => eval_iff_of_leads hdb ht

/-- None of them is true of a row from which the links lead to no content. -/
theorem not_true_of_absent (h : ∀ t, db.Leads p.hops r t → t.get p.column = .null)
    (c : Comparison) : (Condition.mk p (.compare c v)).eval db r ≠ some true := by
  intro htrue
  obtain ⟨t, ht, hleaf⟩ := evalHops_iff_leads.mp htrue
  have hnull : t.get p.column = .null := h t ht
  unfold evalLeaf at hleaf
  dsimp only at hleaf
  rw [hnull] at hleaf
  exact Test.eval_compare_null _ c v hleaf

/-- A row for which `!=` holds is one for which `<` or `>` does, and not both. On rows without content
none of them holds. -/
theorem ne_iff_lt_or_gt (hdb : db.Identified) (p : Path) (v : Operand) (r : Row) :
    ((Condition.mk p (.compare .ne v)).eval db r = some true ↔
      (Condition.mk p (.compare .lt v)).eval db r = some true ∨
        (Condition.mk p (.compare .gt v)).eval db r = some true) ∧
    ¬((Condition.mk p (.compare .lt v)).eval db r = some true ∧
      (Condition.mk p (.compare .gt v)).eval db r = some true) := by
  by_cases h : ∃ t, db.Leads p.hops r t ∧ t.get p.column ≠ .null
  · obtain ⟨t, ht, hpresent⟩ := h
    exact (split_of_leads hdb ht hpresent).ne_iff_or
  · have habsent : ∀ t, db.Leads p.hops r t → t.get p.column = .null := fun t ht =>
      Classical.not_not.mp fun hpresent => h ⟨t, ht, hpresent⟩
    have hnone := not_true_of_absent (v := v) habsent
    exact ⟨iff_of_false (hnone .ne) fun h => h.elim (hnone .lt) (hnone .gt),
      fun h => hnone .lt h.1⟩

end Condition

/-! ## Rows and totals -/

/-- Members that pass one of two tests, never both, are those that pass the first and those that pass the
second. -/
theorem perm_filter_of_or {α : Type} {p q s : α → Bool} (hs : ∀ a, s a = true ↔ p a = true ∨ q a = true)
    (hpq : ∀ a, ¬(p a = true ∧ q a = true)) (xs : List α) :
    (xs.filter p ++ xs.filter q).Perm (xs.filter s) := by
  -- of the members that pass `s`, those that pass `p` come first, and the others are those that pass `q`
  have hp : (xs.filter s).filter p = xs.filter p := by
    rw [List.filter_filter]
    refine List.filter_congr fun a _ => ?_
    rw [Bool.eq_iff_iff, Bool.and_eq_true, and_iff_left_iff_imp]
    exact fun h => (hs a).mpr (.inl h)
  have hq : ((xs.filter s).filter fun a => !p a) = xs.filter q := by
    rw [List.filter_filter]
    refine List.filter_congr fun a _ => ?_
    rw [Bool.eq_iff_iff, Bool.and_eq_true, Bool.not_eq_true', hs, ← Bool.not_eq_true]
    constructor
    · rintro ⟨hnot, hor⟩
      exact hor.resolve_left hnot
    · intro hqa
      exact ⟨fun hpa => hpq a ⟨hpa, hqa⟩, .inr hqa⟩
  rw [← hp, ← hq]
  exact List.filter_append_perm p (xs.filter s)

namespace Database

variable {db : Database}

/-- One condition among others only takes rows away. -/
theorem matching_among (db : Database) (e : Entity) (before after : List Condition) (c : Condition) :
    db.matching e ⟨before ++ c :: after⟩ =
      (db.matching e ⟨before ++ after⟩).filter fun r => c.eval db r == some true := by
  unfold matching
  rw [List.filter_filter]
  refine List.filter_congr fun r _ => ?_
  rw [Bool.eq_iff_iff, Bool.and_eq_true, beq_iff_eq, Predicate.holds_eq_true,
    Predicate.holds_eq_true]
  simp only [List.mem_append, List.mem_cons, or_imp, forall_and, forall_eq]
  tauto

/-- The rows below, at and above an operand are those at it and those that differ from it. -/
theorem perm_matching (hdb : db.Identified) (e : Entity) (before after : List Condition) (p : Path)
    (v : Operand) :
    let rows := fun c => db.matching e ⟨before ++ ⟨p, .compare c v⟩ :: after⟩
    (rows .lt ++ rows .eq ++ rows .gt).Perm (rows .eq ++ rows .ne) := by
  -- the rows that differ from the operand are those below it and those above it, none of them twice
  have hne : ∀ r, _ := Condition.ne_iff_lt_or_gt hdb p v
  have hdiffer : (db.matching e ⟨before ++ ⟨p, .compare .lt v⟩ :: after⟩ ++
      db.matching e ⟨before ++ ⟨p, .compare .gt v⟩ :: after⟩).Perm
      (db.matching e ⟨before ++ ⟨p, .compare .ne v⟩ :: after⟩) := by
    simp only [matching_among db e before after]
    exact perm_filter_of_or (by simpa using fun r => (hne r).1) (by simpa using fun r => (hne r).2) _
  dsimp only
  refine List.Perm.trans ?_ (hdiffer.append_left _)
  rw [← List.append_assoc]
  exact List.perm_append_comm.append_right _

/-- A total counts the rows that match the condition of one comparison between those of the others. -/
theorem total_of_among {e : Entity} {mode : ParseMode} {params : Params} {extra : Option Predicate}
    {before after : List Token} {t : Token} {c : Condition} {records : List Record} {n : Nat}
    (hts : Listing.tokens mode params.filter = .ok (before ++ t :: after))
    (hc : Condition.ofToken e t = .ok c)
    (hlist : db.list e mode params extra = .ok ⟨records, some n⟩) :
    ∃ bs as, before.mapM (Condition.ofToken e) = .ok bs ∧ after.mapM (Condition.ofToken e) = .ok as ∧
      n = (db.matching e ⟨bs ++ c :: (as ++ extra.elim [] Predicate.conditions)⟩).length := by
  obtain ⟨rows, hrows, -⟩ := exists_selected_of_list hlist
  obtain ⟨-, p, hp, hmatching⟩ := selected_eq_ok.mp hrows
  obtain ⟨ts, hts', htokens⟩ := Listing.compile_eq_ok.mp hp
  cases hts.symm.trans hts'
  obtain ⟨bs, c', as, hbs, hc', has, rfl⟩ := Predicate.ofTokens_append_cons_eq_ok.mp htokens
  cases hc.symm.trans hc'
  refine ⟨bs, as, hbs, has, ?_⟩
  rw [total_of_list hlist hrows n rfl, ← hmatching]
  -- the conditions of the extra predicate stand behind those of the filter
  cases extra with
  | none => simp [Predicate.narrowed]
  | some q => simp [Predicate.narrowed, Predicate.both]

end Database

namespace Condition

/-- **Comparisons split the rows.** Let a word be an operand of the attribute at the end of a path.

* The comparisons that the attribute's kind knows compile: all six for numbers, `=` and `!=` for texts.

In every store whose rows are told apart by their identifiers:

* Of a row from which the path leads to a content exactly one of `<`, `=` and `>` is true, `<=` is true
  unless `>` is, `>=` unless `<` is, and `!=` unless `=` is. Of every other row none is true.
* Among any other conditions, the rows below, at and above the operand are those at it and those that
  differ from it.
* So are the totals of listings whose filters differ in this comparison only, whatever their pages. -/
theorem comparisons_split {p : Path} {value : String} (hvalue : p.kind.Accepts value) :
    ∃ cond : Comparison → Condition,
      (∀ c, p.kind.allows (.comparison c) = true →
        compile p (.comparison c) value = .ok (cond c)) ∧
      ∀ db : Database, db.Identified →
        (∀ r t, db.Leads p.hops r t → t.get p.column ≠ .null →
          Comparison.Split fun c => (cond c).eval db r = some true) ∧
        (∀ r, (∀ t, db.Leads p.hops r t → t.get p.column = .null) →
          ∀ c, (cond c).eval db r ≠ some true) ∧
        (∀ e before after,
          let rows := fun c => db.matching e ⟨before ++ cond c :: after⟩
          (rows .lt ++ rows .eq ++ rows .gt).Perm (rows .eq ++ rows .ne)) ∧
        ∀ e field mode extra before after (params : Comparison → Params) (total : Comparison → Nat),
          Path.resolve e .underscored field = .ok p → p.kind ≠ .text →
          (∀ c ∈ [Comparison.lt, .eq, .gt, .ne],
            Listing.tokens mode (params c).filter =
                .ok (before ++ ⟨field, .comparison c, value⟩ :: after) ∧
              ∃ records, db.list e mode (params c) extra = .ok ⟨records, some (total c)⟩) →
          total .lt + total .eq + total .gt = total .eq + total .ne := by
  obtain ⟨v, hcompile⟩ := exists_compile_comparison hvalue
  refine ⟨fun c => ⟨p, .compare c v⟩, hcompile, fun db hdb => ⟨fun r t => split_of_leads hdb,
    fun r => not_true_of_absent, fun e before after => db.perm_matching hdb e before after p v, ?_⟩⟩
  intro e field mode extra before after params total hp hkind hlists
  have hallows : ∀ c, p.kind.allows (.comparison c) = true := by
    intro c
    cases h : p.kind with
    | numeric w => rfl
    | text => exact absurd h hkind
  have hrest : ∀ c ∈ [Comparison.lt, .eq, .gt, .ne], ∃ bs as,
      before.mapM (ofToken e) = .ok bs ∧ after.mapM (ofToken e) = .ok as ∧
      total c = (db.matching e ⟨bs ++ ⟨p, .compare c v⟩ ::
        (as ++ extra.elim [] Predicate.conditions)⟩).length := by
    intro c hc
    obtain ⟨htokens, records, hlist⟩ := hlists c hc
    exact Database.total_of_among htokens
      ((ofToken_of_resolve hp).trans (hcompile c (hallows c))) hlist
  -- the other comparisons compile to the same conditions in all four filters
  obtain ⟨bs, as, hbs, has, -⟩ := hrest .eq (by decide)
  have htotal : ∀ c ∈ [Comparison.lt, .eq, .gt, .ne], total c = (db.matching e
      ⟨bs ++ ⟨p, .compare c v⟩ :: (as ++ extra.elim [] Predicate.conditions)⟩).length := by
    intro c hc
    obtain ⟨_, _, hbs', has', hn⟩ := hrest c hc
    cases hbs.symm.trans hbs'
    cases has.symm.trans has'
    exact hn
  have hlength :=
    (db.perm_matching hdb e bs (as ++ extra.elim [] Predicate.conditions) p v).length_eq
  simp only [List.length_append] at hlength
  rw [htotal .lt (by decide), htotal .eq (by decide), htotal .gt (by decide), htotal .ne (by decide)]
  exact hlength

/-! ### Groups by their creators

Of the groups with three members or more, one was created by the first user and two by the second. -/

/-- The identifier of the creator of a group. -/
def creatorId : Path := ⟨[⟨.userGroups, "created_by", .users⟩], .users, "id", .numeric .bits64⟩

def creatorParams (c : Comparison) : Params :=
  { limit := 1, filter := some ("createdBy_id " ++ c.symbol ++ " +1 and memberCount >= 3") }

def creatorTotal : Comparison → Nat
  | .lt => 0
  | .eq | .le => 1
  | .gt | .ne => 2
  | .ge => 3

set_option maxRecDepth 10000 in
theorem tokens_creatorParams (c : Comparison) :
    Listing.tokens .lenient (creatorParams c).filter =
      .ok ([] ++ ⟨"createdBy_id", .comparison c, "+1"⟩ :: [⟨"memberCount", .comparison .ge, "3"⟩]) := by
  show Token.ofFilter .lenient ("createdBy_id " ++ c.symbol ++ " +1 and memberCount >= 3") = _
  rw [Token.ofFilter, if_neg (by cases c <;> decide)]
  rw [Filter.clauses_eq_cons ("createdBy_id " ++ c.symbol ++ " +1").toList
    "memberCount >= 3".toList (by cases c <;> decide)]
  rw [Filter.clauses_eq_singleton "memberCount >= 3".toList (by decide)]
  cases c <;> decide

theorem ofTokens_creatorParams (c : Comparison) :
    Predicate.ofTokens .userGroups
        ([] ++ ⟨"createdBy_id", .comparison c, "+1"⟩ :: [⟨"memberCount", .comparison .ge, "3"⟩]) =
      .ok ⟨[⟨creatorId, .compare c (.integer 1)⟩,
        ⟨⟨[], .userGroups, "member_count", .numeric .bits32⟩, .compare .ge (.integer 3)⟩]⟩ := by
  cases c <;> rfl

/-- The four totals are as counted by hand. -/
theorem list_creatorParams (c : Comparison) :
    ∃ records, Database.fourGroups.list .userGroups .lenient (creatorParams c) none =
      .ok ⟨records, some (creatorTotal c)⟩ := by
  have hcompile := Listing.compile_eq_ok.mpr ⟨_, tokens_creatorParams c,
    (ofTokens_creatorParams c : Predicate.ofTokens .userGroups _ = .ok _)⟩
  rw [Database.list_of_within Database.fourGroups rfl hcompile (by cases c <;> decide)]
  cases c <;> exact ⟨_, rfl⟩

/-- The second user's group is at or above the first user, and a group without creator is nowhere. -/
theorem comparisons_split_creators :
    ∃ cond : Comparison → Condition,
      compile creatorId (.comparison .ge) "+1" = .ok (cond .ge) ∧
      (cond .ge).eval Database.fourGroups (Database.groupRow 4 2 2) = some true ∧
      (∀ c, (cond c).eval Database.fourGroups ⟨10, [("created_by", .null)]⟩ ≠ some true) ∧
      creatorTotal .lt + creatorTotal .eq + creatorTotal .gt =
        creatorTotal .eq + creatorTotal .ne := by
  have hdigits : Text.Digits ['1'] := ⟨List.cons_ne_nil _ _, List.all_eq_true.mp rfl⟩
  have hone : Text.Denotes "+1".toList 1 := .plus hdigits
  have haccepts : creatorId.kind.Accepts "+1" := ⟨1, hone, by decide, by decide⟩
  obtain ⟨cond, hcompile, hall⟩ := comparisons_split haccepts
  obtain ⟨hsplit, habsent, -, htotal⟩ :=
    hall Database.fourGroups Database.ordered_fourGroups.identified
  refine ⟨cond, hcompile .ge rfl, ?_, habsent _ ?_, ?_⟩
  · have hbob : (⟨2, [("user_name", .text "bob")]⟩ : Row) ∈ Database.fourGroups.rows .users := by
      decide
    rw [(hsplit _ _ (.along (by decide) hbob (by decide) (.here _)) (by decide)).ge_iff]
    have hlt : cond .lt = ⟨creatorId, .compare .lt (.integer 1)⟩ :=
      Except.ok.inj ((hcompile .lt rfl).symm.trans rfl)
    rw [hlt]
    decide
  · rintro t (_ | ⟨hpresent, -⟩)
    exact absurd rfl hpresent
  · exact htotal .userGroups "createdBy_id" .lenient none [] _ creatorParams creatorTotal rfl
      (by decide) fun c _ => ⟨tokens_creatorParams c, list_creatorParams c⟩

end Condition

end AssetRegister
