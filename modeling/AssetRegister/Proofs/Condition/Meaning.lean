import AssetRegister.Proofs.Condition.QueryText
import AssetRegister.Store.Evaluate

/-!
# A query text and its operands determine the meaning

Different conditions may share a text: a membership in an empty list reads the same for every attribute.
They then mean the same. A query text can be taken apart in one way only, although it is written without
marks for where a name, a subquery or a condition ends: names have neither blanks nor capitals, a subquery
is told from a list by the letter after its parenthesis, and the joining word has a letter that no
condition has.

Main statement: `Predicate.eval_eq_of_queryText`.
-/

namespace AssetRegister

/-! ## Cutting texts -/

/-- The characters at which a query text is cut. -/
def cutChars : List Char := [' ', '(', 'A']

/-- A text is cut in one way at the first place of a character. -/
theorem cut_inj {mark : String} {c : Char} (hmark : mark.toList = [c]) {s t x y : String}
    (hs : c ∉ s.toList) (ht : c ∉ t.toList) (h : s ++ (mark ++ x) = t ++ (mark ++ y)) :
    s = t ∧ x = y := by
  have hchars : s.toList ++ c :: x.toList = t.toList ++ c :: y.toList := by
    have := congrArg String.toList h
    simpa [hmark] using this
  -- what stands before the character is what can be taken without it
  have hst : s.toList = t.toList := by
    rw [← Text.takeWhile_bne_append hs, hchars, Text.takeWhile_bne_append ht]
  rw [hst] at hchars
  exact ⟨String.toList_inj.mp hst,
    String.toList_inj.mp (List.cons.inj (List.append_cancel_left hchars)).2⟩

/-- The first two words of a text and what follows them. -/
theorem words_inj {s t v w x y : String} (hs : ' ' ∉ s.toList) (ht : ' ' ∉ t.toList)
    (hv : ' ' ∉ v.toList) (hw : ' ' ∉ w.toList)
    (h : s ++ (" " ++ (v ++ (" " ++ x))) = t ++ (" " ++ (w ++ (" " ++ y)))) :
    s = t ∧ v = w ∧ x = y := by
  obtain ⟨hst, hrest⟩ := cut_inj rfl hs ht h
  exact ⟨hst, cut_inj rfl hv hw hrest⟩

/-- A joined text has only the characters of its parts and of the separator. -/
theorem notMem_intercalate {c : Char} {sep : String} (hsep : c ∉ sep.toList) {texts : List String}
    (h : ∀ s ∈ texts, c ∉ s.toList) : c ∉ (String.intercalate sep texts).toList := by
  induction texts with
  | nil => simp
  | cons s texts ih =>
    obtain ⟨hs, htexts⟩ := List.forall_mem_cons.mp h
    cases texts with
    | nil =>
      rw [String.intercalate_singleton]
      exact hs
    | cons t texts =>
      rw [String.intercalate_cons_cons]
      simp only [String.toList_append, List.mem_append, hs, hsep, ih htexts, or_self,
        not_false_eq_true]

/-! ## Names of the catalog -/

namespace Entity

/-- Tables have none of these characters in their names, and columns have none either. -/
theorem notMem_table (e : Entity) {c : Char} (hc : c ∈ cutChars) : c ∉ e.table.toList := by
  have hall : cutChars.Forall fun c => c ∉ e.table.toList := by
    cases e <;> decide
  exact List.forall_iff_forall_mem.mp hall c hc

theorem notMem_column {e : Entity} {a : Attribute} (ha : a ∈ e.attributes) {c : Char}
    (hc : c ∈ cutChars) : c ∉ a.column.toList := by
  have hall : ∀ a ∈ e.attributes, cutChars.Forall fun c => c ∉ a.column.toList := by
    cases e <;> decide
  exact List.forall_iff_forall_mem.mp (hall a ha) c hc

theorem notMem_qualified_of {column : String} {c : Char} (hc : c ∈ cutChars) (h : c ∉ column.toList)
    (e : Entity) : c ∉ (e.qualified column).toList := by
  have hdot : ∀ c ∈ cutChars, c ∉ ".".toList := List.forall_iff_forall_mem.mp (by decide)
  unfold qualified
  simp only [String.toList_append, List.mem_append, e.notMem_table hc, hdot c hc, h, or_self,
    not_false_eq_true]

/-- Names have no blanks, no parentheses and no capitals. -/
theorem notMem_qualified {e : Entity} {a : Attribute} (ha : a ∈ e.attributes) {c : Char}
    (hc : c ∈ cutChars) : c ∉ (e.qualified a.column).toList :=
  e.notMem_qualified_of hc (notMem_column ha hc)

/-- Nor has the name of an identifier. -/
theorem notMem_qualified_id (e : Entity) {c : Char} (hc : c ∈ cutChars) :
    c ∉ (e.qualified e.primaryKey).toList := by
  have hid : ∀ c ∈ cutChars, c ∉ "id".toList := List.forall_iff_forall_mem.mp (by decide)
  exact e.notMem_qualified_of hc (hid c hc)

/-- No two entities share a table. -/
theorem table_inj {e f : Entity} (h : e.table = f.table) : e = f := by
  revert h
  cases e <;> cases f <;> decide

theorem qualified_id_inj {e f : Entity} (h : e.qualified e.primaryKey = f.qualified f.primaryKey) :
    e = f :=
  table_inj ((String.append_left_inj _).mp ((String.append_left_inj _).mp h))

theorem qualified_inj {e : Entity} {column column' : String}
    (h : e.qualified column = e.qualified column') : column = column' :=
  (String.append_right_inj _).mp h

end Entity

/-! ## The text of a test -/

theorem Comparison.symbol_inj {c d : Comparison} (h : c.symbol = d.symbol) : c = d := by
  revert h
  cases c <;> cases d <;> decide

/-- No symbol of a comparison is one of the words that other tests have in its place. -/
theorem Comparison.symbol_notMem (c : Comparison) : c.symbol ∉ ["LIKE", "IN", "IS"] := by
  cases c <;> decide

namespace TestForm

/-- The first word of the text of a test of a column. -/
def subject (column : String) : TestForm → String
  | ilike => "unicode_lower(" ++ column ++ ")"
  | among 0 => "0"
  | _ => column

/-- The second word. -/
def verb : TestForm → String
  | compare c => c.symbol
  | like | ilike => "LIKE"
  | among 0 => "="
  | among _ => "IN"
  | isNull => "IS"

/-- What follows the second word. -/
def object : TestForm → String
  | compare _ | like | ilike => "?"
  | among 0 => "1"
  | among n => "(" ++ (String.intercalate ", " (List.replicate n "?") ++ ")")
  | isNull => "NULL"

end TestForm

/-- The text of a test as three words. -/
theorem Test.queryText_eq (t : Test) (column : String) :
    t.queryText column =
      t.form.subject column ++ (" " ++ (t.form.verb ++ (" " ++ t.form.object))) := by
  cases t with
  | compare c v =>
    show column ++ " " ++ c.symbol ++ " ?" = column ++ (" " ++ (c.symbol ++ (" " ++ "?")))
    simp only [String.append_assoc]
    rfl
  | like pattern => rfl
  | ilike pattern =>
    show "unicode_lower(" ++ column ++ ") LIKE ?" =
      "unicode_lower(" ++ column ++ ")" ++ (" " ++ ("LIKE" ++ (" " ++ "?")))
    simp only [String.append_assoc]
    rfl
  -- the empty list has a text of its own
  | among vs =>
    cases vs with
    | nil => rfl
    | cons v vs =>
      rw [queryText_among column (List.cons_ne_nil v vs)]
      show column ++ " IN (" ++ _ ++ ")" = column ++ (" " ++ ("IN" ++ (" " ++ ("(" ++ (_ ++ ")")))))
      simp only [String.append_assoc]
      rfl
  | isNull => rfl

namespace TestForm

/-- The second word of a test has no character at which texts are cut. -/
theorem notMem_verb (f : TestForm) : ∀ c ∈ cutChars, c ∉ f.verb.toList := by
  refine List.forall_iff_forall_mem.mp ?_
  cases f with
  | compare c => cases c <;> decide
  | like | ilike | isNull => decide
  | among n =>
    cases n with
    | zero => decide
    | succ n =>
      show cutChars.Forall fun c => c ∉ "IN".toList
      decide

/-- Neither has the first, if the column has none and the parenthesis is not counted. -/
theorem notMem_subject {column : String} {c : Char} (hc : c ∈ [' ', 'A'])
    (h : c ∉ column.toList) (f : TestForm) : c ∉ (f.subject column).toList := by
  have hwords : ∀ c ∈ [' ', 'A'],
      c ∉ "unicode_lower(".toList ∧ c ∉ ")".toList ∧ c ∉ "0".toList :=
    List.forall_iff_forall_mem.mp (by decide)
  obtain ⟨hopen, hclose, hzero⟩ := hwords c hc
  -- only `ilike` writes words around the column, and an empty list writes no column at all
  cases f with
  | compare | like | isNull => exact h
  | ilike =>
    show c ∉ ("unicode_lower(" ++ column ++ ")").toList
    rw [String.toList_append, String.toList_append]
    simp only [List.mem_append, hopen, h, hclose, or_self, not_false_eq_true]
  | among n =>
    cases n with
    | zero => exact hzero
    | succ n => exact h

/-- What follows them lacks the letter of the joining word. -/
theorem notMem_object (f : TestForm) : 'A' ∉ f.object.toList := by
  have hmark : 'A' ∉ "?".toList := by decide
  cases f with
  | compare | like | ilike => exact hmark
  | isNull => decide
  | among n =>
    cases n with
    | zero => decide
    | succ n =>
      have hmarks : 'A' ∉ (String.intercalate ", " (List.replicate (n + 1) "?")).toList :=
        notMem_intercalate (by decide) fun s hs => List.eq_of_mem_replicate hs ▸ hmark
      show 'A' ∉ ("(" ++ (_ ++ ")")).toList
      rw [String.toList_append, String.toList_append, List.mem_append, List.mem_append]
      exact not_or.mpr ⟨by decide, not_or.mpr ⟨hmarks, by decide⟩⟩

/-- A list of marks starts with one. -/
theorem exists_intercalate_marks (n : Nat) :
    ∃ marks, String.intercalate ", " (List.replicate (n + 1) "?") = "?" ++ marks := by
  cases n with
  | zero => exact ⟨"", rfl⟩
  | succ n =>
    refine ⟨", " ++ String.intercalate ", " (List.replicate (n + 1) "?"), ?_⟩
    rw [List.replicate_succ, List.replicate_succ, String.intercalate_cons_cons, String.append_assoc]

/-- A list is no subquery. -/
theorem object_ne_subquery (f : TestForm) (text : String) : f.object ≠ "(SELECT " ++ text := by
  intro h
  have hchars := congrArg (List.take 2 ∘ String.toList) h
  simp only [Function.comp_apply, String.toList_append] at hchars
  cases f with
  | compare | like | ilike | isNull => simp [object] at hchars
  | among n =>
    cases n with
    | zero => simp [object] at hchars
    | succ n =>
      obtain ⟨marks, hmarks⟩ := exists_intercalate_marks n
      simp [object, hmarks] at hchars

/-- Lists of the same text are of the same length. -/
theorem among_object_inj {n m : Nat} (h : (among (n + 1)).object = (among (m + 1)).object) :
    n = m := by
  have hcomma : placeholders ", " = 0 := rfl
  have hmarks := congrArg placeholders
    ((String.append_left_inj _).mp ((String.append_right_inj _).mp h))
  rw [placeholders_intercalate hcomma, placeholders_intercalate hcomma,
    placeholders_join_replicate, placeholders_join_replicate] at hmarks
  exact Nat.succ.inj hmarks

/-! The second word and what follows it tell the form. -/

section Words

variable {f : TestForm}

/-- A symbol before a single mark is that of a comparison. -/
theorem eq_compare {c : Comparison} (hverb : f.verb = c.symbol) (hobject : f.object = "?") :
    f = .compare c := by
  have hword : ∀ {s : String}, s = c.symbol → s ∈ ["LIKE", "IN", "IS"] → False :=
    fun h hs => c.symbol_notMem (h ▸ hs)
  cases f with
  | compare d => exact congrArg compare (Comparison.symbol_inj hverb)
  | like | ilike | isNull => exact (hword hverb (by decide)).elim
  | among n =>
    cases n with
    | zero => simp [object] at hobject
    | succ n => exact (hword hverb (by simp [verb])).elim

/-- Both substring tests have the same second word. -/
theorem eq_like_or_ilike (h : f.verb = "LIKE") : f = .like ∨ f = .ilike := by
  cases f with
  | compare c => exact absurd (h ▸ List.mem_cons_self) c.symbol_notMem
  | like => exact .inl rfl
  | ilike => exact .inr rfl
  | among n => cases n <;> simp [verb] at h
  | isNull => simp [verb] at h

/-- Behind this word comes a list that is not empty. -/
theorem eq_among_succ (h : f.verb = "IN") : ∃ n, f = .among (n + 1) := by
  cases f with
  | compare c => exact absurd (h ▸ .tail _ List.mem_cons_self) c.symbol_notMem
  | like | ilike | isNull => simp [verb] at h
  | among n =>
    cases n with
    | zero => simp [verb] at h
    | succ n => exact ⟨n, rfl⟩

/-- The empty list is told by its last word, as its second is the symbol of a comparison. -/
theorem eq_among_zero (h : f.object = "1") : f = .among 0 := by
  cases f with
  | compare | like | ilike | isNull => simp [object] at h
  | among n =>
    cases n with
    | zero => rfl
    | succ n =>
      obtain ⟨marks, hmarks⟩ := exists_intercalate_marks n
      have hchars := congrArg (List.head? ∘ String.toList) h
      simp [object, hmarks] at hchars

theorem eq_isNull (h : f.verb = "IS") : f = .isNull := by
  cases f with
  | compare c => exact absurd (h ▸ .tail _ (.tail _ List.mem_cons_self)) c.symbol_notMem
  | like | ilike => simp [verb] at h
  | among n => cases n <;> simp [verb] at h
  | isNull => rfl

end Words

/-- The words tell the form and the column, unless they are those of an empty list. -/
theorem words_inj {f g : TestForm} {x y : String} (hx : '(' ∉ x.toList) (hy : '(' ∉ y.toList)
    (hsubject : f.subject x = g.subject y) (hverb : f.verb = g.verb)
    (hobject : f.object = g.object) : f = .among 0 ∧ g = .among 0 ∨ x = y ∧ f = g := by
  have hlowered : ∀ {s t : String}, s = "unicode_lower(" ++ t ++ ")" → '(' ∈ s.toList := by
    rintro s t rfl
    simp
  cases f with
  | compare c =>
    obtain rfl := eq_compare hverb.symm hobject.symm
    exact .inr ⟨hsubject, rfl⟩
  | like =>
    -- the same two words stand behind a lowered column, which has a parenthesis
    rcases eq_like_or_ilike hverb.symm with rfl | rfl
    · exact .inr ⟨hsubject, rfl⟩
    · exact absurd (hlowered hsubject) hx
  | ilike =>
    rcases eq_like_or_ilike hverb.symm with rfl | rfl
    · exact absurd (hlowered hsubject.symm) hy
    · have hinner := (String.append_left_inj _).mp hsubject
      exact .inr ⟨(String.append_right_inj _).mp hinner, rfl⟩
  | among n =>
    cases n with
    | zero => exact .inl ⟨rfl, eq_among_zero hobject.symm⟩
    | succ n =>
      obtain ⟨m, rfl⟩ := eq_among_succ hverb.symm
      exact .inr ⟨hsubject, congrArg (among <| · + 1) (among_object_inj hobject)⟩
  | isNull =>
    obtain rfl := eq_isNull hverb.symm
    exact .inr ⟨hsubject, rfl⟩

end TestForm

namespace Test

/-- A test is what its form leaves open, the operands. -/
theorem eq_of_form {t u : Test} (hform : t.form = u.form) (hoperands : t.operands = u.operands) :
    t = u := by
  cases t with
  | compare c v => cases u <;> cases hform; cases hoperands; rfl
  | like pattern => cases u <;> cases hform; cases hoperands; rfl
  | ilike pattern => cases u <;> cases hform; cases hoperands; rfl
  | among vs =>
    cases u with
    | among ws => exact congrArg among hoperands
    | compare | like | ilike | isNull => cases hform
  | isNull => cases u <;> cases hform; rfl

theorem eq_among_nil {t : Test} (h : t.form = .among 0) : t = .among [] := by
  cases t with
  | among vs =>
    rw [List.length_eq_zero_iff.mp (TestForm.among.inj h)]
  | compare | like | ilike | isNull => cases h

/-- Membership in an empty list is false of every content, absent ones included. -/
theorem eval_among_nil (affinity : Affinity) (v : Value) :
    (among []).eval affinity v = some false :=
  rfl

/-- The text of a test of a column tells both, unless it is that of an empty list. -/
theorem queryText_inj {t u : Test} {x y : String} (hx : ∀ c ∈ cutChars, c ∉ x.toList)
    (hy : ∀ c ∈ cutChars, c ∉ y.toList) (h : t.queryText x = u.queryText y)
    (hoperands : t.operands = u.operands) :
    t = .among [] ∧ u = .among [] ∨ x = y ∧ t = u := by
  have hblank : ∀ f : TestForm, ' ' ∉ f.verb.toList := fun f => f.notMem_verb ' ' (by decide)
  rw [queryText_eq, queryText_eq] at h
  obtain ⟨hsubject, hverb, hobject⟩ := words_inj
    (t.form.notMem_subject (by decide) (hx ' ' (by decide)))
    (u.form.notMem_subject (by decide) (hy ' ' (by decide))) (hblank _) (hblank _) h
  rcases TestForm.words_inj (hx '(' (by decide)) (hy '(' (by decide)) hsubject hverb hobject with
    ⟨ht, hu⟩ | ⟨hcolumn, hform⟩
  · exact .inl ⟨eq_among_nil ht, eq_among_nil hu⟩
  · exact .inr ⟨hcolumn, eq_of_form hform hoperands⟩

end Test

/-! ## The text of a condition -/

/-- The text of a hop in words: a column, a word, and the subquery. -/
theorem Hop.queryText_eq (h : Hop) (inner : String) :
    h.queryText inner =
      h.owner.qualified h.column ++ (" " ++ ("IN" ++ (" " ++ ("(SELECT " ++
        (h.target.qualified h.target.primaryKey ++ (" " ++ ("FROM " ++ (h.target.table ++
          (" WHERE " ++ (inner ++ ")")))))))))) := by
  have hin : (" IN (SELECT " : String) = " " ++ ("IN" ++ (" " ++ "(SELECT ")) := rfl
  have hfrom : (" FROM " : String) = " " ++ "FROM " := rfl
  unfold queryText
  rw [hin, hfrom]
  simp only [String.append_assoc]

/-- The text of a subquery tells the column, the entity that is searched and the text inside. -/
theorem Hop.queryText_inj {g h : Hop} {x y : String} (heq : g.queryText x = h.queryText y)
    (hg : ' ' ∉ (g.owner.qualified g.column).toList)
    (hh : ' ' ∉ (h.owner.qualified h.column).toList) :
    g.owner.qualified g.column = h.owner.qualified h.column ∧ g.target = h.target ∧ x = y := by
  have hid : ∀ e : Entity, ' ' ∉ (e.qualified e.primaryKey).toList :=
    fun e => e.notMem_qualified_id (by decide)
  rw [queryText_eq, queryText_eq] at heq
  obtain ⟨hcolumn, -, hsubquery⟩ := words_inj hg hh (by decide) (by decide) heq
  obtain ⟨hids, hrest⟩ := cut_inj rfl (hid _) (hid _) ((String.append_right_inj _).mp hsubquery)
  have htarget := Entity.qualified_id_inj hids
  rw [htarget, String.append_right_inj, String.append_right_inj, String.append_right_inj,
    String.append_left_inj] at hrest
  exact ⟨hcolumn, htarget, hrest⟩

/-- A test is no subquery. -/
theorem Test.queryText_ne_hop {t : Test} {h : Hop} {column inner : String}
    (hcolumn : ' ' ∉ column.toList) (hh : ' ' ∉ (h.owner.qualified h.column).toList) :
    t.queryText column ≠ h.queryText inner := by
  intro heq
  rw [queryText_eq, Hop.queryText_eq] at heq
  obtain ⟨-, -, hobject⟩ := words_inj (t.form.notMem_subject (by decide) hcolumn) hh
    (t.form.notMem_verb ' ' (by decide)) (by decide) heq
  exact t.form.object_ne_subquery _ hobject

/-- Nested texts tell the chain of relations and the text of the test. Induction on the one chain, with
the other left open. -/
theorem Chain.queryText_inj {e l m : Entity} {gs hs : List Hop} (hg : Chain e gs l)
    (hh : Chain e hs m) {a b : Attribute} (ha : a ∈ l.attributes) (hb : b ∈ m.attributes) {t u : Test}
    (h : gs.foldr Hop.queryText (t.queryText (l.qualified a.column)) =
      hs.foldr Hop.queryText (u.queryText (m.qualified b.column))) :
    gs = hs ∧ l = m ∧ t.queryText (l.qualified a.column) = u.queryText (m.qualified b.column) := by
  have hblank : ∀ {e : Entity} {a : Attribute}, a ∈ e.attributes →
      ' ' ∉ (e.qualified a.column).toList := fun ha => Entity.notMem_qualified ha (by decide)
  induction hg generalizing hs with
  | nil e =>
    cases hh with
    | nil => exact ⟨rfl, rfl, h⟩
    | cons hname _ _ =>
      -- a text ends in a test at one place only
      exact absurd h (Test.queryText_ne_hop (hblank ha) (hblank (Entity.mem_of_attribute? hname)))
  | cons hname htype _ ih =>
    have hcolumn := hblank (Entity.mem_of_attribute? hname)
    cases hh with
    | nil => exact absurd h.symm (Test.queryText_ne_hop (hblank hb) hcolumn)
    | cons hname' htype' hrest =>
      rw [List.foldr_cons, List.foldr_cons] at h
      obtain ⟨hnames, htarget, hinner⟩ :=
        Hop.queryText_inj h hcolumn (hblank (Entity.mem_of_attribute? hname'))
      dsimp only at htarget
      subst htarget
      obtain ⟨rfl, hlast, htest⟩ := ih hrest ha hinner
      have hcolumns := Entity.qualified_inj hnames
      dsimp only at hcolumns
      rw [hcolumns]
      exact ⟨rfl, hlast, htest⟩

namespace Condition

/-- Conditions that mean the same: tests of the same attribute, or memberships in empty lists behind the
same hops. -/
def SameMeaning (c d : Condition) : Prop :=
  c.path.hops = d.path.hops ∧
    (c.test = .among [] ∧ d.test = .among [] ∨
      (c.path.owner = d.path.owner ∧ c.path.column = d.path.column) ∧ c.test = d.test)

/-- Conditions with the same text and operands mean the same. -/
theorem sameMeaning_of_queryText {e : Entity} {c d : Condition} (hc : c.path.Resolved e)
    (hd : d.path.Resolved e) (h : c.queryText = d.queryText)
    (hoperands : c.test.operands = d.test.operands) : c.SameMeaning d := by
  obtain ⟨a, ha, hcolumn, -⟩ := hc.leaf
  obtain ⟨b, hb, hcolumn', -⟩ := hd.leaf
  unfold queryText Path.qualifiedColumn at h
  rw [hcolumn, hcolumn'] at h
  obtain ⟨hhops, howner, htest⟩ := hc.chain.queryText_inj hd.chain ha hb h
  refine ⟨hhops, ?_⟩
  rcases Test.queryText_inj (fun c hc => Entity.notMem_qualified ha hc)
    (fun c hc => Entity.notMem_qualified hb hc) htest hoperands with hempty | ⟨hnames, hsame⟩
  · exact .inl hempty
  · rw [← hcolumn, ← hcolumn', howner] at hnames
    exact .inr ⟨⟨howner, Entity.qualified_inj hnames⟩, hsame⟩

/-- What means the same has the same truth. -/
theorem SameMeaning.eval_eq {c d : Condition} (h : c.SameMeaning d) (db : Database) (r : Row) :
    c.eval db r = d.eval db r := by
  obtain ⟨hhops, hleaf⟩ := h
  have hleaf : c.evalLeaf = d.evalLeaf := by
    funext t
    unfold evalLeaf
    -- the attributes may differ only where the test does not look at them
    rcases hleaf with ⟨hc, hd⟩ | ⟨⟨howner, hcolumn⟩, htest⟩
    · rw [hc, hd]
      exact (Test.eval_among_nil _ _).trans (Test.eval_among_nil _ _).symm
    · rw [howner, hcolumn, htest]
  unfold eval
  rw [hhops, hleaf]

end Condition

/-! ## The text of a predicate -/

/-- Subqueries bring in no letter of the joining word. -/
theorem Chain.notMem_queryText {e last : Entity} {hops : List Hop} (h : Chain e hops last)
    {inner : String} (hinner : 'A' ∉ inner.toList) :
    'A' ∉ (hops.foldr Hop.queryText inner).toList := by
  have hwords : 'A' ∉ " IN (SELECT ".toList ∧ 'A' ∉ " FROM ".toList ∧ 'A' ∉ " WHERE ".toList ∧
      'A' ∉ ")".toList := by decide
  obtain ⟨hselect, hfrom, hwhere, hclose⟩ := hwords
  induction h with
  | nil => exact hinner
  | @cons e target _ _ a _ hname _ _ ih =>
    have hcolumn := Entity.notMem_qualified (Entity.mem_of_attribute? hname) (show 'A' ∈ cutChars by decide)
    have htable := target.notMem_table (show 'A' ∈ cutChars by decide)
    have hid := target.notMem_qualified_id (show 'A' ∈ cutChars by decide)
    -- what a hop adds are its words, its column, its table and the identifier there
    rw [List.foldr_cons, Hop.queryText]
    simp only [String.toList_append, List.mem_append, hcolumn, hselect, hid, hfrom,
      htable, hwhere, ih, hclose, or_self, not_false_eq_true]

/-- The joining word has a letter that no condition has. -/
theorem Condition.notMem_queryText {e : Entity} {c : Condition} (hc : c.path.Resolved e) :
    'A' ∉ c.queryText.toList := by
  obtain ⟨a, ha, hcolumn, -⟩ := hc.leaf
  have hleaf : 'A' ∉ (c.path.owner.qualified c.path.column).toList := by
    rw [hcolumn]
    exact Entity.notMem_qualified ha (by decide)
  refine hc.chain.notMem_queryText ?_
  rw [Test.queryText_eq]
  simp only [String.toList_append, List.mem_append, not_or]
  exact ⟨c.test.form.notMem_subject (by decide) hleaf, by decide,
    c.test.form.notMem_verb 'A' (by decide), by decide, c.test.form.notMem_object⟩

/-- Texts without the letter that the joining word has can be told apart where it joins them. Induction on
the one list with the other left open: the letter says whether a first text is the last. -/
theorem intercalate_and_inj {s t : String} {ss ts : List String} (hss : ∀ x ∈ s :: ss, 'A' ∉ x.toList)
    (hts : ∀ x ∈ t :: ts, 'A' ∉ x.toList)
    (h : String.intercalate " AND " (s :: ss) = String.intercalate " AND " (t :: ts)) :
    s = t ∧ ss = ts := by
  have hword : ∀ x y : String, 'A' ∈ (x ++ " AND " ++ y).toList := by simp
  have hblank : ∀ {x : String}, 'A' ∉ x.toList → 'A' ∉ (x ++ " ").toList := by simp
  induction ss generalizing s t ts with
  | nil =>
    cases ts with
    | nil =>
      rw [String.intercalate_singleton, String.intercalate_singleton] at h
      exact ⟨h, rfl⟩
    | cons u ts =>
      rw [String.intercalate_singleton, String.intercalate_cons_cons] at h
      exact absurd (h ▸ hword _ _) (hss s List.mem_cons_self)
  | cons r ss ih =>
    cases ts with
    | nil =>
      rw [String.intercalate_singleton, String.intercalate_cons_cons] at h
      exact absurd (h ▸ hword _ _) (hts t List.mem_cons_self)
    | cons u ts =>
      obtain ⟨hs, hss⟩ := List.forall_mem_cons.mp hss
      obtain ⟨ht, hts⟩ := List.forall_mem_cons.mp hts
      -- the blank before the letter goes with the text before it
      have hand : ∀ x y : String, x ++ " AND " ++ y = (x ++ " ") ++ ("A" ++ ("ND " ++ y)) := by
        intro x y
        have hword : (" AND " : String) = " " ++ ("A" ++ "ND ") := rfl
        rw [hword]
        simp only [String.append_assoc]
      rw [String.intercalate_cons_cons, String.intercalate_cons_cons, hand, hand] at h
      obtain ⟨hfirst, hrest⟩ := cut_inj rfl (hblank hs) (hblank ht) h
      obtain ⟨rfl, rfl⟩ := ih hss hts ((String.append_right_inj _).mp hrest)
      exact ⟨(String.append_left_inj _).mp hfirst, rfl⟩

namespace Predicate

/-- The texts of two predicates are equal only if those of their conditions are, one by one. -/
theorem forall₂_queryText {e : Entity} {p q : Predicate} (hp : ∀ c ∈ p.conditions, c.path.Resolved e)
    (hq : ∀ c ∈ q.conditions, c.path.Resolved e) (h : p.queryText = q.queryText) :
    List.Forall₂ (fun c d => c.queryText = d.queryText) p.conditions q.conditions := by
  have hletter : ∀ {cs : List Condition}, (∀ c ∈ cs, c.path.Resolved e) →
      ∀ x ∈ cs.map fun c => "(" ++ c.queryText ++ ")", 'A' ∉ x.toList := by
    intro cs hcs x hx
    obtain ⟨c, hc, rfl⟩ := List.mem_map.mp hx
    have hletter := Condition.notMem_queryText (hcs c hc)
    simpa using hletter
  -- a text with conditions starts with a parenthesis
  have hopen : ∀ (c : Condition) (cs : List Condition), (Predicate.mk (c :: cs)).queryText ≠ "" := by
    intro c cs h
    cases cs <;> simp [queryText] at h
  obtain ⟨cs⟩ := p
  obtain ⟨ds⟩ := q
  cases cs with
  | nil =>
    cases ds with
    | nil => exact .nil
    | cons d ds => exact absurd h.symm (hopen d ds)
  | cons c cs =>
    cases ds with
    | nil => exact absurd h (hopen c cs)
    | cons d ds =>
      obtain ⟨hfirst, hrest⟩ := intercalate_and_inj (hletter hp) (hletter hq) h
      have hall : ((c :: cs).map fun c => "(" ++ c.queryText ++ ")") =
          (d :: ds).map fun c => "(" ++ c.queryText ++ ")" :=
        congrArg₂ List.cons hfirst hrest
      rw [← List.forall₂_eq_eq_eq, List.forall₂_map_left_iff, List.forall₂_map_right_iff] at hall
      exact hall.imp fun c d heq => (String.append_right_inj _).mp ((String.append_left_inj _).mp heq)

/-- Predicates of equal texts and operands are alike, condition by condition: each text takes as many
operands as it has placeholders. Induction on the pairs of conditions. -/
theorem forall₂_sameMeaning {e : Entity} {p q : Predicate} (hp : ∀ c ∈ p.conditions, c.path.Resolved e)
    (hq : ∀ c ∈ q.conditions, c.path.Resolved e) (h : p.queryText = q.queryText)
    (hoperands : p.operands = q.operands) :
    List.Forall₂ Condition.SameMeaning p.conditions q.conditions := by
  have htexts := forall₂_queryText hp hq h
  unfold operands at hoperands
  generalize p.conditions = cs at *
  generalize q.conditions = ds at *
  induction htexts with
  | nil => exact .nil
  | @cons c d cs ds htext _ ih =>
    obtain ⟨hc, hcs⟩ := List.forall_mem_cons.mp hp
    obtain ⟨hd, hds⟩ := List.forall_mem_cons.mp hq
    -- the first texts say how many operands belong to the first conditions
    have hlength : c.test.operands.length = d.test.operands.length := by
      rw [← Condition.placeholders_queryText hc, htext, Condition.placeholders_queryText hd]
    rw [List.flatMap_cons, List.flatMap_cons] at hoperands
    obtain ⟨hfirst, hrest⟩ := List.append_inj hoperands hlength
    exact .cons (Condition.sameMeaning_of_queryText hc hd htext hfirst) (ih hcs hds hrest)

/-- **A query text and its operands determine the meaning.** Predicates over an entity that have equal
texts and equal operands have the same truth on every row of every store, so they match the same rows. -/
theorem eval_eq_of_queryText {e : Entity} {p q : Predicate} (hp : Built e p) (hq : Built e q)
    (htext : p.queryText = q.queryText) (hoperands : p.operands = q.operands) (db : Database) :
    (∀ r, p.eval db r = q.eval db r) ∧ db.matching e p = db.matching e q := by
  -- the same truth of each pair of conditions is that of the conjunctions
  have hsame := forall₂_sameMeaning hp.resolved hq.resolved htext hoperands
  have heval : ∀ r, p.eval db r = q.eval db r := by
    intro r
    unfold eval
    generalize p.conditions = cs at hsame
    generalize q.conditions = ds at hsame
    induction hsame with
    | nil => rfl
    | cons hcd _ ih => rw [List.foldr_cons, List.foldr_cons, hcd.eval_eq db r, ih]
  have hholds : p.holds db = q.holds db := by
    funext r
    unfold holds
    rw [heval r]
  refine ⟨heval, ?_⟩
  unfold Database.matching
  rw [hholds]

/-- Next to a comparison, membership in an empty list has one text for the owner's name and for his role.
The conditions differ, what they say of a row does not. -/
theorem eval_emptyLists :
    ∃ p c d,
      Predicate.ofTokens .assets [⟨"ownerUserId", .comparison .gt, "1"⟩] = .ok p ∧
      Condition.isIn .assets "owner.userName" [] = .ok c ∧
      Condition.isIn .assets "owner.role" [] = .ok d ∧ c ≠ d ∧
      ∀ db r, (p.narrowed (some ⟨[c]⟩)).eval db r = (p.narrowed (some ⟨[d]⟩)).eval db r := by
  obtain ⟨p, hp⟩ : ∃ p, Predicate.ofTokens .assets [⟨"ownerUserId", .comparison .gt, "1"⟩] = .ok p :=
    ⟨_, rfl⟩
  obtain ⟨c, hc⟩ : ∃ c, Condition.isIn .assets "owner.userName" [] = .ok c := ⟨_, rfl⟩
  obtain ⟨d, hd⟩ : ∃ d, Condition.isIn .assets "owner.role" [] = .ok d := ⟨_, rfl⟩
  have hbuilt : ∀ {q}, Built .assets q → Built .assets (p.narrowed (some q)) := fun hq =>
    .narrowed (.ofTokens hp) fun _ h => Option.some.inj h ▸ hq
  refine ⟨p, c, d, hp, hc, hd, ?_, fun db => ?_⟩
  · cases hc
    cases hd
    decide
  · refine (eval_eq_of_queryText (hbuilt (.isIn hc)) (hbuilt (.isIn hd)) ?_ ?_ db).1
    all_goals
      cases hp
      cases hc
      cases hd
      rfl

end Predicate

end AssetRegister
