import AssetRegister.Proofs.Condition.Reading
import AssetRegister.Proofs.Filter.RoundTrip
import AssetRegister.Proofs.Listing.Page
import AssetRegister.Proofs.Listing.Selected
import AssetRegister.Proofs.Record.Shown

/-!
# A listing is a page of the rows that fit

Main statement: `Database.list_eq_page_of_fitting`. The rows that a listing shows are those of the page
asked for among the rows of the table which, read directly, fit every comparison of the filter and
every condition of the extra predicate. That is so within the limits of the store; a request beyond them
is answered with a fault whatever fits it (`Database.list_longName`).
-/

namespace AssetRegister

open Outcome

/-! ## The rows that fit -/

/-- The rows of an entity that fit all comparisons and all conditions of an extra predicate, in the
order of the table. -/
def Database.fitting (db : Database) (e : Entity) (ts : List Token) (extra : Option Predicate) :
    List Row :=
  (db.rows e).filter fun r =>
    ts.all (·.fits db e r) && extra.all fun q => q.conditions.all (·.fits db r)

/-- A narrowed predicate holds where both do, or where the first does if there is no second. -/
theorem Predicate.holds_narrowed {db : Database} {p : Predicate} {extra : Option Predicate} {r : Row} :
    (p.narrowed extra).holds db r = true ↔
      p.holds db r = true ∧ ∀ q ∈ extra, q.holds db r = true := by
  cases extra with
  | none => simp [Predicate.narrowed]
  | some q => simp [Predicate.narrowed, Predicate.holds_both]

/-- In an ordered store a predicate holds where each of its conditions fits. -/
theorem Predicate.holds_iff_fits {db : Database} (hdb : db.Ordered) {q : Predicate} {r : Row} :
    q.holds db r = true ↔ ∀ c ∈ q.conditions, c.fits db r = true := by
  rw [Predicate.holds_eq_true]
  exact forall₂_congr fun c _ => Condition.fits_iff hdb

namespace Database

/-- The rows that a listing selects are the rows that fit. -/
theorem matching_eq_fitting {db : Database} (hdb : db.Ordered) {e : Entity} {ts : List Token}
    {p : Predicate} (hp : Predicate.ofTokens e ts = .ok p) (extra : Option Predicate) :
    db.matching e (p.narrowed extra) = db.fitting e ts extra := by
  unfold matching fitting
  refine List.filter_congr fun r _ => ?_
  rw [Bool.eq_iff_iff, Predicate.holds_narrowed, Predicate.holds_of_ofTokens hdb hp]
  rw [Bool.and_eq_true, List.all_eq_true, Option.all_eq_true]
  -- the comparisons agree by `holds_of_ofTokens`; what is left are the conditions of the extra predicate
  refine and_congr_right fun _ => forall₂_congr fun q _ => ?_
  rw [Predicate.holds_iff_fits hdb, List.all_eq_true]

end Database

/-! ## The records that a listing shows -/

/-- The identifier that a record shows. -/
def Record.id : Record → Int
  | user u => u.id
  | userGroup g => g.id
  | asset a => a.id
  | assetFile f => f.id
  | supplier s => s.id

theorem Entity.selectColumns_eq_cons (e : Entity) : ∃ columns, e.selectColumns = "id" :: columns := by
  cases e <;> exact ⟨_, rfl⟩

theorem Record.members_document_eq_cons (x : Record) :
    ∃ members, x.document.members = ("id", .integer x.id) :: members := by
  cases x <;> exact ⟨_, rfl⟩

/-- A record shows the identifier of the row that it is read from. -/
theorem Record.id_of_ofRow {e : Entity} {r : Row} {x : Record} (h : Record.ofRow e r = .ok x) :
    x.id = r.id := by
  -- the first member of every document shows the first selected column, which is the identifier
  have hshown := Record.shows_document h
  obtain ⟨columns, hcolumns⟩ := e.selectColumns_eq_cons
  obtain ⟨members, hmembers⟩ := x.members_document_eq_cons
  rw [hcolumns, hmembers] at hshown
  obtain ⟨⟨type, -, hid⟩, -⟩ := List.forall₂_cons.mp hshown
  have hshows : type.Shows (.integer r.id) (.integer x.id) := hid
  generalize x.id = n at hshows ⊢
  cases hshows
  rfl

theorem Record.map_id_of_forall₂ {e : Entity} {rows : List Row} {records : List Record}
    (h : List.Forall₂ (fun r x => Record.ofRow e r = .ok x) rows records) :
    records.map Record.id = rows.map Row.id := by
  induction h with
  | nil => rfl
  | cons hx _ ih => rw [List.map_cons, List.map_cons, Record.id_of_ofRow hx, ih]

namespace Database

/-- They are in the order of the table. -/
theorem pairwise_fitting {db : Database} (hdb : db.Ordered) (e : Entity) (ts : List Token)
    (extra : Option Predicate) :
    (db.fitting e ts extra).Pairwise fun a b => a.id < b.id :=
  (hdb e).filter _

/-- **A listing is a page of the rows that fit.** The store's tables are in order, as every run leaves
them (`ordered_of_run`). If the limit is positive, the offset is not negative, the filter compiles and its
conditions and the extra ones keep the limits of the store, and if every row on the page can be read, then
the listing gives the records of exactly these rows, their identifiers increasing strictly, and the number
of all rows that fit if it is wished. -/
theorem list_eq_page_of_fitting {db : Database} (hdb : db.Ordered) {e : Entity} {mode : ParseMode}
    {params : Params} {extra : Option Predicate} {ts : List Token} {p : Predicate}
    (hlimit : 0 < params.limit) (hoffset : 0 ≤ params.offset)
    (hts : Listing.tokens mode params.filter = .ok ts)
    (hp : Listing.compile e mode params.filter = .ok p) (hwithin : (p.narrowed extra).Within)
    (hread : ∀ r ∈ params.page (db.fitting e ts extra), ∃ x, Record.ofRow e r = .ok x) :
    (db.fitting e ts extra).Pairwise (fun a b => a.id < b.id) ∧
    ∃ records,
      db.list e mode params extra =
        .ok ⟨records, if params.count then some (db.fitting e ts extra).length else none⟩ ∧
      List.Forall₂ (fun r x => Record.ofRow e r = .ok x)
        (params.page (db.fitting e ts extra)) records ∧
      (records.map Record.id).Pairwise (· < ·) := by
  have hordered := pairwise_fitting hdb e ts extra
  refine ⟨hordered, ?_⟩
  -- the selected rows are the rows that fit
  obtain ⟨ts', hts', hcompile⟩ := Listing.compile_eq_ok.mp hp
  cases hts.symm.trans hts'
  have hvalid := Params.validate_eq_ok.mpr ⟨hlimit, hoffset⟩
  have hlist := list_of_within db hvalid hp hwithin
  rw [matching_eq_fitting hdb hcompile extra] at hlist
  -- the page of these rows is read
  obtain ⟨records, hrecords⟩ := exists_mapM_eq_ok hread
  have hall := mapM_eq_ok.mp hrecords
  refine ⟨records, ?_, hall, ?_⟩
  · rw [hlist]
    rw [← Page.window_of hlimit hoffset] at hrecords
    exact Listing.answer_eq_ok.mpr ⟨hrecords, rfl⟩
  · rw [Record.map_id_of_forall₂ hall, List.pairwise_map]
    exact hordered.sublist (params.page_sublist _)

/-! ## Four groups

The second user created three of four groups. An offset of one stands for the second page of two groups,
since no page starts there. -/

/-- A user group that was created by a user. -/
def groupRow (id creator members : Int) : Row :=
  ⟨id, [("group_name", .text "design"), ("created_by", .integer creator),
    ("created_at", .text "2024-01-06 12:00:00"), ("member_count", .integer members)]⟩

def fourGroups : Database where
  users := ⟨[⟨1, [("user_name", .text "alice")]⟩, ⟨2, [("user_name", .text "bob")]⟩], 2⟩
  userGroups := ⟨[groupRow 1 1 3, groupRow 4 2 2, groupRow 6 2 8, groupRow 9 2 4], 9⟩

theorem ordered_fourGroups : fourGroups.Ordered := by
  intro e
  cases e <;> decide

/-- The second page of two groups of the second user. -/
def bobsGroups : Params :=
  { limit := 2, offset := 1, filter := some "createdBy_userName = bob and memberCount >= 02" }

def bobsTokens : List Token :=
  [⟨"createdBy_userName", .comparison .eq, "bob"⟩, ⟨"memberCount", .comparison .ge, "02"⟩]

/-- The groups with one of some identifiers. -/
def groupsAmong (ids : List Int) : Predicate :=
  ⟨[⟨⟨[], .userGroups, "id", .numeric .bits64⟩, .among (ids.map .integer)⟩]⟩

set_option maxRecDepth 10000 in
theorem tokens_bobsGroups : Listing.tokens .lenient bobsGroups.filter = .ok bobsTokens := by
  show Token.ofFilter .lenient "createdBy_userName = bob and memberCount >= 02" = _
  rw [Token.ofFilter, if_neg (by decide)]
  rw [Filter.clauses_eq_cons "createdBy_userName = bob".toList "memberCount >= 02".toList (by decide)]
  rw [Filter.clauses_eq_singleton "memberCount >= 02".toList (by decide)]
  decide

/-- On the second page stands the last of three groups. -/
theorem page_fourGroups :
    bobsGroups.page (fourGroups.fitting .userGroups bobsTokens (some (groupsAmong [1, 4, 6, 9]))) =
      [groupRow 9 2 4] := by
  -- the rounded quotient does not evaluate, all else does
  have hindex : ⌈((1 : ℤ) : ℚ) / ((2 : ℤ) : ℚ)⌉ = 1 := by norm_num
  show List.take 2 (List.drop (⌈((1 : ℤ) : ℚ) / ((2 : ℤ) : ℚ)⌉ * 2).toNat _) = _
  rw [hindex]
  decide

/-- Three groups fit, and the page shows the last of them. -/
theorem fourGroups_list :
    ∃ records,
      fourGroups.list .userGroups .lenient bobsGroups (some (groupsAmong [1, 4, 6, 9])) =
        .ok ⟨records, some 3⟩ ∧
      records.map Record.id = [9] := by
  have hcompile := Listing.compile_eq_ok.mpr
    ⟨_, tokens_bobsGroups, (rfl : Predicate.ofTokens .userGroups bobsTokens = .ok _)⟩
  have hread : ∀ r ∈ bobsGroups.page
      (fourGroups.fitting .userGroups bobsTokens (some (groupsAmong [1, 4, 6, 9]))),
      ∃ x, Record.ofRow .userGroups r = .ok x := by
    rw [page_fourGroups]
    exact List.forall_mem_singleton.mpr ⟨_, rfl⟩
  obtain ⟨-, records, hlist, hall, -⟩ := list_eq_page_of_fitting ordered_fourGroups
    (by decide) (by decide) tokens_bobsGroups hcompile (by decide) hread
  have hcount : (fourGroups.fitting .userGroups bobsTokens
      (some (groupsAmong [1, 4, 6, 9]))).length = 3 := by decide
  rw [hcount] at hlist
  refine ⟨records, hlist, ?_⟩
  rw [Record.map_id_of_forall₂ hall, page_fourGroups]
  rfl

end Database

/-! ## A name that is too long

A value is sought between two percent signs. One of 49999 bytes makes a pattern of one byte too many. -/

/-- A text of so many letters. -/
def letters (n : Nat) : String := String.ofList (List.replicate n 'a')

theorem utf8ByteSize_letters (n : Nat) : (letters n).utf8ByteSize = n := by
  induction n with
  | zero => rfl
  | succ n ih =>
    have hsucc : letters (n + 1) = String.singleton 'a' ++ letters n := by
      rw [← String.toList_inj]
      simp [letters, List.replicate_succ]
    rw [hsucc, String.utf8ByteSize_append, String.utf8ByteSize_singleton, ih, Nat.add_comm]
    rfl

/-- A pattern has two bytes more than its value. -/
theorem utf8ByteSize_containing (s : String) :
    (Test.containing s).utf8ByteSize = s.utf8ByteSize + 2 := by
  unfold Test.containing
  rw [String.utf8ByteSize_append, String.utf8ByteSize_append, Nat.add_comm "%".utf8ByteSize]
  rfl

/-- Patterns of this length can still be bound to a statement. -/
theorem size_containing_letters {n : Nat} (h : n ≤ 999999998) :
    (Operand.text (Test.containing (letters n))).size ≤ Limit.operandSize := by
  show (Test.containing (letters n)).utf8ByteSize ≤ Limit.operandSize
  rw [utf8ByteSize_containing, utf8ByteSize_letters]
  unfold Limit.operandSize
  omega

/-- Letters can stand between quotes in a filter. -/
theorem Token.quotable_letters (field : String) (op : Operator) (n : Nat) :
    (Token.mk field op (letters n)).Quotable := by
  have hletter : ∀ c ∈ (letters n).toList, c = 'a' := by
    unfold letters
    rw [String.toList_ofList]
    exact fun c => List.eq_of_mem_replicate
  refine ⟨fun hquote => absurd (hletter _ hquote) (by decide), ?_⟩
  rintro ⟨a, b, -, -, hrow⟩
  exact absurd (hletter 'd' (hrow.subset (by simp))) (by decide)

/-- That a text of a user contains so many letters. -/
def userContains (column : String) (n : Nat) : Condition :=
  ⟨⟨[], .users, column, .text⟩, .like (Test.containing (letters n))⟩

/-- A request for the users of whom an attribute contains so many letters. -/
def seekingLetters (field : String) (n : Nat) : Params :=
  { filter := some (Token.renderAll [⟨field, .like, letters n⟩]) }

/-- The filter is read as the one comparison that was written. -/
theorem tokens_seekingLetters (field : String) (hempty : field ≠ "")
    (hword : field.toList.all Filter.isWord = true) (mode : ParseMode) (n : Nat) :
    Listing.tokens mode (seekingLetters field n).filter = .ok [⟨field, .like, letters n⟩] :=
  Token.ofFilter_renderAll_of_quotable mode (List.forall_mem_singleton.mpr
    ⟨⟨hempty, List.all_eq_true.mp hword⟩, Token.quotable_letters field .like n⟩)

/-- The comparison compiles if its field is a text of users. -/
theorem compile_seekingLetters (field : String) {column : String} (hempty : field ≠ "")
    (hword : field.toList.all Filter.isWord = true)
    (hresolve : Path.resolve .users .underscored field = .ok ⟨[], .users, column, .text⟩)
    (mode : ParseMode) (n : Nat) :
    Listing.compile .users mode (seekingLetters field n).filter = .ok ⟨[userContains column n]⟩ := by
  have htoken : Condition.ofToken .users ⟨field, .like, letters n⟩ = .ok (userContains column n) := by
    unfold Condition.ofToken
    rw [hresolve]
    rfl
  exact Listing.compile_eq_ok.mpr
    ⟨_, tokens_seekingLetters field hempty hword mode n, Predicate.ofTokens_eq_ok.mpr (.cons htoken .nil)⟩

namespace Database

/-- Such a pattern fails wherever it is tried. -/
theorem failsOn_userContains (db : Database) (column : String) {n : Nat} (h : 49998 < n) :
    db.failsOn (userContains column n) = true := by
  have hlong : (userContains column n).test.overlong = true := by
    refine decide_eq_true ?_
    rw [utf8ByteSize_containing, utf8ByteSize_letters]
    unfold Limit.patternSize
    omega
  unfold failsOn
  rw [hlong]
  rfl

/-- The statement itself is not refused: neither placeholders nor depth depend on the letters. -/
theorem statementExcess?_userContains (column : String) {n : Nat} (h : n ≤ 999999998) :
    (Predicate.mk [userContains column n]).statementExcess? = none :=
  Predicate.statementExcess?_eq_none.mpr
    ⟨show 1 ≤ 32766 by decide, show 3 ≤ 1000 by decide,
      List.forall_mem_singleton.mpr (size_containing_letters h)⟩

/-- So it is reported if there are any users to try it on. -/
theorem excess?_userContains {db : Database} {r : Row} (hr : r ∈ db.rows .users) (column : String)
    (hrank : Try.rank? .users ⟨userContains column 49999, none⟩ = none) :
    db.excess? .users ⟨[userContains column 49999]⟩ = some .pattern :=
  excess?_eq_pattern hr rfl (List.nodup_singleton _) (List.forall_mem_singleton.mpr hrank)
    (List.forall_mem_singleton.mpr rfl)
    (failsOn_userContains db column (by omega)) (statementExcess?_userContains column (by omega))

def oneAdmin : Database where
  users := ⟨[⟨1, [("user_name", .text "alice"), ("role", .text "ADMIN"),
    ("created_at", .text "2024-05-01 10:00:00"), ("status", .integer 1)]⟩], 1⟩

theorem ordered_oneAdmin : oneAdmin.Ordered := by
  intro e
  cases e <;> decide

theorem exists_ofRow_oneAdmin : ∀ r ∈ oneAdmin.rows .users, ∃ x, Record.ofRow .users r = .ok x :=
  List.forall_mem_singleton.mpr ⟨_, rfl⟩

/-- All rows that fit could be shown, and the name of the one user is too short to contain the letters,
but the store does not try such a pattern on it. -/
theorem list_longName :
    Listing.tokens .lenient (seekingLetters "userName" 49999).filter =
      .ok [⟨"userName", .like, letters 49999⟩] ∧
    (∃ p, Listing.compile .users .lenient (seekingLetters "userName" 49999).filter = .ok p) ∧
    (∀ r ∈ (seekingLetters "userName" 49999).page (oneAdmin.fitting .users
        [⟨"userName", .like, letters 49999⟩] none), ∃ x, Record.ofRow .users r = .ok x) ∧
    ∃ fault, oneAdmin.list .users .lenient (seekingLetters "userName" 49999) none = .error fault ∧
      fault.message = "Database error: LIKE or GLOB pattern too complex" := by
  have htokens := tokens_seekingLetters "userName" (by decide) (by decide) .lenient 49999
  have hcompile := compile_seekingLetters "userName" (by decide) (by decide) rfl .lenient 49999
  have hexcess : oneAdmin.excess? .users ⟨[userContains "user_name" 49999]⟩ = some .pattern :=
    excess?_userContains (List.mem_singleton_self _) "user_name" rfl
  refine ⟨htokens, ⟨_, hcompile⟩, fun r hr => ?_, _, list_of_excess rfl hcompile hexcess, rfl⟩
  exact exists_ofRow_oneAdmin r (List.mem_of_mem_filter ((Params.page_sublist _ _).subset hr))

end Database

end AssetRegister
