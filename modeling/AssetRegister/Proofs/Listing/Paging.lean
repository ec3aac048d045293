import AssetRegister.Proofs.Listing.Fitting

/-!
# Pages one after another

A listing is read page by page: at the offsets `0`, `limit`, `2 * limit` and so on. On a store that does
not change, the pages put together are the records of the rows that fit, from the first one on, without
gap or repetition. An offset at which no page starts stands for the next one at which a page does, so the
page that is shown never goes back and skips less than a page.

Main statement: `Database.listPages_eq`, for filters within the limits of the store. Of a filter of too many
comparisons there is no page (`Database.listPages_manyBounds`).
-/

namespace AssetRegister

open Outcome

/-! ## Where pages start -/

namespace Page

variable {limit offset : Int}

/-- An offset stands for the same page as the offset at which that page starts. -/
theorem of_offset_of (hlimit : 0 < limit) (hoffset : 0 ≤ offset) :
    Page.of limit (Page.of limit offset).offset = Page.of limit offset := by
  have hnonneg : 0 ≤ (Page.of limit offset).offset :=
    Int.le_trans hoffset (offset_of_bounds hlimit hoffset).1
  have hstart := offset_of_dvd hlimit hnonneg (dvd_offset_of limit offset)
  have hindex := Int.eq_of_mul_eq_mul_right (Int.ne_of_gt hlimit) hstart
  exact congrArg (fun index => Page.mk index limit) hindex

/-- An offset at which no page starts stands for the next one at which a page does. -/
theorem exists_start (hlimit : 0 < limit) (hoffset : 0 ≤ offset) (hdvd : ¬limit ∣ offset) :
    ∃ start, limit ∣ start ∧ offset < start ∧ start < offset + limit ∧
      Page.of limit offset = Page.of limit start ∧ (Page.of limit offset).offset = start := by
  obtain ⟨hle, hlt⟩ := offset_of_bounds hlimit hoffset
  have hne : (Page.of limit offset).offset ≠ offset := mt (offset_of_eq_iff hlimit hoffset).mp hdvd
  exact ⟨_, dvd_offset_of limit offset, by omega, hlt, (of_offset_of hlimit hoffset).symm, rfl⟩

/-- The members on a page that is given by its number. -/
theorem window_of_mul {α : Type} (hlimit : 0 < limit) (k : Nat) (xs : List α) :
    (Page.of limit (k * limit)).window xs = (xs.drop (k * limit.toNat)).take limit.toNat := by
  have hoffset : (0 : Int) ≤ k * limit := Int.mul_nonneg (Int.natCast_nonneg k) (by omega)
  have hdrop : (k * limit).toNat = k * limit.toNat := by
    rw [Int.toNat_mul (Int.natCast_nonneg k) (by omega), Int.toNat_natCast]
  show (xs.drop (Page.of limit (k * limit)).offset.toNat).take limit.toNat = _
  rw [offset_of_dvd hlimit hoffset (Int.dvd_mul_left k limit), hdrop]

end Page

/-- Pages of a list, one after another, are its start. Induction on the number of pages: one more page
goes on where those before it end. -/
theorem flatMap_range_window {α : Type} (xs : List α) (size n : Nat) :
    (List.range n).flatMap (fun k => (xs.drop (k * size)).take size) = xs.take (n * size) := by
  induction n with
  | zero => simp
  | succ n ih =>
    rw [List.range_succ, List.flatMap_append, ih, List.flatMap_singleton, Nat.succ_mul, List.take_add]

/-! ## Listings at several offsets -/

namespace Params

/-- The same request at an offset. -/
def startingAt (params : Params) (offset : Int) : Params := { params with offset := offset }

/-- The items that are shown of some records at an offset. -/
def itemsAt (params : Params) (records : List Record) (offset : Int) : Items :=
  ⟨(Page.of params.limit offset).window records,
    if params.count then some records.length else none⟩

end Params

namespace Database

/-- The first pages of a listing: one request for each, at the offset at which the page starts. -/
def listPages (db : Database) (e : Entity) (mode : ParseMode) (params : Params)
    (extra : Option Predicate) (n : Nat) : Except Fault (List Items) :=
  (List.range n).mapM fun k : Nat => db.list e mode (params.startingAt (k * params.limit)) extra

variable {db : Database} {e : Entity} {mode : ParseMode} {params : Params} {extra : Option Predicate}

/-- What is answered from rows that can all be read. -/
theorem answer_of_forall₂ {rows : List Row} {records : List Record}
    (hall : List.Forall₂ (fun r x => Record.ofRow e r = .ok x) rows records) :
    Listing.answer e params rows = .ok (params.itemsAt records params.offset) := by
  refine Listing.answer_eq_ok.mpr ⟨mapM_eq_ok.mpr ?_, ?_⟩
  · exact List.forall₂_take _ (List.forall₂_drop _ hall)
  · rw [hall.length_eq]
    rfl

/-- The first pages of a listing, if what is shown at each offset is cut from the same records. -/
theorem listPages_eq_map {records : List Record} (hlimit : 0 < params.limit)
    (h : ∀ offset, 0 ≤ offset → db.list e mode (params.startingAt offset) extra =
      .ok (params.itemsAt records offset)) (n : Nat) :
    db.listPages e mode params extra n =
      .ok ((List.range n).map fun k : Nat => params.itemsAt records (k * params.limit)) := by
  refine mapM_eq_ok.mpr (List.forall₂_map_right_iff.mpr (List.forall₂_same.mpr fun k _ => ?_))
  exact h _ (Int.mul_nonneg (Int.natCast_nonneg k) (by omega))

/-- The records of the first pages are the first records. -/
theorem flatMap_itemsAt (hlimit : 0 < params.limit) (records : List Record) (n : Nat) :
    ((List.range n).map fun k : Nat =>
      params.itemsAt records (k * params.limit)).flatMap Items.records =
      records.take (n * params.limit.toNat) := by
  rw [List.flatMap_map, ← flatMap_range_window]
  exact List.flatMap_congr fun k _ => Page.window_of_mul hlimit k records

/-- **Pages lose and repeat nothing.** If a request keeps the limits of the store and all rows that fit it
can be read, then its pages, whatever its own offset, are cut from their records, the identifiers of which
increase strictly:

* the first `n` pages put together are the first records, as many as `n` pages hold or all that there
  are, and each page reports the same total;
* an offset at which no page starts is answered as the next one at which a page does, less than a page
  further on, so nothing before it is shown. -/
theorem listPages_eq (hdb : db.Ordered) {ts : List Token} {p : Predicate}
    (hlimit : 0 < params.limit) (hts : Listing.tokens mode params.filter = .ok ts)
    (hp : Listing.compile e mode params.filter = .ok p) (hwithin : (p.narrowed extra).Within)
    (hread : ∀ r ∈ db.fitting e ts extra, ∃ x, Record.ofRow e r = .ok x) :
    ∃ records,
      List.Forall₂ (fun r x => Record.ofRow e r = .ok x) (db.fitting e ts extra) records ∧
      (records.map Record.id).Pairwise (· < ·) ∧
      (∀ n, ∃ pages,
        db.listPages e mode params extra n = .ok pages ∧
        pages.flatMap Items.records = records.take (n * params.limit.toNat) ∧
        (pages.flatMap Items.records).length = min (n * params.limit.toNat) records.length ∧
        (records.length ≤ n * params.limit.toNat → pages.flatMap Items.records = records) ∧
        ∀ page ∈ pages, page.total = if params.count then some records.length else none) ∧
      ∀ offset, 0 ≤ offset → ¬params.limit ∣ offset → ∃ start items,
        params.limit ∣ start ∧ offset < start ∧ start < offset + params.limit ∧
        db.list e mode (params.startingAt offset) extra = .ok items ∧
        db.list e mode (params.startingAt start) extra = .ok items ∧
        items.records = (records.drop start.toNat).take params.limit.toNat := by
  obtain ⟨records, hrecords⟩ := exists_mapM_eq_ok hread
  have hall := mapM_eq_ok.mp hrecords
  -- every page is cut from these records
  obtain ⟨ts', hts', hcompile⟩ := Listing.compile_eq_ok.mp hp
  cases hts.symm.trans hts'
  have hpage : ∀ offset, 0 ≤ offset →
      db.list e mode (params.startingAt offset) extra =
        .ok (params.itemsAt records offset) := by
    intro offset hoffset
    have hvalid : (params.startingAt offset).validate = .ok () :=
      Params.validate_eq_ok.mpr ⟨hlimit, hoffset⟩
    rw [list_of_within db hvalid hp hwithin, matching_eq_fitting hdb hcompile extra]
    exact answer_of_forall₂ hall
  refine ⟨records, hall, ?_, ?_, ?_⟩
  · rw [Record.map_id_of_forall₂ hall, List.pairwise_map]
    exact pairwise_fitting hdb e ts extra
  · intro n
    have hflat := flatMap_itemsAt hlimit records n
    refine ⟨_, listPages_eq_map hlimit hpage n, hflat, ?_, ?_, ?_⟩
    · rw [hflat, List.length_take]
    · intro hlength
      rw [hflat, List.take_of_length_le hlength]
    · intro page hmem
      obtain ⟨k, -, rfl⟩ := List.mem_map.mp hmem
      rfl
  · intro offset hoffset hdvd
    obtain ⟨start, hmul, hlt, hlt', hof, hstart⟩ := Page.exists_start hlimit hoffset hdvd
    have hlist := hpage offset hoffset
    have hsame : params.itemsAt records offset = params.itemsAt records start := by
      unfold Params.itemsAt
      rw [hof]
    refine ⟨start, _, hmul, hlt, hlt', hlist, ?_, ?_⟩
    · rw [hsame]
      exact hpage start (by omega)
    · rw [← hstart]
      rfl

theorem fitting_bobsGroups : fourGroups.fitting .userGroups bobsTokens none =
    [groupRow 4 2 2, groupRow 6 2 8, groupRow 9 2 4] := by
  decide

/-- Two pages hold all three groups of the user, and the offset of the second group is answered as that
of the third. -/
theorem fourGroups_pages :
    (∃ pages, fourGroups.listPages .userGroups .lenient bobsGroups none 2 = .ok pages ∧
      (pages.flatMap Items.records).map Record.id = [4, 6, 9]) ∧
    fourGroups.list .userGroups .lenient (bobsGroups.startingAt 1) none =
      fourGroups.list .userGroups .lenient (bobsGroups.startingAt 2) none := by
  have hcompile := Listing.compile_eq_ok.mpr
    ⟨_, tokens_bobsGroups, (rfl : Predicate.ofTokens .userGroups bobsTokens = .ok _)⟩
  have hread : ∀ r ∈ fourGroups.fitting .userGroups bobsTokens none,
      ∃ x, Record.ofRow .userGroups r = .ok x := by
    rw [fitting_bobsGroups]
    exact List.forall_mem_cons.mpr ⟨⟨_, rfl⟩, List.forall_mem_cons.mpr ⟨⟨_, rfl⟩,
      List.forall_mem_singleton.mpr ⟨_, rfl⟩⟩⟩
  obtain ⟨records, hall, -, hpages, hnext⟩ :=
    listPages_eq ordered_fourGroups (by decide) tokens_bobsGroups hcompile (by decide) hread
  rw [fitting_bobsGroups] at hall
  constructor
  · obtain ⟨pages, hok, -, -, hwhole, -⟩ := hpages 2
    have hlength : records.length = 3 := hall.length_eq.symm
    refine ⟨pages, hok, ?_⟩
    rw [hwhole (by rw [hlength]; decide), Record.map_id_of_forall₂ hall]
    rfl
  · obtain ⟨start, items, -, hlt, hlt', hone, hstart, -⟩ := hnext 1 (by decide) (by decide)
    have hlimit : bobsGroups.limit = 2 := rfl
    have htwo : start = 2 := by omega
    rw [hone, ← hstart, htwo]

end Database

/-! ## Too many comparisons

A filter of 999 comparisons is a conjunction of too great a depth. -/

/-- The comparison that an identifier is not negative. -/
def idBound : Token := ⟨"id", .comparison .ge, "0"⟩

/-- A request that makes this comparison so many times. -/
def boundedTimes (n : Nat) : Params :=
  { filter := some (Token.renderAll (List.replicate n idBound)) }

/-- The condition that the identifier of an entity's row is not negative. -/
def Entity.idBound (e : Entity) : Condition :=
  ⟨⟨[], e, "id", .numeric .bits64⟩, .compare .ge (.integer 0)⟩

/-- The filter is read as the comparisons that were written. -/
theorem tokens_boundedTimes (mode : ParseMode) (n : Nat) :
    Listing.tokens mode (boundedTimes n).filter = .ok (List.replicate n idBound) := by
  have hword : "id".toList.all Filter.isWord = true := by decide
  have hquotable : idBound.Quotable := by
    refine ⟨show '\x27' ∉ "0".toList by decide, ?_⟩
    rintro ⟨a, b, -, -, hrow⟩
    exact absurd (hrow.subset (by simp) : 'd' ∈ "0".toList) (by decide)
  refine Token.ofFilter_renderAll_of_quotable mode fun t ht => ?_
  obtain rfl := List.eq_of_mem_replicate ht
  exact ⟨⟨show "id" ≠ "" by decide, List.all_eq_true.mp hword⟩, hquotable⟩

/-- They compile for every entity, each to the same condition. -/
theorem compile_boundedTimes (e : Entity) (mode : ParseMode) (n : Nat) :
    Listing.compile e mode (boundedTimes n).filter = .ok ⟨List.replicate n e.idBound⟩ := by
  have htoken : Condition.ofToken e idBound = .ok e.idBound := by
    cases e <;> rfl
  refine Listing.compile_eq_ok.mpr ⟨_, tokens_boundedTimes mode n, Predicate.ofTokens_eq_ok.mpr ?_⟩
  induction n with
  | zero => exact .nil
  | succ n ih => exact .cons htoken ih

namespace Database

/-- Each condition binds one operand. -/
theorem length_operands_boundedTimes (e : Entity) (n : Nat) :
    ((List.replicate n e.idBound).flatMap fun c => c.test.operands).length = n := by
  rw [List.length_flatMap, List.map_replicate, List.sum_replicate]
  exact Nat.mul_one n

/-- From 999 comparisons on the depth is too great, whatever is stored and whatever conditions follow. -/
theorem excess?_boundedTimes (db : Database) (e : Entity) {n : Nat} {cs : List Condition} (hn : 998 < n)
    (hcs : n + (cs.flatMap fun c => c.test.operands).length ≤ Limit.placeholders) :
    db.excess? e ⟨List.replicate n e.idBound ++ cs⟩ = some .depth := by
  -- the depth is that of the first condition and one more for each of the others
  obtain ⟨n, rfl⟩ : ∃ m, n = m + 1 := ⟨n - 1, by omega⟩
  have hplaceholders :
      (Predicate.mk (List.replicate (n + 1) e.idBound ++ cs)).operands.length ≤ Limit.placeholders := by
    unfold Predicate.operands
    rw [List.flatMap_append, List.length_append, length_operands_boundedTimes]
    exact hcs
  have hdepth : Limit.depth < e.idBound.depth + (List.replicate n e.idBound ++ cs).length := by
    have hthree : e.idBound.depth = 3 := rfl
    rw [hthree, List.length_append, List.length_replicate]
    unfold Limit.depth
    omega
  unfold excess?
  rw [List.replicate_succ, List.cons_append] at hplaceholders ⊢
  rw [Predicate.statementExcess?_of_length hplaceholders hdepth]

/-- Every user can be read, but no page of a filter of too many comparisons is shown. -/
theorem listPages_manyBounds :
    oneAdmin.Ordered ∧
    Listing.tokens .lenient (boundedTimes 999).filter = .ok (List.replicate 999 idBound) ∧
    (∃ p, Listing.compile .users .lenient (boundedTimes 999).filter = .ok p) ∧
    (∀ r ∈ oneAdmin.fitting .users (List.replicate 999 idBound) none,
      ∃ x, Record.ofRow .users r = .ok x) ∧
    ∃ fault, oneAdmin.listPages .users .lenient (boundedTimes 999) none 1 = .error fault ∧
      fault.message = "Database error: Expression tree is too large (maximum depth 1000)" := by
  have hcompile := compile_boundedTimes .users .lenient 999
  have hexcess : oneAdmin.excess? .users ⟨List.replicate 999 Entity.users.idBound⟩ = some .depth := by
    rw [← List.append_nil (List.replicate 999 _)]
    exact excess?_boundedTimes oneAdmin .users (by omega) (show 999 ≤ 32766 by decide)
  have hlist : oneAdmin.list .users .lenient ((boundedTimes 999).startingAt 0) none = .error _ :=
    list_of_excess rfl hcompile hexcess
  exact ⟨ordered_oneAdmin, tokens_boundedTimes _ _, ⟨_, hcompile⟩,
    fun r hr => exists_ofRow_oneAdmin r (List.mem_of_mem_filter hr), _,
    mapM_eq_error.mpr ⟨[], _, _, rfl, List.forall_mem_nil _, hlist⟩, rfl⟩

end Database

end AssetRegister
