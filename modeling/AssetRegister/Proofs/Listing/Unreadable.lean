import AssetRegister.Proofs.Listing.Fitting
import AssetRegister.Proofs.Record.PartType

/-!
# Rows that cannot be read

A listing reads the rows of its page and no others. A row that cannot be read keeps the pages on which it
lies from being shown, and only these: other pages are shown, and their totals count the row as any other.

Main statement: `Database.list_eq_error_iff`, within the limits of the store. A pattern that is too long
fails on rows that do not match (`Database.list_longAvatar`).
-/

namespace AssetRegister

open Outcome

/-- Rows are read up to the first that cannot be, and its fault is that of its leftmost such part. -/
theorem Record.mapM_ofRow_eq_error {e : Entity} {rows : List Row} {reason : ReadFault} :
    rows.mapM (ofRow e) = .error reason ↔
      ∃ before r after, rows = before ++ r :: after ∧ (∀ s ∈ before, s.Decodes e.fields) ∧
        r.FailsFirst 0 e.fields reason := by
  rw [mapM_eq_error]
  simp only [(readsAs_ofRow e _).eq_ok, (readsAs_ofRow e _).eq_error]

/-- Reading rows fails exactly if one of them cannot be read. -/
theorem Record.exists_mapM_ofRow_eq_error {e : Entity} {rows : List Row} :
    (∃ reason, rows.mapM (ofRow e) = .error reason) ↔ ∃ r ∈ rows, ¬r.Decodes e.fields := by
  constructor
  · rintro ⟨reason, hreason⟩
    obtain ⟨before, r, after, rfl, -, hfails⟩ := mapM_eq_error.mp hreason
    refine ⟨r, List.mem_append_right _ List.mem_cons_self, fun hdecodes => ?_⟩
    -- a row that can be read gives a record, not a fault
    obtain ⟨x, hx⟩ := (readsAs_ofRow e r).eq_ok.mpr hdecodes
    cases hfails.symm.trans hx
  · rintro ⟨r, hr, hdecodes⟩
    cases hread : rows.mapM (ofRow e) with
    | error reason => exact ⟨reason, rfl⟩
    | ok records => exact absurd ((readsAs_ofRow e r).eq_ok.mp (exists_of_mapM_eq_ok hread r hr)) hdecodes

namespace Database

/-- **A row that cannot be read keeps only its own pages from being shown.** The store's tables are in
order, the parameters are valid, the filter compiles and keeps the limits of the store with the extra
predicate. Then:

* the rows that match are in the order of their identifiers, and the parts of a record in the order of the
  columns that a listing reads;
* the listing fails exactly if some row on the page that is asked for cannot be read;
* its fault is what is wrong with the leftmost part that cannot be read of the first such row;
* otherwise it shows the records of the rows on the page, and the total, if it is wished, counts all rows
  that match, whether or not they can be read;
* rows that do not match or lie outside the page make no difference to the fault: a store with the same
  rows on the page, and any others, has the same. -/
theorem list_eq_error_iff {db : Database} (hdb : db.Ordered) {e : Entity} {mode : ParseMode}
    {params : Params} {p : Predicate} (hvalid : params.validate = .ok ())
    (hp : Listing.compile e mode params.filter = .ok p) {extra : Option Predicate}
    (hwithin : (p.narrowed extra).Within) :
    let rows := db.matching e (p.narrowed extra)
    rows.Pairwise (fun a b => a.id < b.id) ∧ e.fields.map Prod.snd = e.selectColumns ∧
    ((∃ fault, db.list e mode params extra = .error fault) ↔
      ∃ r ∈ params.page rows, ¬r.Decodes e.fields) ∧
    (∀ fault, db.list e mode params extra = .error fault ↔
      ∃ before r after reason, params.page rows = before ++ r :: after ∧
        (∀ s ∈ before, s.Decodes e.fields) ∧ r.FailsFirst 0 e.fields reason ∧
        fault = .read reason) ∧
    (∀ items, db.list e mode params extra = .ok items →
      List.Forall₂ (fun r x => Record.ofRow e r = .ok x) (params.page rows) items.records ∧
      items.total = if params.count then some rows.length else none) ∧
    ∀ other : Database, params.page (other.matching e (p.narrowed extra)) = params.page rows →
      ∀ fault, other.list e mode params extra = .error fault ↔
        db.list e mode params extra = .error fault := by
  obtain ⟨hlimit, hoffset⟩ := Params.validate_eq_ok.mp hvalid
  -- once the request compiles, only reading the rows of the page can fail
  have hwindow : ∀ rows : List Row, (Page.of params.limit params.offset).window rows =
      params.page rows := Page.window_of hlimit hoffset
  have herror : ∀ (db : Database) fault, db.list e mode params extra = .error fault ↔
      ∃ reason, (params.page (db.matching e (p.narrowed extra))).mapM (Record.ofRow e) =
        .error reason ∧ fault = .read reason := by
    intro db fault
    rw [db.list_of_within hvalid hp hwithin, Listing.answer_eq_error, hwindow]
  refine ⟨pairwise_matching hdb e _, e.columns_fields, ?_, ?_, ?_, ?_⟩
  · rw [← Record.exists_mapM_ofRow_eq_error]
    simp only [herror db]
    exact ⟨fun ⟨_, reason, h, _⟩ => ⟨reason, h⟩, fun ⟨reason, h⟩ => ⟨_, reason, h, rfl⟩⟩
  · intro fault
    simp only [herror db, Record.mapM_ofRow_eq_error]
    constructor
    · rintro ⟨reason, ⟨before, r, after, hpage, hbefore, hfails⟩, rfl⟩
      exact ⟨before, r, after, reason, hpage, hbefore, hfails, rfl⟩
    · rintro ⟨before, r, after, reason, hpage, hbefore, hfails, rfl⟩
      exact ⟨reason, ⟨before, r, after, hpage, hbefore, hfails⟩, rfl⟩
  · intro items hitems
    rw [db.list_of_within hvalid hp hwithin, Listing.answer_eq_ok, hwindow] at hitems
    exact ⟨mapM_eq_ok.mp hitems.1, hitems.2⟩
  · intro other hpage fault
    rw [herror db, herror other, hpage]

/-! ### A user with a role that does not exist -/

def userOfRole (id : Int) (role createdAt : String) : Row :=
  ⟨id, [("user_name", .text "alice"), ("role", .text role), ("created_at", .text createdAt),
    ("status", .integer 1)]⟩

/-- The role of the second user is no role, and neither is the time of creation a time. -/
def oddUser : Database where
  users := ⟨[userOfRole 1 "ADMIN" "2024-01-06 12:00:00", userOfRole 2 "CHIEF" "yesterday",
    userOfRole 5 "USER" "2024-01-06 12:00:00"], 5⟩

/-- One user on each page. -/
def eachUser (offset : ℕ) : Params := { limit := 1, offset := offset }

theorem page_eachUser (k : ℕ) :
    (eachUser k).page (oddUser.matching .users (Predicate.always.narrowed none)) =
      ((oddUser.rows .users).drop k).take 1 := by
  have hindex : ⌈((k : ℤ) : ℚ) / ((1 : ℤ) : ℚ)⌉ = k := by simp
  have hall : oddUser.matching .users (Predicate.always.narrowed none) = oddUser.rows .users := by
    decide
  show List.take 1 (List.drop (⌈((k : ℤ) : ℚ) / ((1 : ℤ) : ℚ)⌉ * 1).toNat _) = _
  rw [hindex, hall, mul_one, Int.toNat_natCast]

/-- The page of the first user is shown and counts the second, whose own page is not shown. -/
theorem oddUser_list :
    (∃ items, oddUser.list .users .lenient (eachUser 0) none = .ok items ∧ items.total = some 3) ∧
    oddUser.list .users .lenient (eachUser 1) none = .error (.read (.unknownWord 2)) := by
  have hdb : oddUser.Ordered := by
    intro e
    cases e <;> decide
  have hfirst : (eachUser 0).validate = .ok () := rfl
  have hsecond : (eachUser 1).validate = .ok () := rfl
  have hcompile : Listing.compile .users .lenient none = .ok .always := rfl
  have hwithin : (Predicate.always.narrowed none).Within := by decide
  constructor
  · obtain ⟨-, -, hfails, -, hshown, -⟩ := list_eq_error_iff hdb hfirst hcompile hwithin
    cases hlist : oddUser.list .users .lenient (eachUser 0) none with
    | ok items => exact ⟨items, rfl, (hshown items hlist).2⟩
    | error fault =>
      obtain ⟨r, hr, hdecodes⟩ := hfails.mp ⟨fault, hlist⟩
      rw [page_eachUser] at hr
      obtain rfl := List.mem_singleton.mp hr
      exact absurd ((Record.readsAs_ofRow .users _).eq_ok.mp ⟨_, rfl⟩) hdecodes
  · obtain ⟨-, -, -, hfault, -⟩ := list_eq_error_iff hdb hsecond hcompile hwithin
    rw [page_eachUser] at hfault
    refine (hfault _).mpr ⟨[], _, [], _, rfl, List.forall_mem_nil _, ?_, rfl⟩
    exact ((Record.readsAs_ofRow .users _).eq_error _).mp rfl

/-! ### An avatar that is too long

The one user has no avatar, so no pattern matches. One that is too long is tried all the same. -/

/-- The listing fails although every user can be read and no row matches. -/
theorem list_longAvatar :
    ∃ p, Listing.compile .users .lenient (seekingLetters "avatarCosKey" 49999).filter = .ok p ∧
      (seekingLetters "avatarCosKey" 49999).validate = .ok () ∧
      oneAdmin.Ordered ∧ oneAdmin.matching .users p = [] ∧
      ∃ fault, oneAdmin.list .users .lenient (seekingLetters "avatarCosKey" 49999) none =
          .error fault ∧
        fault.message = "Database error: LIKE or GLOB pattern too complex" := by
  have hcompile :=
    compile_seekingLetters "avatarCosKey" (by decide) (by decide) rfl .lenient 49999
  have hexcess : oneAdmin.excess? .users ⟨[userContains "avatar_cos_key" 49999]⟩ = some .pattern :=
    excess?_userContains (List.mem_singleton_self _) "avatar_cos_key" rfl
  exact ⟨_, hcompile, rfl, ordered_oneAdmin, rfl, _, list_of_excess rfl hcompile hexcess, rfl⟩

end Database

end AssetRegister
