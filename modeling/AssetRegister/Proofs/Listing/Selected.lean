import AssetRegister.Listing.Engine
import AssetRegister.Proofs.Condition.Reach
import AssetRegister.Proofs.Store.Limits

/-!
# What a listing does, in two steps

A listing first selects rows: the request becomes a query, or is refused, and the query picks the rows
of its entity that match. Then it answers: the rows of the page are read, and the selected rows are
counted. In between the store may find that the query goes beyond one of its limits.

* `Database.list_of_compile`: a request that compiles is a query, which the store executes.
* `Database.execute_of_excess`, `Database.execute_asking`: the store names a limit, or it answers from the
  rows that match.
* `Database.answer_of_list`: a listing that succeeds is the answer from the selected rows.
-/

namespace AssetRegister

open Outcome

/-- The parameters of a request are valid if its limit is positive and its offset is not negative. -/
theorem Params.validate_eq_ok {params : Params} :
    params.validate = .ok () ↔ 0 < params.limit ∧ 0 ≤ params.offset := by
  unfold Params.validate
  split
  · simp; omega
  · split
    · simp; omega
    · simp; omega

namespace Listing

/-- The comparisons that a request asks for. A request without a filter asks for none. -/
def tokens (mode : ParseMode) : Option String → Except MalformedClause (List Token)
  | none => .ok []
  | some filter => Token.ofFilter mode filter

/-- A filter compiles exactly if it is read and all its comparisons compile. -/
theorem compile_eq_ok {e : Entity} {mode : ParseMode} {filter : Option String} {p : Predicate} :
    compile e mode filter = .ok p ↔
      ∃ ts, tokens mode filter = .ok ts ∧ Predicate.ofTokens e ts = .ok p := by
  cases filter with
  | none =>
    have hnil : Predicate.ofTokens e [] = .ok .always := rfl
    unfold compile tokens
    dsimp only
    constructor
    · rintro ⟨⟩
      exact ⟨[], rfl, hnil⟩
    · rintro ⟨ts, ⟨⟩, h⟩
      cases hnil.symm.trans h
      rfl
  | some filter =>
    unfold compile tokens
    dsimp only
    cases Token.ofFilter mode filter with
    | error clause => simp
    | ok ts =>
      simp only [Except.ok.injEq, exists_eq_left']
      cases Predicate.ofTokens e ts <;> simp

/-- The query of a request for the rows that match a predicate. -/
def asking (e : Entity) (params : Params) (p : Predicate) : Query :=
  ⟨e, p, .of params.limit params.offset, params.count⟩

/-- A request is a query exactly if its parameters are valid and its filter compiles. -/
theorem query_eq_ok {e : Entity} {mode : ParseMode} {params : Params} {extra : Option Predicate}
    {q : Query} :
    query e mode params extra = .ok q ↔
      params.validate = .ok () ∧ ∃ p, compile e mode params.filter = .ok p ∧
        q = asking e params (p.narrowed extra) := by
  unfold query
  cases params.validate with
  | error fault => simp
  | ok u =>
    rw [map_eq_ok, and_iff_right rfl]
    exact exists_congr fun p => and_congr_right fun _ => eq_comm

/-- The answer to a request that selects the given rows. -/
def answer (e : Entity) (params : Params) (rows : List Row) : Except Fault Items :=
  match ((Page.of params.limit params.offset).window rows).mapM (Record.ofRow e) with
  | .error fault => .error (.read fault)
  | .ok records => .ok ⟨records, if params.count then some rows.length else none⟩

/-- A page is answered if all its rows can be read, with the number of all rows if that is wished. -/
theorem answer_eq_ok {e : Entity} {params : Params} {rows : List Row} {items : Items} :
    answer e params rows = .ok items ↔
      ((Page.of params.limit params.offset).window rows).mapM (Record.ofRow e)
        = .ok items.records ∧
      items.total = if params.count then some rows.length else none := by
  obtain ⟨records, total⟩ := items
  unfold answer
  cases ((Page.of params.limit params.offset).window rows).mapM (Record.ofRow e) with
  | error fault => simp
  | ok xs =>
    simp only [Except.ok.injEq, Items.mk.injEq]
    exact and_congr_right fun _ => eq_comm

/-- Otherwise the answer is what is wrong with one of them. -/
theorem answer_eq_error {e : Entity} {params : Params} {rows : List Row} {fault : Fault} :
    answer e params rows = .error fault ↔
      ∃ reason, ((Page.of params.limit params.offset).window rows).mapM (Record.ofRow e) =
        .error reason ∧ fault = .read reason := by
  unfold answer
  cases ((Page.of params.limit params.offset).window rows).mapM (Record.ofRow e) with
  | error reason => simp [eq_comm]
  | ok records => simp

end Listing

namespace Database

theorem mem_matching {db : Database} {e : Entity} {p : Predicate} {r : Row} :
    r ∈ db.matching e p ↔ r ∈ db.rows e ∧ p.holds db r = true :=
  List.mem_filter

/-- Of the rows that match one predicate, those match both that match the other too. -/
theorem matching_both (db : Database) (e : Entity) (p q : Predicate) :
    db.matching e (p.both q) = (db.matching e q).filter (p.holds db) := by
  unfold matching
  rw [List.filter_filter]
  refine List.filter_congr fun r _ => ?_
  rw [Bool.eq_iff_iff, Bool.and_eq_true]
  exact Predicate.holds_both

/-- The rows that match are in the order of the table. -/
theorem pairwise_matching {db : Database} (hdb : db.Ordered) (e : Entity) (p : Predicate) :
    (db.matching e p).Pairwise fun a b => a.id < b.id :=
  (hdb e).filter _

/-- The rows that a request selects, on whatever page they lie, or why it is refused. -/
def selected (db : Database) (e : Entity) (mode : ParseMode) (params : Params)
    (extra : Option Predicate) : Except Fault (List Row) :=
  (Listing.query e mode params extra).map fun q => db.matching q.entity q.predicate

/-- A request selects rows exactly if it is a query, and then those that match the narrowed predicate. -/
theorem selected_eq_ok {db : Database} {e : Entity} {mode : ParseMode} {params : Params}
    {extra : Option Predicate} {rows : List Row} :
    db.selected e mode params extra = .ok rows ↔
      params.validate = .ok () ∧ ∃ p, Listing.compile e mode params.filter = .ok p ∧
        db.matching e (p.narrowed extra) = rows := by
  unfold selected
  rw [map_eq_ok]
  constructor
  · rintro ⟨q, hq, rfl⟩
    obtain ⟨hvalid, p, hp, rfl⟩ := Listing.query_eq_ok.mp hq
    exact ⟨hvalid, p, hp, rfl⟩
  · rintro ⟨hvalid, p, hp, rfl⟩
    exact ⟨_, Listing.query_eq_ok.mpr ⟨hvalid, p, hp, rfl⟩, rfl⟩

theorem selected_of_compile (db : Database) {e : Entity} {mode : ParseMode} {params : Params}
    {p : Predicate} (hvalid : params.validate = .ok ())
    (hp : Listing.compile e mode params.filter = .ok p) (extra : Option Predicate) :
    db.selected e mode params extra = .ok (db.matching e (p.narrowed extra)) :=
  selected_eq_ok.mpr ⟨hvalid, p, hp, rfl⟩

/-- Whether a request is refused depends neither on what is stored nor on its extra predicate. -/
theorem refused_or_compiles (e : Entity) (mode : ParseMode) (params : Params) :
    (∃ fault, ∀ (db : Database) extra, db.selected e mode params extra = .error fault) ∨
      params.validate = .ok () ∧ ∃ p, Listing.compile e mode params.filter = .ok p := by
  -- neither step looks at the store or at the extra predicate
  cases hvalid : params.validate with
  | error fault =>
    refine .inl ⟨.param fault, fun db extra => ?_⟩
    unfold selected Listing.query
    rw [hvalid]
    rfl
  | ok u =>
    cases hp : Listing.compile e mode params.filter with
    | error fault =>
      refine .inl ⟨fault, fun db extra => ?_⟩
      unfold selected Listing.query
      rw [hvalid, hp]
      rfl
    | ok p => exact .inr ⟨rfl, p, rfl⟩

/-! ## Execution -/

/-- The store names the limit that a query goes beyond, and reads nothing. -/
theorem execute_of_excess {db : Database} {q : Query} {limit : Excess}
    (h : db.excess? q.entity q.predicate = some limit) :
    db.execute q = .error (.excess limit q.statement) := by
  unfold execute
  rw [h]

/-- A query that goes beyond no limit is answered from the rows that match. -/
theorem execute_asking {db : Database} {e : Entity} {p : Predicate} (params : Params)
    (h : db.excess? e p = none) :
    db.execute (Listing.asking e params p) = Listing.answer e params (db.matching e p) := by
  unfold execute Listing.asking
  dsimp only
  rw [h]
  rfl

/-- So two stores execute a query alike if they find the same limit and show the same of the rows. -/
theorem execute_congr {d₁ d₂ : Database} {e : Entity} {params : Params} {p : Predicate}
    (hexcess : d₁.excess? e p = d₂.excess? e p)
    (hanswer : Listing.answer e params (d₁.matching e p) = Listing.answer e params (d₂.matching e p)) :
    d₁.execute (Listing.asking e params p) = d₂.execute (Listing.asking e params p) := by
  cases h : d₁.excess? e p with
  | some limit =>
    rw [execute_of_excess (q := Listing.asking e params p) h,
      execute_of_excess (q := Listing.asking e params p) (hexcess.symm.trans h)]
  | none => rw [execute_asking params h, execute_asking params (hexcess.symm.trans h), hanswer]

/-- A query is answered if it goes beyond no limit and its page can be read. -/
theorem execute_eq_ok {db : Database} {e : Entity} {params : Params} {p : Predicate} {items : Items} :
    db.execute (Listing.asking e params p) = .ok items ↔
      db.excess? e p = none ∧ Listing.answer e params (db.matching e p) = .ok items := by
  cases h : db.excess? e p with
  | some limit => simp [execute_of_excess (q := Listing.asking e params p) h]
  | none => simp [execute_asking params h]

/-- It fails for a row if it goes beyond no limit and the page cannot be read. -/
theorem execute_eq_read {db : Database} {e : Entity} {params : Params} {p : Predicate}
    {reason : ReadFault} :
    db.execute (Listing.asking e params p) = .error (.read reason) ↔
      db.excess? e p = none ∧ Listing.answer e params (db.matching e p) = .error (.read reason) := by
  cases h : db.excess? e p with
  | some limit => simp [execute_of_excess (q := Listing.asking e params p) h]
  | none => simp [execute_asking params h]

/-- The store fails at a limit or at a row of the page. -/
theorem execute_eq_error {db : Database} {e : Entity} {params : Params} {p : Predicate}
    {fault : Fault} (h : db.execute (Listing.asking e params p) = .error fault) :
    (∃ limit statement, fault = .excess limit statement) ∨ ∃ reason, fault = .read reason := by
  cases hexcess : db.excess? e p with
  | some limit =>
    rw [execute_of_excess (q := Listing.asking e params p) hexcess] at h
    cases h
    exact .inl ⟨_, _, rfl⟩
  | none =>
    rw [execute_asking params hexcess] at h
    obtain ⟨reason, -, rfl⟩ := Listing.answer_eq_error.mp h
    exact .inr ⟨reason, rfl⟩

/-! ## Listings -/

/-- **A listing makes a query of its request and has it executed.** -/
theorem list_eq (db : Database) (e : Entity) (mode : ParseMode) (params : Params)
    (extra : Option Predicate) :
    db.list e mode params extra = Listing.query e mode params extra >>= db.execute := by
  unfold list Listing.run
  cases hq : Listing.query e mode params extra with
  | error fault => rfl
  | ok q =>
    show (db.execute q).map _ = db.execute q
    -- the store counts only if it is asked to, so nothing is left to be taken away
    unfold execute
    cases db.excess? q.entity q.predicate with
    | some limit => rfl
    | none =>
      dsimp only
      cases (q.page.window (db.matching q.entity q.predicate)).mapM (Record.ofRow q.entity) with
      | error fault => rfl
      | ok records => cases hcount : q.withTotal <;> simp [Except.map]

/-- A request that compiles has its query executed. -/
theorem list_of_compile (db : Database) {e : Entity} {mode : ParseMode} {params : Params}
    {p : Predicate} (hvalid : params.validate = .ok ())
    (hp : Listing.compile e mode params.filter = .ok p) (extra : Option Predicate) :
    db.list e mode params extra = db.execute (Listing.asking e params (p.narrowed extra)) := by
  rw [list_eq, Listing.query_eq_ok.mpr ⟨hvalid, p, hp, rfl⟩]
  rfl

/-- A request within the limits of the store is answered from the rows that match. -/
theorem list_of_within (db : Database) {e : Entity} {mode : ParseMode} {params : Params}
    {p : Predicate} (hvalid : params.validate = .ok ())
    (hp : Listing.compile e mode params.filter = .ok p) {extra : Option Predicate}
    (hwithin : (p.narrowed extra).Within) :
    db.list e mode params extra = Listing.answer e params (db.matching e (p.narrowed extra)) := by
  rw [list_of_compile db hvalid hp, execute_asking params (excess?_eq_none hwithin)]

/-- A request that goes beyond a limit is answered with the limit. -/
theorem list_of_excess {db : Database} {e : Entity} {mode : ParseMode} {params : Params}
    {p : Predicate} {extra : Option Predicate} {limit : Excess} (hvalid : params.validate = .ok ())
    (hp : Listing.compile e mode params.filter = .ok p)
    (h : db.excess? e (p.narrowed extra) = some limit) :
    db.list e mode params extra =
      .error (.excess limit (Listing.asking e params (p.narrowed extra)).statement) := by
  rw [list_of_compile db hvalid hp]
  exact execute_of_excess h

/-- Requests that compile have the same listings if their queries are executed alike. -/
theorem list_congr {d₁ d₂ : Database} {e : Entity} {mode : ParseMode} {params : Params}
    {x y : Option Predicate}
    (h : ∀ p, Listing.compile e mode params.filter = .ok p →
      d₁.execute (Listing.asking e params (p.narrowed x)) =
        d₂.execute (Listing.asking e params (p.narrowed y))) :
    d₁.list e mode params x = d₂.list e mode params y := by
  rcases refused_or_compiles e mode params with ⟨fault, hfault⟩ | ⟨hvalid, p, hp⟩
  · have hquery : ∀ extra, Listing.query e mode params extra = .error fault := fun extra =>
      map_eq_error.mp (hfault d₁ extra)
    rw [list_eq, list_eq, hquery, hquery]
    rfl
  · rw [list_of_compile d₁ hvalid hp, list_of_compile d₂ hvalid hp, h p hp]

/-- Extra predicates that hold of the same rows give the same listings within the limits. -/
theorem list_congr_of_holds {db : Database} {e : Entity} {mode : ParseMode} {params : Params}
    {p q : Predicate}
    (hwithin : ∀ f, Listing.compile e mode params.filter = .ok f → (f.both p).Within ∧ (f.both q).Within)
    (h : ∀ r, p.holds db r = q.holds db r) :
    db.list e mode params (some p) = db.list e mode params (some q) := by
  refine list_congr fun f hf => ?_
  obtain ⟨hp, hq⟩ := hwithin f hf
  show db.execute (Listing.asking e params (f.both p)) = db.execute (Listing.asking e params (f.both q))
  rw [execute_asking params (excess?_eq_none hp), execute_asking params (excess?_eq_none hq)]
  refine congrArg (Listing.answer e params) (List.filter_congr fun r _ => ?_)
  rw [Bool.eq_iff_iff, Predicate.holds_both, Predicate.holds_both, h]

/-- A listing that succeeds is the answer from the rows that its request selects. -/
theorem answer_of_list {db : Database} {e : Entity} {mode : ParseMode} {params : Params}
    {extra : Option Predicate} {items : Items} (h : db.list e mode params extra = .ok items) :
    ∃ rows, db.selected e mode params extra = .ok rows ∧ Listing.answer e params rows = .ok items := by
  rw [list_eq] at h
  obtain ⟨q, hq, hexecute⟩ := bind_eq_ok.mp h
  obtain ⟨hvalid, p, hp, rfl⟩ := Listing.query_eq_ok.mp hq
  exact ⟨_, selected_of_compile db hvalid hp extra, (execute_eq_ok.mp hexecute).2⟩

/-- A total that a listing reports is the number of rows that its request selects. -/
theorem total_of_list {db : Database} {e : Entity} {mode : ParseMode} {params : Params}
    {extra : Option Predicate} {items : Items} {rows : List Row}
    (h : db.list e mode params extra = .ok items)
    (hrows : db.selected e mode params extra = .ok rows) : ∀ n ∈ items.total, n = rows.length := by
  obtain ⟨rows', hrows', hanswer⟩ := answer_of_list h
  cases hrows.symm.trans hrows'
  have htotal := (Listing.answer_eq_ok.mp hanswer).2
  intro n hn
  rw [Option.mem_def, htotal] at hn
  split at hn
  · exact (Option.some.inj hn).symm
  · cases hn

/-- Every record that a listing shows is read from a row that it selects. -/
theorem exists_selected_of_list {db : Database} {e : Entity} {mode : ParseMode} {params : Params}
    {extra : Option Predicate} {items : Items} (h : db.list e mode params extra = .ok items) :
    ∃ rows, db.selected e mode params extra = .ok rows ∧
      ∀ x ∈ items.records, ∃ r ∈ rows, Record.ofRow e r = .ok x := by
  obtain ⟨rows, hrows, hanswer⟩ := answer_of_list h
  refine ⟨rows, hrows, fun x hx => ?_⟩
  obtain ⟨r, hr, hread⟩ := exists_mem_of_mapM_eq_ok (Listing.answer_eq_ok.mp hanswer).1 x hx
  exact ⟨r, List.mem_of_mem_drop (List.mem_of_mem_take hr), hread⟩

/-- Every record that a listing shows is read from a row that matches the extra predicate. -/
theorem exists_row_of_list {db : Database} {e : Entity} {mode : ParseMode} {params : Params}
    {scope : Predicate} {items : Items}
    (h : db.list e mode params (some scope) = .ok items) :
    ∀ x ∈ items.records, ∃ r ∈ db.matching e scope, Record.ofRow e r = .ok x := by
  obtain ⟨rows, hrows, hread⟩ := exists_selected_of_list h
  obtain ⟨-, p, -, rfl⟩ := selected_eq_ok.mp hrows
  intro x hx
  obtain ⟨r, hr, hx⟩ := hread x hx
  have hmem : r ∈ db.matching e (p.both scope) := hr
  rw [matching_both] at hmem
  exact ⟨r, (List.mem_filter.mp hmem).1, hx⟩

end Database

end AssetRegister
