import AssetRegister.Proofs.Condition.Refused
import AssetRegister.Proofs.Filter.Malformed
import AssetRegister.Proofs.Listing.Fitting

/-!
# Refused requests

A request may have many things wrong with it. `Listing.Refusal` says which of them is reported: the
limit, then the offset, then the first malformed clause wherever it stands, and only then the leftmost
comparison that does not compile. `Listing.query_eq_error` says that a request becomes no query exactly
if there is such a fault.

All of this is found before the store is asked. `Listing.recording` writes down the queries that a store
is asked; `Listing.run_recording` says that there is one if nothing is wrong with the request, and none
otherwise.
-/

namespace AssetRegister

open Outcome

/-- The limit is tested before the offset. -/
theorem Params.validate_eq_error {params : Params} {fault : ParamFault} :
    params.validate = .error fault ↔
      params.limit ≤ 0 ∧ fault = .limit params.limit ∨
        0 < params.limit ∧ params.offset < 0 ∧ fault = .offset params.offset := by
  unfold Params.validate
  by_cases hlimit : params.limit ≤ 0
  · rw [if_pos hlimit, Except.error.injEq, eq_comm]
    constructor
    · intro h
      exact .inl ⟨hlimit, h⟩
    · rintro (⟨-, h⟩ | ⟨hpos, -⟩)
      · exact h
      · omega
  · rw [if_neg hlimit]
    by_cases hoffset : params.offset < 0
    · rw [if_pos hoffset, Except.error.injEq, eq_comm]
      constructor
      · intro h
        exact .inr ⟨Int.not_le.mp hlimit, hoffset, h⟩
      · rintro (⟨h, -⟩ | ⟨-, -, h⟩)
        · exact absurd h hlimit
        · exact h
    · rw [if_neg hoffset]
      refine iff_of_false nofun ?_
      rintro (⟨h, -⟩ | ⟨-, h, -⟩)
      · exact hlimit h
      · exact hoffset h

namespace Listing

/-- The clauses of a request's filter. A request without a filter has none. -/
def clauses : Option String → List (List Char)
  | none => []
  | some filter => Filter.clauses filter.toList

/-- The filter of a request is read clause by clause. -/
theorem tokens_eq (mode : ParseMode) (filter : Option String) :
    tokens mode filter = Token.ofClauses mode (clauses filter) := by
  cases filter with
  | none => rfl
  | some filter => exact Token.ofFilter_eq mode filter

/-! ## The fault that is reported -/

/-- The fault that is reported of a request: each constructor excludes those before it. -/
inductive Refusal (e : Entity) (mode : ParseMode) (params : Params) : Fault → Prop where
  | limit (hlimit : params.limit ≤ 0) : Refusal e mode params (.param (.limit params.limit))
  | offset (hlimit : 0 < params.limit) (hoffset : params.offset < 0) :
      Refusal e mode params (.param (.offset params.offset))
  | clause {before after : List (List Char)} {clause : List Char}
      (hlimit : 0 < params.limit) (hoffset : 0 ≤ params.offset) (hmode : mode = .strict)
      (hclauses : clauses params.filter = before ++ clause :: after)
      (hbefore : ∀ c ∈ before, ¬Token.Malformed c) (hclause : Token.Malformed clause) :
      Refusal e mode params (.malformed ⟨String.ofList clause⟩)
  | token {before after : List Token} {t : Token} {fault : CompileFault}
      (hlimit : 0 < params.limit) (hoffset : 0 ≤ params.offset)
      (hread : mode = .strict → ∀ c ∈ clauses params.filter, ¬Token.Malformed c)
      (htokens : (clauses params.filter).filterMap Token.ofClause? = before ++ t :: after)
      (hbefore : ∀ u ∈ before, ∀ fault, ¬u.Refused e fault) (ht : t.Refused e fault) :
      Refusal e mode params (.compile fault)

section

variable {e : Entity} {mode : ParseMode} {params : Params} {extra : Option Predicate} {fault : Fault}

/-- A refusal is a fault of the caller. -/
theorem Refusal.isClientError (h : Refusal e mode params fault) : fault.isClientError = true := by
  cases h <;> rfl

/-- A filter fails to be read, or its comparisons fail to compile. -/
theorem compile_eq_error {filter : Option String} :
    compile e mode filter = .error fault ↔
      (∃ clause, tokens mode filter = .error clause ∧ fault = .malformed clause) ∨
        ∃ ts reason, tokens mode filter = .ok ts ∧ Predicate.ofTokens e ts = .error reason ∧
          fault = .compile reason := by
  cases filter with
  | none =>
    have hnil : Predicate.ofTokens e [] = .ok .always := rfl
    refine iff_of_false nofun ?_
    rintro (⟨clause, ⟨⟩, -⟩ | ⟨ts, reason, ⟨⟩, hts, -⟩)
    cases hnil.symm.trans hts
  | some filter =>
    unfold compile tokens
    dsimp only
    cases Token.ofFilter mode filter with
    | error clause => simp [eq_comm]
    | ok ts => cases hts : Predicate.ofTokens e ts <;> simp [hts, eq_comm]

/-- A request is refused for its parameters, or else for its filter. -/
theorem query_eq_error_cases :
    query e mode params extra = .error fault ↔
      (∃ reason, params.validate = .error reason ∧ fault = .param reason) ∨
        params.validate = .ok () ∧ compile e mode params.filter = .error fault := by
  unfold query
  cases params.validate with
  | error reason => simp [eq_comm]
  | ok u => simp [map_eq_error]

/-- **A request is refused for the first thing that is wrong with it**, in the order of `Refusal`. -/
theorem query_eq_error :
    query e mode params extra = .error fault ↔ Refusal e mode params fault := by
  rw [query_eq_error_cases, compile_eq_error, tokens_eq]
  constructor
  · rintro (⟨reason, hreason, rfl⟩ | ⟨hvalid, hcompile⟩)
    -- the parameters first, then the clauses, and the comparisons of all of them last
    · rcases Params.validate_eq_error.mp hreason with ⟨hlimit, rfl⟩ | ⟨hlimit, hoffset, rfl⟩
      · exact .limit hlimit
      · exact .offset hlimit hoffset
    · obtain ⟨hlimit, hoffset⟩ := Params.validate_eq_ok.mp hvalid
      rcases hcompile with ⟨clause, hrefused, rfl⟩ | ⟨ts, reason, hts, hreason, rfl⟩
      · obtain ⟨hmode, before, clause, after, hcut, hbefore, hclause, rfl⟩ :=
          Token.ofClauses_eq_error.mp hrefused
        exact .clause hlimit hoffset hmode hcut hbefore hclause
      · obtain ⟨hread, rfl⟩ := Token.ofClauses_eq_ok.mp hts
        obtain ⟨before, t, after, hcut, hbefore, ht⟩ := Predicate.ofTokens_eq_error.mp hreason
        exact .token hlimit hoffset hread hcut
          (fun u hu => Condition.exists_ofToken_eq_ok.mp (hbefore u hu)) ht
  · intro h
    cases h with
    | limit hlimit => exact .inl ⟨_, Params.validate_eq_error.mpr (.inl ⟨hlimit, rfl⟩), rfl⟩
    | offset hlimit hoffset =>
      exact .inl ⟨_, Params.validate_eq_error.mpr (.inr ⟨hlimit, hoffset, rfl⟩), rfl⟩
    | clause hlimit hoffset hmode hcut hbefore hclause =>
      refine .inr ⟨Params.validate_eq_ok.mpr ⟨hlimit, hoffset⟩, .inl ⟨_, ?_, rfl⟩⟩
      exact Token.ofClauses_eq_error.mpr ⟨hmode, _, _, _, hcut, hbefore, hclause, rfl⟩
    | token hlimit hoffset hread htokens hbefore ht =>
      have hts := Token.ofClauses_eq_ok.mpr ⟨hread, rfl⟩
      have hcompile := fun u hu => Condition.exists_ofToken_eq_ok.mpr (hbefore u hu)
      have hreason := Predicate.ofTokens_eq_error.mpr ⟨_, _, _, htokens, hcompile, ht⟩
      exact .inr ⟨Params.validate_eq_ok.mpr ⟨hlimit, hoffset⟩, .inr ⟨_, _, hts, hreason, rfl⟩⟩

/-! ## Requests without fault -/

/-- Nothing is wrong with a request: its limit is positive and its offset is not negative, its filter is
read, and each comparison in it compiles. -/
structure Accepted (e : Entity) (mode : ParseMode) (params : Params) : Prop where
  limit : 0 < params.limit
  offset : 0 ≤ params.offset
  filter : ∃ ts, tokens mode params.filter = .ok ts ∧ ∀ t ∈ ts, ∃ c, Condition.ofToken e t = .ok c

/-- A request becomes a query exactly if nothing is wrong with it. -/
theorem exists_query_eq_ok :
    (∃ q, query e mode params extra = .ok q) ↔ Accepted e mode params := by
  constructor
  · rintro ⟨q, hq⟩
    obtain ⟨hvalid, p, hp, -⟩ := query_eq_ok.mp hq
    obtain ⟨hlimit, hoffset⟩ := Params.validate_eq_ok.mp hvalid
    obtain ⟨ts, hts, hcompile⟩ := compile_eq_ok.mp hp
    exact ⟨hlimit, hoffset, ts, hts,
      exists_of_mapM_eq_ok (mapM_eq_ok.mpr (Predicate.ofTokens_eq_ok.mp hcompile))⟩
  -- each comparison compiles, so all of them do together
  · rintro ⟨hlimit, hoffset, ts, hts, hall⟩
    obtain ⟨cs, hcs⟩ := exists_mapM_eq_ok hall
    have hcompile : Predicate.ofTokens e ts = .ok ⟨cs⟩ :=
      Predicate.ofTokens_eq_ok.mpr (mapM_eq_ok.mp hcs)
    exact ⟨_, query_eq_ok.mpr ⟨Params.validate_eq_ok.mpr ⟨hlimit, hoffset⟩, _,
      compile_eq_ok.mpr ⟨ts, hts, hcompile⟩, rfl⟩⟩

/-- A request with a fault is not accepted, since no request is both refused and a query. -/
theorem Refusal.not_accepted (h : Refusal e mode params fault) : ¬Accepted e mode params := by
  intro haccepted
  have hquery : query e mode params none = .error fault := query_eq_error.mpr h
  obtain ⟨q, hq⟩ := exists_query_eq_ok.mpr haccepted
  cases hq.symm.trans hquery

/-- A listing fails for what is wrong with its request, at a limit of the store, or for a row that cannot
be read. -/
theorem cases_of_list_eq_error {db : Database} (h : db.list e mode params extra = .error fault) :
    Refusal e mode params fault ∨ (∃ limit statement, fault = .excess limit statement) ∨
      ∃ reason, fault = .read reason := by
  rw [Database.list_eq] at h
  rcases bind_eq_error.mp h with hquery | ⟨q, hq, hexecute⟩
  · exact .inl (query_eq_error.mp hquery)
  · obtain ⟨-, p, -, rfl⟩ := query_eq_ok.mp hq
    exact .inr (Database.execute_eq_error hexecute)

end

/-! ## What the store is asked -/

/-- What a listing keeps of the store's answer: a fault as it is, and the total only if it was wished. -/
def kept (q : Query) (answer : Except Fault Items) : Except Fault Items :=
  answer.map fun items => { items with total := if q.withTotal then items.total else none }

theorem kept_eq_error {q : Query} {answer : Except Fault Items} {fault : Fault} :
    kept q answer = .error fault ↔ answer = .error fault :=
  map_eq_error

section

variable {m : Type → Type} [Monad m]

/-- Executes queries, and writes each of them down first. -/
def recording (execute : Query → m (Except Fault Items)) (q : Query) :
    StateT (List Query) m (Except Fault Items) := do
  modify fun asked => asked ++ [q]
  execute q

variable [LawfulMonad m] (execute : Query → m (Except Fault Items)) (e : Entity) (mode : ParseMode)
  (params : Params) (extra : Option Predicate)

/-- The query of a request is written down once, whatever the store answers. -/
theorem run_recording_of_ok {q : Query} (hq : query e mode params extra = .ok q) :
    (run (recording execute) e mode params extra).run [] =
      (fun answer => (kept q answer, [q])) <$> execute q := by
  unfold run
  rw [hq]
  simp [recording, kept]

omit [LawfulMonad m] in
/-- A request that becomes no query leaves nothing written down. -/
theorem run_recording_of_error {fault : Fault} (hfault : query e mode params extra = .error fault) :
    (run (recording execute) e mode params extra).run [] = pure (.error fault, []) := by
  unfold run
  rw [hfault]
  rfl

/-- **What is wrong with a request is found before the store is asked.** Whatever executes queries:

* if nothing is wrong with the request, the store is asked once, and a fault is then reported exactly if
  the store has reported it;
* otherwise the store is not asked, and the one fault that is to be reported of the request, a fault of
  the caller, is. -/
theorem run_recording :
    (Accepted e mode params → ∃ q,
      query e mode params extra = .ok q ∧
      (run (recording execute) e mode params extra).run [] =
        (fun answer => (kept q answer, [q])) <$> execute q ∧
      ∀ answer fault, kept q answer = .error fault ↔ answer = .error fault) ∧
    (¬Accepted e mode params → ∃ fault,
      (run (recording execute) e mode params extra).run [] = pure (.error fault, []) ∧
      fault.isClientError = true ∧
      ∀ other, Refusal e mode params other ↔ other = fault) := by
  constructor
  · intro h
    obtain ⟨q, hq⟩ := exists_query_eq_ok.mpr h
    exact ⟨q, hq, run_recording_of_ok execute e mode params extra hq,
      fun answer fault => kept_eq_error⟩
  · intro h
    -- whether the request is a query decides both halves, without what the store would say
    cases hquery : query e mode params extra with
    | ok q => exact absurd (exists_query_eq_ok.mp ⟨q, hquery⟩) h
    | error fault =>
      have hrefusal := query_eq_error.mp hquery
      refine ⟨fault, run_recording_of_error execute e mode params extra hquery,
        hrefusal.isClientError, fun other => ?_⟩
      have hother : query e mode params extra = .error other ↔ Refusal e mode params other :=
        query_eq_error
      rw [← hother, hquery, Except.error.injEq, eq_comm]

end

/-! ## Groups by an attribute that they do not have

The filter names the attribute before a clause that holds no comparison. -/

def colouredGroups : Params := { filter := some "color = red and oops" }

set_option maxRecDepth 10000 in
theorem clauses_colouredGroups :
    clauses colouredGroups.filter = ["color = red".toList, "oops".toList] := by
  show Filter.clauses "color = red and oops".toList = _
  rw [Filter.clauses_eq_cons "color = red".toList "oops".toList (by decide),
    Filter.clauses_eq_singleton "oops".toList (by decide)]

/-- Strict reading reports the clause and lenient reading the attribute, and the store is not asked. The
groups of a user are asked for once. -/
theorem run_recording_fourGroups :
    Id.run ((run (recording (m := Id) Database.fourGroups.execute) .userGroups .strict
      colouredGroups none).run []) = (.error (.malformed ⟨"oops"⟩), []) ∧
    Id.run ((run (recording (m := Id) Database.fourGroups.execute) .userGroups .lenient
      colouredGroups none).run []) =
        (.error (.compile (.unknownField ⟨"color", .userGroups⟩)), []) ∧
    ∃ q answer, Id.run ((run (recording (m := Id) Database.fourGroups.execute) .userGroups .lenient
      Database.bobsGroups none).run []) = (answer, [q]) := by
  have hstrict : Refusal .userGroups .strict colouredGroups (.malformed ⟨"oops"⟩) := by
    have hcolour : ∀ c ∈ ["color = red".toList], ¬Token.Malformed c :=
      List.forall_mem_singleton.mpr (Token.not_malformed_of_some rfl)
    exact .clause (by decide) (by decide) rfl clauses_colouredGroups hcolour ⟨rfl, by decide⟩
  have hlenient : Refusal .userGroups .lenient colouredGroups
      (.compile (.unknownField ⟨"color", .userGroups⟩)) := by
    have hcolour : Token.Refused .userGroups ⟨"color", .comparison .eq, "red"⟩
        (.unknownField ⟨"color", .userGroups⟩) := by
      have hnames : Path.segments .underscored "color" = [] ++ "color" :: [] := rfl
      exact .field hnames rfl (.inl rfl)
    have htokens : (clauses colouredGroups.filter).filterMap Token.ofClause? =
        [] ++ ⟨"color", .comparison .eq, "red"⟩ :: [] := by
      rw [clauses_colouredGroups]
      rfl
    exact .token (by decide) (by decide) nofun htokens (List.forall_mem_nil _) hcolour
  have hgroups : Accepted .userGroups .lenient Database.bobsGroups :=
    ⟨by decide, by decide, _, Database.tokens_bobsGroups,
      List.forall_mem_cons.mpr ⟨⟨_, rfl⟩, List.forall_mem_singleton.mpr ⟨_, rfl⟩⟩⟩
  refine ⟨?_, ?_, ?_⟩
  · obtain ⟨fault, hrun, -, hother⟩ := (run_recording (m := Id) Database.fourGroups.execute
      .userGroups .strict colouredGroups none).2 hstrict.not_accepted
    rw [hrun, (hother _).mp hstrict]
    rfl
  · obtain ⟨fault, hrun, -, hother⟩ := (run_recording (m := Id) Database.fourGroups.execute
      .userGroups .lenient colouredGroups none).2 hlenient.not_accepted
    rw [hrun, (hother _).mp hlenient]
    rfl
  · obtain ⟨q, -, hrun, -⟩ := (run_recording (m := Id) Database.fourGroups.execute
      .userGroups .lenient Database.bobsGroups none).1 hgroups
    rw [hrun]
    exact ⟨q, _, rfl⟩

end Listing

end AssetRegister
