import AssetRegister.Condition.Compile
import AssetRegister.Proofs.Catalog.Chain

/-!
# The predicates that can be built

Callers cannot write conditions down: they get them from the comparisons of a filter or from the three
tests of a dotted field, and put them together by conjunction. `Predicate.Built` is the set of what comes
out. The path of every condition in it is one that resolves (`Predicate.Built.resolved`).
-/

namespace AssetRegister

open Outcome

/-- The predicates over an entity that comparisons, tests of fields and conjunction give. -/
inductive Predicate.Built (e : Entity) : Predicate → Prop where
  | always : Built e .always
  | ofTokens {ts : List Token} {p : Predicate} (h : Predicate.ofTokens e ts = .ok p) : Built e p
  | equals {field : String} {v : Operand} {c : Condition}
      (h : Condition.equals e field v = .ok c) : Built e ⟨[c]⟩
  | isIn {field : String} {vs : List Operand} {c : Condition}
      (h : Condition.isIn e field vs = .ok c) : Built e ⟨[c]⟩
  | isNull {field : String} {c : Condition} (h : Condition.isNull e field = .ok c) : Built e ⟨[c]⟩
  | narrowed {p : Predicate} {extra : Option Predicate} (hp : Built e p)
      (hextra : ∀ q ∈ extra, Built e q) : Built e (p.narrowed extra)

/-- A comparison that compiles has a field that resolves. -/
theorem Condition.resolved_of_ofToken {e : Entity} {t : Token} {c : Condition}
    (h : Condition.ofToken e t = .ok c) : c.path.Resolved e := by
  unfold Condition.ofToken at h
  split at h
  · next p hp =>
    obtain ⟨test, -, rfl⟩ := map_eq_ok.mp h
    exact ⟨.underscored, t.field, hp⟩
  · cases h

namespace Predicate

/-- Each comparison becomes the condition in its place. -/
theorem ofTokens_eq_ok {e : Entity} {ts : List Token} {p : Predicate} :
    Predicate.ofTokens e ts = .ok p ↔
      List.Forall₂ (fun t c => Condition.ofToken e t = .ok c) ts p.conditions := by
  unfold Predicate.ofTokens
  rw [map_eq_ok]
  constructor
  · rintro ⟨cs, hcs, rfl⟩
    exact mapM_eq_ok.mp hcs
  · intro h
    exact ⟨p.conditions, mapM_eq_ok.mpr h, rfl⟩

/-- The conditions of comparisons, that of one of them standing in its place. -/
theorem ofTokens_append_cons_eq_ok {e : Entity} {before after : List Token} {t : Token}
    {p : Predicate} :
    Predicate.ofTokens e (before ++ t :: after) = .ok p ↔
      ∃ bs c as, before.mapM (Condition.ofToken e) = .ok bs ∧ Condition.ofToken e t = .ok c ∧
        after.mapM (Condition.ofToken e) = .ok as ∧ p = ⟨bs ++ c :: as⟩ := by
  unfold Predicate.ofTokens
  rw [map_eq_ok, List.mapM_append]
  simp only [bind_eq_ok, List.mapM_cons, pure, Except.pure, Except.ok.injEq]
  constructor
  · rintro ⟨_, ⟨bs, hbs, _, ⟨c, hc, as, has, rfl⟩, rfl⟩, rfl⟩
    exact ⟨bs, c, as, hbs, hc, has, rfl⟩
  · rintro ⟨bs, c, as, hbs, hc, has, rfl⟩
    exact ⟨_, ⟨bs, hbs, _, ⟨c, hc, as, has, rfl⟩, rfl⟩, rfl⟩

/-- All fields of a filter that compiles resolve. -/
theorem resolved_of_ofTokens {e : Entity} {ts : List Token} {p : Predicate}
    (h : Predicate.ofTokens e ts = .ok p) : ∀ c ∈ p.conditions, c.path.Resolved e := by
  have hall := ofTokens_eq_ok.mp h
  generalize p.conditions = cs at hall
  clear h
  induction hall with
  | nil => simp
  | cons htoken _ ih => exact List.forall_mem_cons.mpr ⟨Condition.resolved_of_ofToken htoken, ih⟩

/-- Every condition of a predicate that can be built has a path that resolves. -/
theorem Built.resolved {e : Entity} {p : Predicate} (h : Built e p) :
    ∀ c ∈ p.conditions, c.path.Resolved e := by
  induction h with
  | always => simp [Predicate.always]
  | ofTokens h => exact resolved_of_ofTokens h
  | equals h =>
    obtain ⟨path, hpath, rfl⟩ := map_eq_ok.mp h
    exact List.forall_mem_singleton.mpr ⟨_, _, hpath⟩
  | isIn h =>
    obtain ⟨path, hpath, rfl⟩ := map_eq_ok.mp h
    exact List.forall_mem_singleton.mpr ⟨_, _, hpath⟩
  | isNull h =>
    obtain ⟨path, hpath, rfl⟩ := map_eq_ok.mp h
    exact List.forall_mem_singleton.mpr ⟨_, _, hpath⟩
  -- conjunction only puts conditions one after another
  | @narrowed p extra _ _ ihp ihextra =>
    cases extra with
    | none => exact ihp
    | some q =>
      show ∀ c ∈ p.conditions ++ q.conditions, _
      exact List.forall_mem_append.mpr ⟨ihp, ihextra q rfl⟩

end Predicate

end AssetRegister
