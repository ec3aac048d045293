import AssetRegister.Proofs.Store.Ordered
import AssetRegister.Proofs.Text.Utf8
import AssetRegister.Store.Evaluate

/-!
# A condition behind hops is a test of the row they lead to

A condition on a related record is evaluated from the inside out: the target rows that satisfy the
rest of the condition are collected, and the foreign key is sought among their identifiers.
`Database.Leads` goes the other way: it starts at a row and follows one foreign key after another, and
`Database.reach?` finds the row to which it comes. Both ways agree on what is true, and an absent key or
a missing row makes no condition true.

* `Condition.evalHops_iff_leads`: nested tests are true exactly at rows from which the hops lead to a row
  that passes the innermost one.
* `Condition.evalHops_eq_true`: in an ordered store that row is the one that is found.
* `Predicate.holds_eq_true`: a predicate holds exactly where all its conditions are true.
-/

namespace AssetRegister

/-! ## Truth -/

/-- A conjunction is true only if both parts are: an unknown part leaves it unknown or false. -/
theorem Truth.and_eq_true {a b : Truth} : a.and b = some true ↔ a = some true ∧ b = some true := by
  rcases a with _ | _ | _ <;> rcases b with _ | _ | _ <;> simp [Truth.and]

theorem Truth.or_eq_true {a b : Truth} : a.or b = some true ↔ a = some true ∨ b = some true := by
  rcases a with _ | _ | _ <;> rcases b with _ | _ | _ <;> simp [Truth.or]

theorem Truth.or_false (a : Truth) : a.or (some false) = a := by
  rcases a with _ | _ | _ <;> rfl

/-! ## Identifiers as values -/

namespace Value

/-- Equality is one of the outcomes of the order. -/
theorem equal_iff {a b : Value} : a.equal b = true ↔ a.order? b = some .eq := by
  unfold equal
  rw [beq_iff_eq]

/-- What equals a value is present. -/
theorem ne_null_of_equal {v w : Value} (h : v.equal w = true) : v ≠ .null := by
  rintro rfl
  cases h

/-- A double equals at most one integer. -/
theorem eq_of_orderInteger_eq {x : Binary64} {m n : Int} (hm : x.orderInteger m = .eq)
    (hn : x.orderInteger n = .eq) : m = n := by
  cases x with
  | infinite s => cases s <;> cases hm
  | finite s a e =>
    -- both integers, scaled to the double's exponent, are its mantissa scaled to the common one
    simp only [Binary64.orderInteger, Binary64.compareScaled, Int.compare_eq_eq] at hm hn
    have hpos := Nat.two_pow_pos (0 - min e 0).toNat
    have hscale : ((Nat.pow 2 (0 - min e 0).toNat : Nat) : Int) ≠ 0 :=
      Int.ofNat_ne_zero.mpr (Nat.ne_of_gt hpos)
    exact Int.eq_of_mul_eq_mul_right hscale (hm.symm.trans hn)

/-- A value equals at most one identifier. -/
theorem eq_of_equal_integer {v : Value} {m n : Int} (hm : v.equal (.integer m) = true)
    (hn : v.equal (.integer n) = true) : m = n := by
  rw [equal_iff] at hm hn
  cases v with
  | null | text | garbled | blob => simp [order?] at hm
  | integer a =>
    simp only [order?, Option.some.injEq, Int.compare_eq_eq] at hm hn
    rw [← hm, ← hn]
  | real x =>
    simp only [order?, Option.some.injEq] at hm hn
    exact eq_of_orderInteger_eq hm hn

/-- Byte strings are equal in their order only to themselves. -/
theorem orderBytes_eq_eq {a b : List UInt8} : orderBytes a b = .eq ↔ a = b := by
  unfold orderBytes
  rw [Std.compare_eq_iff_eq]
  exact (List.map_injective_iff.mpr fun _ _ h => UInt8.toNat_inj.mp h).eq_iff

/-- Only a text equals a text, and then it is the same. What is garbled is no text's bytes. -/
theorem equal_text {v : Value} {s : String} : v.equal (.text s) = true ↔ v = .text s := by
  rw [equal_iff]
  cases v with
  | null | integer | real | blob => simp [order?]
  | text a => simp [order?]
  | garbled g => simp [order?, orderBytes_eq_eq, g.bytes_ne]

/-- Membership among identifiers is true only of a present value that equals one of them. -/
theorem amongIds_eq_true {v : Value} {ids : List Int} :
    v.amongIds ids = some true ↔ ∃ id ∈ ids, v.equal (.integer id) = true := by
  unfold amongIds
  cases ids with
  | nil => simp
  | cons id ids => cases v <;> simp [equal_iff, order?]

end Value

/-! ## Tests that callers ask for -/

namespace Test

/-- A test of equality is true of the contents that equal the operand, if the column takes it as it is. -/
theorem eval_equals {affinity : Affinity} {v : Value} {operand : Operand}
    (h : affinity.convert operand.value = operand.value) :
    (compare .eq operand).eval affinity v = some true ↔ v.equal operand.value = true := by
  show (v.order? (affinity.convert operand.value)).map (Comparison.holds .eq) = some true ↔ _
  rw [h, Value.equal_iff]
  simp [Comparison.holds]

/-- A test for absence is true of nothing but an empty cell. -/
theorem eval_isNull {affinity : Affinity} {v : Value} :
    isNull.eval affinity v = some true ↔ v = .null := by
  show some (v == .null) = some true ↔ _
  rw [Option.some.injEq, beq_iff_eq]

end Test

/-! ## Following foreign keys -/

namespace Database

/-- The row of a table that a foreign key names. -/
def referred? (db : Database) (target : Entity) (key : Value) : Option Row :=
  (db.rows target).find? fun t => key.equal (.integer t.id)

/-- Hops lead from one row to another: every key on the way is present and equals the identifier of a row
of the hop's target. -/
inductive Leads (db : Database) : List Hop → Row → Row → Prop where
  | here (r : Row) : Leads db [] r r
  | along {h : Hop} {hops : List Hop} {r s t : Row} (hpresent : r.get h.column ≠ .null)
      (hrow : s ∈ db.rows h.target) (hkey : (r.get h.column).equal (.integer s.id) = true)
      (rest : Leads db hops s t) :
      Leads db (h :: hops) r t

/-- The row to which hops lead from a row, if every key on the way is present and names a row. -/
def reach? (db : Database) : List Hop → Row → Option Row
  | [], r => some r
  | h :: hops, r => (db.referred? h.target (r.get h.column)).bind (db.reach? hops)

/-- The row that a key names is in the table and has the key for its identifier. -/
theorem equal_of_referred? {db : Database} {target : Entity} {key : Value} {t : Row}
    (h : db.referred? target key = some t) :
    t ∈ db.rows target ∧ key.equal (.integer t.id) = true := by
  have hkey := List.find?_some h
  exact ⟨List.mem_of_find?_eq_some h, hkey⟩

/-- In an ordered store a key names the one row with this identifier. -/
theorem referred?_eq_some {db : Database} (hdb : db.Ordered) {target : Entity} {key : Value}
    {t : Row} :
    db.referred? target key = some t ↔
      t ∈ db.rows target ∧ key.equal (.integer t.id) = true := by
  refine ⟨equal_of_referred?, ?_⟩
  rintro ⟨ht, hkey⟩
  cases hfound : db.referred? target key with
  | none => exact absurd hkey (List.find?_eq_none.mp hfound t ht)
  | some u =>
    obtain ⟨hu, huid⟩ := equal_of_referred? hfound
    have hid := Value.eq_of_equal_integer huid hkey
    rw [(hdb target).eq_of_id_eq hu ht hid]

/-- In an ordered store the row to which hops lead is the one that is found. Induction on the hops with
the row left open. -/
theorem reach?_eq_some {db : Database} (hdb : db.Ordered) {hops : List Hop} {r t : Row} :
    db.reach? hops r = some t ↔ db.Leads hops r t := by
  induction hops generalizing r with
  | nil =>
    constructor
    · rintro ⟨⟩
      exact .here _
    · rintro ⟨⟩
      rfl
  | cons h hops ih =>
    unfold reach?
    rw [Option.bind_eq_some_iff]
    constructor
    · rintro ⟨s, hs, ht⟩
      -- a row that is found has the key, so the key is present
      obtain ⟨hrow, hkey⟩ := (referred?_eq_some hdb).mp hs
      exact .along (Value.ne_null_of_equal hkey) hrow hkey (ih.mp ht)
    · rintro (_ | ⟨-, hrow, hkey, rest⟩)
      exact ⟨_, (referred?_eq_some hdb).mpr ⟨hrow, hkey⟩, ih.mpr rest⟩

end Database

/-! ## Conditions and predicates -/

namespace Condition

/-- **Nested tests follow the links.** Induction on the hops with the row left open: the first key is
among the identifiers of the targets that pass the rest exactly if it equals that of such a target. -/
theorem evalHops_iff_leads {db : Database} {leaf : Row → Truth} {hops : List Hop} {r : Row} :
    evalHops db leaf hops r = some true ↔ ∃ t, db.Leads hops r t ∧ leaf t = some true := by
  induction hops generalizing r with
  | nil =>
    constructor
    · intro h
      exact ⟨r, .here r, h⟩
    · rintro ⟨_, ⟨⟩, h⟩
      exact h
  | cons h hops ih =>
    unfold evalHops
    rw [Value.amongIds_eq_true]
    constructor
    · rintro ⟨id, hid, hkey⟩
      -- the identifier is that of a target which passes the rest
      obtain ⟨s, hs, rfl⟩ := List.mem_map.mp hid
      obtain ⟨hrow, hinner⟩ := List.mem_filter.mp hs
      obtain ⟨t, hleads, hleaf⟩ := ih.mp (beq_iff_eq.mp hinner)
      exact ⟨t, .along (Value.ne_null_of_equal hkey) hrow hkey hleads, hleaf⟩
    · rintro ⟨t, _ | ⟨-, hrow, hkey, hleads⟩, hleaf⟩
      have hinner := beq_iff_eq.mpr (ih.mpr ⟨t, hleads, hleaf⟩)
      exact ⟨_, List.mem_map.mpr ⟨_, List.mem_filter.mpr ⟨hrow, hinner⟩, rfl⟩, hkey⟩

/-- In an ordered store nested tests are true where the row that is found passes the innermost one. -/
theorem evalHops_eq_true {db : Database} (hdb : db.Ordered) {leaf : Row → Truth} {hops : List Hop}
    {r : Row} :
    evalHops db leaf hops r = some true ↔ ∃ t, db.reach? hops r = some t ∧ leaf t = some true := by
  simp only [evalHops_iff_leads, Database.reach?_eq_some hdb]

/-- A condition is true of a row exactly if its path leads to a row that passes its test. -/
theorem eval_eq_true {db : Database} (hdb : db.Ordered) {c : Condition} {r : Row} :
    c.eval db r = some true ↔
      ∃ t, db.reach? c.path.hops r = some t ∧ c.evalLeaf t = some true :=
  evalHops_eq_true hdb

end Condition

namespace Predicate

/-- A predicate holds of a row exactly if each of its conditions is true of it. -/
theorem holds_eq_true {db : Database} {p : Predicate} {r : Row} :
    p.holds db r = true ↔ ∀ c ∈ p.conditions, c.eval db r = some true := by
  unfold holds eval
  rw [beq_iff_eq]
  induction p.conditions with
  | nil => simp
  | cons c cs ih => rw [List.foldr_cons, Truth.and_eq_true, ih, List.forall_mem_cons]

theorem holds_single {db : Database} {c : Condition} {r : Row} :
    (Predicate.mk [c]).holds db r = true ↔ c.eval db r = some true := by
  rw [holds_eq_true, List.forall_mem_singleton]

/-- A conjunction holds exactly where both predicates do. -/
theorem holds_both {db : Database} {p q : Predicate} {r : Row} :
    (p.both q).holds db r = true ↔ p.holds db r = true ∧ q.holds db r = true := by
  simp only [holds_eq_true, both, List.mem_append, or_imp, forall_and]

end Predicate

end AssetRegister
