import AssetRegister.Text.Integer
import Mathlib.Data.List.TakeWhile

/-!
# The texts that denote an integer

A text denotes an integer if it is an optional sign and one or more digits. `Text.readInteger` reads a
text from left to right and has four ways to fail; it succeeds exactly on the texts that denote an
integer of the width.
-/

namespace AssetRegister

/-- The integers that have the width. -/
def Width.Holds (w : Width) (n : Int) : Prop := w.least ≤ n ∧ n ≤ w.greatest

instance (w : Width) (n : Int) : Decidable (w.Holds n) := inferInstanceAs (Decidable (_ ∧ _))

namespace Text

/-- One or more digits, and nothing else. -/
def Digits (ds : List Char) : Prop := ds ≠ [] ∧ ∀ c ∈ ds, c.isDigit = true

instance : DecidablePred Digits := fun ds =>
  decidable_of_iff ((!ds.isEmpty && ds.all Char.isDigit) = true) (by simp [Digits])

/-- The texts that denote an integer. -/
inductive Denotes : List Char → Int → Prop where
  | unsigned {ds : List Char} (h : Digits ds) : Denotes ds (digitsFrom 0 ds)
  | plus {ds : List Char} (h : Digits ds) : Denotes ('+' :: ds) (digitsFrom 0 ds)
  | minus {ds : List Char} (h : Digits ds) : Denotes ('-' :: ds) (-digitsFrom 0 ds)

theorem Digits.head_ne {ds : List Char} {c d : Char} (h : Digits (d :: ds))
    (hc : c.isDigit = false) : d ≠ c := by
  rintro rfl
  rw [h.2 d List.mem_cons_self] at hc
  cases hc

/-- A text denotes at most one integer: digits start with neither sign. -/
theorem Denotes.unique {s : List Char} {m n : Int} (hm : Denotes s m) (hn : Denotes s n) : m = n := by
  have hplus : Char.isDigit '+' = false := by decide
  have hminus : Char.isDigit '-' = false := by decide
  cases hm with
  | unsigned h =>
    cases hn with
    | unsigned => rfl
    | plus => exact absurd rfl (h.head_ne hplus)
    | minus => exact absurd rfl (h.head_ne hminus)
  | plus =>
    cases hn with
    | unsigned h => exact absurd rfl (h.head_ne hplus)
    | plus => rfl
  | minus =>
    cases hn with
    | unsigned h => exact absurd rfl (h.head_ne hminus)
    | minus => rfl

/-- Digits are read if there is nothing else, and their value has the width. -/
theorem readDigits_eq_ok {w : Width} {negative : Bool} {s : List Char} {n : Int} :
    readDigits w negative s = .ok n ↔ Digits s ∧ n = signedValue negative s ∧ w.Holds n := by
  have hdigits : Digits s ↔ ¬(s.isEmpty || !s.all Char.isDigit) = true := by
    simp [Digits]
  unfold readDigits
  constructor
  · intro h
    dsimp only at h
    split at h
    · cases h
    · next hleast =>
      split at h
      · cases h
      · next hgreatest =>
        split at h
        · cases h
        · next hs =>
          -- nothing comes after the digits, so all of the text was read
          have hall : s.takeWhile Char.isDigit = s :=
            List.takeWhile_eq_self_iff.mpr (hdigits.mpr hs).2
          rw [hall] at h hleast hgreatest
          cases h
          exact ⟨hdigits.mpr hs, rfl, Int.not_lt.mp hleast, Int.not_lt.mp hgreatest⟩
  · rintro ⟨hs, rfl, hleast, hgreatest⟩
    have hall : s.takeWhile Char.isDigit = s := List.takeWhile_eq_self_iff.mpr hs.2
    dsimp only
    rw [hall, if_neg (Int.not_lt.mpr hleast), if_neg (Int.not_lt.mpr hgreatest),
      if_neg (hdigits.mp hs)]

/-- **An integer is read exactly from the texts that denote it**, if it has the width. -/
theorem readInteger_eq_ok {w : Width} {s : List Char} {n : Int} :
    readInteger w s = .ok n ↔ Denotes s n ∧ w.Holds n := by
  have hminus : Char.isDigit '-' = false := by decide
  have hplus : Char.isDigit '+' = false := by decide
  constructor
  · intro h
    unfold readInteger at h
    split at h
    · cases h
    · obtain ⟨hs, rfl, hn⟩ := readDigits_eq_ok.mp h
      exact ⟨.minus hs, hn⟩
    · obtain ⟨hs, rfl, hn⟩ := readDigits_eq_ok.mp h
      exact ⟨.plus hs, hn⟩
    · obtain ⟨hs, rfl, hn⟩ := readDigits_eq_ok.mp h
      exact ⟨.unsigned hs, hn⟩
  · rintro ⟨hs, hn⟩
    cases hs with
    | unsigned hs =>
      -- digits start with neither sign
      obtain ⟨d, ds, rfl⟩ := List.exists_cons_of_ne_nil hs.1
      have hd := hs.head_ne hminus
      have hd' := hs.head_ne hplus
      unfold readInteger
      split
      · next heq => cases heq
      · next heq => exact absurd (List.cons.inj heq).1 hd
      · next heq => exact absurd (List.cons.inj heq).1 hd'
      · exact readDigits_eq_ok.mpr ⟨hs, rfl, hn⟩
    | plus hs => exact readDigits_eq_ok.mpr ⟨hs, rfl, hn⟩
    | minus hs => exact readDigits_eq_ok.mpr ⟨hs, rfl, hn⟩

/-- A text that denotes no integer of the width is refused. -/
theorem exists_readInteger_eq_error {w : Width} {s : List Char} :
    (∃ fault, readInteger w s = .error fault) ↔ ¬∃ n, Denotes s n ∧ w.Holds n := by
  simp only [← readInteger_eq_ok]
  cases readInteger w s <;> simp

end Text

end AssetRegister
