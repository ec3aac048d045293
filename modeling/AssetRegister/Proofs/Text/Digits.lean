import AssetRegister.Proofs.Text.Integer

/-!
# The digits of a number

Numbers are written by their decimal digits, without leading zeros or with zeros in front up to a width.
Either way the digits denote the number again, and the text of an integer reads as the integer.
-/

namespace AssetRegister.Text

/-- A number is written in one or more digits, and nothing else. -/
theorem digits_natText (n : Nat) : Digits (natText n) :=
  ⟨Nat.toDigits_ne_nil, fun _ hc => Nat.isDigit_of_mem_toDigits (by omega) (by omega) hc⟩

/-- The digits of a number denote it. -/
theorem digitsFrom_natText (n : Nat) : digitsFrom 0 (natText n) = n :=
  Nat.ofDigitChars_eq_foldl.symm.trans Nat.ofDigitChars_ten_toDigits

/-- Only zero is written with a zero in front, and then with nothing after it. -/
theorem natText_head_zero {n : Nat} {ds : List Char} (h : natText n = '0' :: ds) : ds = [] := by
  induction n using Nat.strongRecOn generalizing ds with
  | ind n ih =>
    unfold natText at h ih
    by_cases hn : n < 10
    · rw [Nat.toDigits_of_lt_base hn] at h
      exact (List.cons.inj h).2.symm
    · -- the digits before the last one are those of a positive number
      rw [Nat.toDigits_of_base_le (by omega) (by omega)] at h
      obtain ⟨d, before, hbefore⟩ := List.exists_cons_of_ne_nil (Nat.toDigits_ne_nil (n := n / 10) (b := 10))
      rw [hbefore, List.cons_append] at h
      obtain ⟨rfl, -⟩ := List.cons.inj h
      obtain rfl := ih (n / 10) (by omega) hbefore
      have hzero : digitsFrom 0 (natText (n / 10)) = 0 := by
        unfold natText
        rw [hbefore]
        rfl
      rw [digitsFrom_natText] at hzero
      omega

/-! ## Integers -/

/-- The digits of an integer's magnitude, behind a minus if it is negative. -/
theorem denotes_signed {ds : List Char} {n : Int} (h : Digits ds) (hn : digitsFrom 0 ds = n.natAbs) :
    Denotes (if n < 0 then '-' :: ds else ds) n := by
  split
  · have hminus := Denotes.minus h
    rwa [hn, show -((n.natAbs : Nat) : Int) = n by omega] at hminus
  · have hunsigned := Denotes.unsigned h
    rwa [hn, show ((n.natAbs : Nat) : Int) = n by omega] at hunsigned

/-- The text of an integer denotes it. -/
theorem denotes_integerChars (n : Int) : Denotes (integerChars n) n := by
  unfold integerChars
  apply denotes_signed (digits_natText _)
  apply digitsFrom_natText

/-- The text of an integer reads as the integer. -/
theorem readInteger_integerChars {w : Width} {n : Int} (h : w.Holds n) :
    readInteger w (integerChars n) = .ok n :=
  readInteger_eq_ok.mpr ⟨denotes_integerChars n, h⟩

/-! ## Zeros in front -/

theorem digits_padded (width n : Nat) : Digits (padded width n) := by
  have hdigits := digits_natText n
  refine ⟨List.append_ne_nil_of_right_ne_nil _ hdigits.1, fun c hc => ?_⟩
  rcases List.mem_append.mp hc with hzero | hdigit
  · obtain ⟨-, rfl⟩ := List.mem_replicate.mp hzero
    decide
  · exact hdigits.2 c hdigit

/-- Zeros in front do not change what digits denote. -/
theorem digitsFrom_padded (width n : Nat) : digitsFrom 0 (padded width n) = n := by
  have hzeros (k : Nat) : digitsFrom 0 (List.replicate k '0') = 0 := by
    rw [digitsFrom, ← Nat.ofDigitChars_eq_foldl, Nat.ofDigitChars_replicate_zero, Nat.mul_zero]
  show digitsFrom 0 (List.replicate _ '0' ++ natText n) = n
  rw [digitsFrom, List.foldl_append]
  show digitsFrom (digitsFrom 0 (List.replicate _ '0')) (natText n) = n
  rw [hzeros, digitsFrom_natText]

/-- A number that fits is written in exactly as many digits as the width says. -/
theorem length_padded {width n : Nat} (hwidth : 0 < width) (hn : n < Nat.pow 10 width) :
    (padded width n).length = width := by
  have hlength : (natText n).length ≤ width := (Nat.length_toDigits_le_iff (by omega) hwidth).mpr hn
  show (List.replicate (width - (natText n).length) '0' ++ natText n).length = width
  rw [List.length_append, List.length_replicate]
  omega

/-- The last digits of a number, as many as the width says. -/
def lastDigits : Nat → Nat → List Char
  | 0, _ => []
  | width + 1, n => lastDigits width (n / 10) ++ [Nat.digitChar (n % 10)]

theorem isDigit_lastDigits (width n : Nat) : ∀ c ∈ lastDigits width n, c.isDigit = true := by
  induction width generalizing n with
  | zero => exact List.forall_mem_nil _
  | succ width ih =>
    have hlast : (Nat.digitChar (n % 10)).isDigit = true := by
      rw [Nat.isDigit_digitChar]
      exact decide_eq_true (Nat.mod_lt n (by omega))
    simp only [lastDigits, List.forall_mem_append, List.forall_mem_singleton]
    exact ⟨ih (n / 10), hlast⟩

theorem padded_one {n : Nat} (hn : n < 10) : padded 1 n = [Nat.digitChar n] := by
  show List.replicate (1 - (Nat.toDigits 10 n).length) '0' ++ Nat.toDigits 10 n = _
  rw [Nat.toDigits_of_lt_base hn]
  rfl

/-- A number in one digit more is a tenth of it, rounded down, and its last digit. -/
theorem padded_succ {width : Nat} (hwidth : 0 < width) (n : Nat) :
    padded (width + 1) n = padded width (n / 10) ++ [Nat.digitChar (n % 10)] := by
  by_cases hn : n < 10
  -- what is in front of a number of one digit are zeros only
  · have hzero : padded width 0 = List.replicate width '0' := by
      obtain ⟨k, rfl⟩ := Nat.exists_eq_add_one_of_ne_zero (Nat.ne_of_gt hwidth)
      exact List.replicate_succ'.symm
    rw [Nat.div_eq_of_lt hn, Nat.mod_eq_of_lt hn, hzero]
    show List.replicate (width + 1 - (Nat.toDigits 10 n).length) '0' ++ Nat.toDigits 10 n = _
    rw [Nat.toDigits_of_lt_base hn]
    rfl
  · show List.replicate (width + 1 - (Nat.toDigits 10 n).length) '0' ++ Nat.toDigits 10 n =
      List.replicate (width - (Nat.toDigits 10 (n / 10)).length) '0' ++ Nat.toDigits 10 (n / 10) ++ _
    rw [Nat.toDigits_of_base_le (by omega) (by omega), List.length_append, List.append_assoc,
      List.length_singleton, Nat.add_sub_add_right]

/-- A number that fits is written by its last digits. -/
theorem padded_eq_lastDigits {width n : Nat} (hwidth : 0 < width) (hn : n < Nat.pow 10 width) :
    padded width n = lastDigits width n := by
  induction width, hwidth using Nat.le_induction generalizing n with
  | base =>
    have hten : n < 10 := hn
    rw [padded_one hten]
    show _ = [] ++ [Nat.digitChar (n % 10)]
    rw [Nat.mod_eq_of_lt hten]
    rfl
  | succ width hwidth ih =>
    have hdiv : n / 10 < Nat.pow 10 width := by
      rw [Nat.div_lt_iff_lt_mul (by omega)]
      exact hn
    rw [padded_succ hwidth, ih hdiv, lastDigits]

end AssetRegister.Text
