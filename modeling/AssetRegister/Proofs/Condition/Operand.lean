import AssetRegister.Proofs.Condition.Refused
import AssetRegister.Proofs.Text.Digits
import AssetRegister.Proofs.Text.Longest

/-!
# Numeric operands

A numeric attribute is compared with an integer of its width, and every text is either the numeral of one or
refused for one reason. `IntegerFault.Applies` says which reason, in terms of the numeral that the text
starts with: where that one leaves the range of the width, this is the reason, whatever comes after it.

* `Text.Signed`: a text as a sign and what comes after it, as the reader takes it apart.
* `Text.readInteger_eq_error`: a text is refused for the reason that applies.

Main statement: `Condition.compile_numeric`.
-/

namespace AssetRegister

namespace Text

/-! ## The numeral that a text starts with -/

/-- The text starts with a numeral of `n` whose last digit has no other digit behind it. -/
def Leads (s : List Char) (n : Int) : Prop :=
  ∃ numeral rest, s = numeral ++ rest ∧ Denotes numeral n ∧ ∀ c ∈ rest.head?, c.isDigit = false

end Text

/-- The reason why a text is not read as an integer of the width. -/
def IntegerFault.Applies (w : Width) (s : List Char) : IntegerFault → Prop
  | empty => s = []
  | tooLarge => ∃ n, Text.Leads s n ∧ w.greatest < n
  | tooSmall => ∃ n, Text.Leads s n ∧ n < w.least
  | invalidDigit => s ≠ [] ∧ (∀ n, Text.Leads s n → w.Holds n) ∧ ¬∃ n, Text.Denotes s n

namespace Text

/-- A text as a sign, if it has one, and what comes after it. The flag says whether it is a minus. -/
inductive Signed : List Char → Bool → List Char → Prop where
  | minus (body : List Char) : Signed ('-' :: body) true body
  | plus (body : List Char) : Signed ('+' :: body) false body
  | bare {c : Char} (body : List Char) (hminus : c ≠ '-') (hplus : c ≠ '+') :
      Signed (c :: body) false (c :: body)

/-- Every text that is not empty is taken apart into a sign, if it has one, and the rest. -/
theorem exists_signed {s : List Char} (h : s ≠ []) : ∃ negative body, Signed s negative body := by
  obtain ⟨c, body, rfl⟩ := List.exists_cons_of_ne_nil h
  by_cases hminus : c = '-'
  · subst hminus
    exact ⟨true, body, .minus body⟩
  · by_cases hplus : c = '+'
    · subst hplus
      exact ⟨false, body, .plus body⟩
    · exact ⟨false, c :: body, .bare body hminus hplus⟩

theorem Denotes.ne_nil {s : List Char} {n : Int} (h : Denotes s n) : s ≠ [] := by
  cases h with
  | unsigned h => exact h.1
  | plus | minus => exact List.cons_ne_nil _ _

variable {s body : List Char} {negative : Bool}

/-- The reader takes the sign off and reads the rest as digits. -/
theorem Signed.readInteger_eq (h : Signed s negative body) (w : Width) :
    readInteger w s = readDigits w negative body := by
  cases h with
  | minus | plus => rfl
  | bare body hminus hplus =>
    unfold readInteger
    split
    · next heq => cases heq
    · next heq => exact absurd (List.cons.inj heq).1 hminus
    · next heq => exact absurd (List.cons.inj heq).1 hplus
    · rfl

/-- A text is a numeral exactly if nothing but digits comes after the sign. -/
theorem Signed.denotes_iff (h : Signed s negative body) {n : Int} :
    Denotes s n ↔ Digits body ∧ n = signedValue negative body := by
  have hminus : Char.isDigit '-' = false := by decide
  have hplus : Char.isDigit '+' = false := by decide
  -- a sign is no digit, so each text has one reading
  constructor
  · intro hn
    cases h with
    | minus =>
      cases hn with
      | unsigned hs => exact absurd rfl (hs.head_ne hminus)
      | minus hs => exact ⟨hs, rfl⟩
    | plus =>
      cases hn with
      | unsigned hs => exact absurd rfl (hs.head_ne hplus)
      | plus hs => exact ⟨hs, rfl⟩
    | bare _ hnotMinus hnotPlus =>
      cases hn with
      | unsigned hs => exact ⟨hs, rfl⟩
      | plus => exact absurd rfl hnotPlus
      | minus => exact absurd rfl hnotMinus
  · rintro ⟨hs, rfl⟩
    cases h with
    | minus => exact .minus hs
    | plus => exact .plus hs
    | bare => exact .unsigned hs

/-- The sign of a text is that of the numeral that it starts with. -/
theorem Signed.of_append {numeral rest : List Char} (h : Signed (numeral ++ rest) negative body)
    (hne : numeral ≠ []) : ∃ ds, Signed numeral negative ds ∧ body = ds ++ rest := by
  obtain ⟨c, ds, rfl⟩ := List.exists_cons_of_ne_nil hne
  rw [List.cons_append] at h
  cases h with
  | minus => exact ⟨ds, .minus ds, rfl⟩
  | plus => exact ⟨ds, .plus ds, rfl⟩
  | bare _ hminus hplus => exact ⟨c :: ds, .bare ds hminus hplus, rfl⟩

/-- The numeral that a text starts with is its sign with all the digits that come after it. -/
theorem Signed.leads_iff (h : Signed s negative body) {n : Int} :
    Leads s n ↔ Digits (body.takeWhile Char.isDigit) ∧
      n = signedValue negative (body.takeWhile Char.isDigit) := by
  constructor
  · rintro ⟨numeral, rest, rfl, hn, hrest⟩
    obtain ⟨ds, hsigned, rfl⟩ := h.of_append hn.ne_nil
    obtain ⟨hds, rfl⟩ := hsigned.denotes_iff.mp hn
    rw [Text.takeWhile_append hds.2 hrest]
    exact ⟨hds, rfl⟩
  · rintro ⟨hds, rfl⟩
    -- the numeral ends where the digits do
    have hrest := Text.head?_dropWhile Char.isDigit body
    have hbody : body = body.takeWhile Char.isDigit ++ body.dropWhile Char.isDigit :=
      List.takeWhile_append_dropWhile.symm
    cases h with
    | minus => exact ⟨_, _, congrArg ('-' :: ·) hbody, .minus hds, hrest⟩
    | plus => exact ⟨_, _, congrArg ('+' :: ·) hbody, .plus hds, hrest⟩
    | bare => exact ⟨_, _, hbody, .unsigned hds, hrest⟩

/-! ## Why a text is refused -/

theorem holds_zero (w : Width) : w.Holds 0 := by cases w <;> decide

/-- Where the first digits leave the range, there are some. -/
theorem digits_of_not_holds {w : Width}
    (h : ¬w.Holds (signedValue negative (body.takeWhile Char.isDigit))) :
    Digits (body.takeWhile Char.isDigit) := by
  refine ⟨fun hnil => ?_, fun c hc => List.mem_takeWhile_imp hc⟩
  rw [hnil] at h
  cases negative <;> exact h (holds_zero w)

section

variable {w : Width}

/-- The range is tested against the first digits, before what follows them is looked at. -/
theorem readDigits_of_small (h : signedValue negative (body.takeWhile Char.isDigit) < w.least) :
    readDigits w negative body = .error .tooSmall := by
  unfold readDigits
  dsimp only
  rw [if_pos h]

theorem readDigits_of_large (h : w.greatest < signedValue negative (body.takeWhile Char.isDigit)) :
    readDigits w negative body = .error .tooLarge := by
  -- what is too large is not too small, which is tested first
  have hrange : w.least ≤ w.greatest := by cases w <;> decide
  unfold readDigits
  dsimp only
  rw [if_neg (by omega), if_pos h]

/-- If the first digits are in the range, what is wrong is a character that is no digit, or that there is
none. -/
theorem readDigits_of_holds (h : w.Holds (signedValue negative (body.takeWhile Char.isDigit)))
    (hbody : ¬Digits body) : readDigits w negative body = .error .invalidDigit := by
  have hother : (body.isEmpty || !body.all Char.isDigit) = true := by
    by_contra hall
    exact hbody (by simpa [Digits] using hall)
  obtain ⟨hleast, hgreatest⟩ := h
  unfold readDigits
  dsimp only
  rw [if_neg (by omega), if_neg (by omega), if_pos hother]

theorem Leads.ne_nil {n : Int} (h : Leads s n) : s ≠ [] := by
  obtain ⟨numeral, rest, rfl, hn, -⟩ := h
  exact List.append_ne_nil_of_left_ne_nil hn.ne_nil rest

/-- A numeral starts with itself. -/
theorem Denotes.leads {n : Int} (h : Denotes s n) : Leads s n :=
  ⟨s, [], (List.append_nil s).symm, h, fun _ hc => absurd hc (Option.not_mem_none _)⟩

/-- A text for which a reason applies is refused for it. One case for each reason. -/
theorem readInteger_of_applies {fault : IntegerFault} (h : fault.Applies w s) :
    readInteger w s = .error fault := by
  cases fault with
  | empty =>
    obtain rfl : s = [] := h
    rfl
  | tooSmall =>
    obtain ⟨n, hn, hsmall⟩ := h
    obtain ⟨negative, body, hsigned⟩ := exists_signed hn.ne_nil
    obtain ⟨-, rfl⟩ := hsigned.leads_iff.mp hn
    rw [hsigned.readInteger_eq, readDigits_of_small hsmall]
  | tooLarge =>
    obtain ⟨n, hn, hlarge⟩ := h
    obtain ⟨negative, body, hsigned⟩ := exists_signed hn.ne_nil
    obtain ⟨-, rfl⟩ := hsigned.leads_iff.mp hn
    rw [hsigned.readInteger_eq, readDigits_of_large hlarge]
  | invalidDigit =>
    -- there may be no digit at all, which counts as zero and is in the range
    obtain ⟨hne, hrange, hno⟩ := h
    obtain ⟨negative, body, hsigned⟩ := exists_signed hne
    have hholds : w.Holds (signedValue negative (body.takeWhile Char.isDigit)) := by
      by_contra hout
      exact hout (hrange _ (hsigned.leads_iff.mpr ⟨digits_of_not_holds hout, rfl⟩))
    have hbody : ¬Digits body := fun hbody => hno ⟨_, hsigned.denotes_iff.mpr ⟨hbody, rfl⟩⟩
    rw [hsigned.readInteger_eq, readDigits_of_holds hholds hbody]

/-- For every text that is no numeral of the width there is a reason. -/
theorem exists_applies (h : ¬∃ n, Denotes s n ∧ w.Holds n) :
    ∃ fault : IntegerFault, fault.Applies w s := by
  by_cases hs : s = []
  · exact ⟨.empty, hs⟩
  · by_cases hlarge : ∃ n, Leads s n ∧ w.greatest < n
    · exact ⟨.tooLarge, hlarge⟩
    · by_cases hsmall : ∃ n, Leads s n ∧ n < w.least
      · exact ⟨.tooSmall, hsmall⟩
      · -- what the text starts with is in the range, so it is not the whole text
        have hholds (n : Int) (hn : Leads s n) : w.Holds n :=
          ⟨Int.not_lt.mp fun hlt => hsmall ⟨n, hn, hlt⟩, Int.not_lt.mp fun hlt => hlarge ⟨n, hn, hlt⟩⟩
        exact ⟨.invalidDigit, hs, hholds, fun ⟨n, hn⟩ => h ⟨n, hn, hholds n hn.leads⟩⟩

/-- **A text is refused for the reason that applies**, and no other one does. -/
theorem readInteger_eq_error {fault : IntegerFault} :
    readInteger w s = .error fault ↔ fault.Applies w s := by
  constructor
  · intro h
    obtain ⟨fault', happlies⟩ := exists_applies (exists_readInteger_eq_error.mp ⟨fault, h⟩)
    rw [readInteger_of_applies happlies] at h
    cases h
    exact happlies
  · exact readInteger_of_applies

end

/-! ## By sign -/

/-- Only a minus makes a numeral negative, so a text that is too small starts with one. -/
theorem Leads.eq_minus_of_neg {n : Int} (h : Leads s n) (hn : n < 0) : ∃ t, s = '-' :: t := by
  obtain ⟨numeral, rest, rfl, hnumeral, -⟩ := h
  cases hnumeral with
  | unsigned | plus => omega
  | minus => exact ⟨_, rfl⟩

/-- And no text that is too large does. -/
theorem Leads.ne_minus_of_pos {n : Int} (h : Leads s n) (hn : 0 < n) (t : List Char) :
    s ≠ '-' :: t := by
  rintro rfl
  obtain ⟨-, rfl⟩ := (Signed.minus t).leads_iff.mp h
  simp only [signedValue, if_true] at hn
  omega

/-- The numeral of an integer with zeros in front of its digits, of which there are `width` or more. -/
def numeral (width : Nat) (n : Int) : List Char :=
  if n < 0 then '-' :: padded width n.natAbs else padded width n.natAbs

/-- Zeros in front of its digits do not change what a numeral stands for. -/
theorem denotes_numeral (width : Nat) (n : Int) : Denotes (numeral width n) n := by
  unfold numeral
  apply denotes_signed (digits_padded _ _)
  apply digitsFrom_padded

end Text

/-- The range of a width is that of the signed integers with its number of bits. -/
theorem Width.holds_iff {w : Width} {n : Int} :
    w.Holds n ↔ -(Nat.pow 2 (w.bits - 1) : Int) ≤ n ∧ n < (Nat.pow 2 (w.bits - 1) : Int) := by
  cases w <;> simp [Width.Holds, Width.least, Width.greatest, Width.bits] <;> omega

namespace Condition

/-! ## Compiling -/

variable {p : Path} {w : Width}

/-- A comparison with a numeric attribute compiles exactly for the numerals of its width. -/
theorem compile_comparison_eq_ok (hp : p.kind = .numeric w) {c : Comparison} {s : String}
    {condition : Condition} :
    compile p (.comparison c) s = .ok condition ↔
      ∃ n, Text.Denotes s.toList n ∧ w.Holds n ∧ condition = ⟨p, .compare c (.integer n)⟩ := by
  have hread (n : Int) := Text.readInteger_eq_ok (w := w) (s := s.toList) (n := n)
  unfold compile Test.compile
  rw [hp]
  dsimp only
  -- what is read and what is denoted are the same integer
  cases h : Text.readInteger w s.toList with
  | ok n =>
    obtain ⟨hdenotes, hholds⟩ := (hread n).mp h
    constructor
    · rintro ⟨⟩
      exact ⟨n, hdenotes, hholds, rfl⟩
    · rintro ⟨m, hm, -, rfl⟩
      rw [hdenotes.unique hm]
      rfl
  | error reason =>
    constructor
    · rintro ⟨⟩
    · rintro ⟨n, hdenotes, hholds, -⟩
      cases h.symm.trans ((hread n).mpr ⟨hdenotes, hholds⟩)

/-- Otherwise it is refused with the reason that applies to its operand. -/
theorem compile_comparison_eq_error (hp : p.kind = .numeric w) {c : Comparison} {s : String}
    {fault : CompileFault} :
    compile p (.comparison c) s = .error fault ↔
      ∃ reason : IntegerFault, reason.Applies w s.toList ∧ fault = .invalidOperand s reason := by
  unfold compile
  rw [Outcome.map_eq_error, Test.compile_eq_error, hp]
  simp [Kind.allows, Text.readInteger_eq_error]

/-- **Numeric operands are read exactly.** A comparison of an attribute of `w` bits with a text

* is compiled if and only if the text is an optional sign and one or more ASCII digits, which denote an
  integer in the range of the signed integers of `w` bits, and then that integer is what is bound;
* is refused otherwise, with the text, for the one reason that applies (`IntegerFault.Applies`): there is
  nothing in it; or the digits before the first other character leave the range, upwards, or downwards behind
  a minus; or in all other cases, that of a sign alone included, a character is at fault.

Any zeros may stand in front, and every integer of the range is reached. -/
theorem compile_numeric (hp : p.kind = .numeric w) (c : Comparison) (s : String) :
    (∀ n, w.Holds n ↔ -(Nat.pow 2 (w.bits - 1) : Int) ≤ n ∧ n < (Nat.pow 2 (w.bits - 1) : Int)) ∧
      (∀ condition, compile p (.comparison c) s = .ok condition ↔
        ∃ n, Text.Denotes s.toList n ∧ w.Holds n ∧ condition = ⟨p, .compare c (.integer n)⟩) ∧
      (∀ fault, compile p (.comparison c) s = .error fault ↔
        ∃ reason : IntegerFault, reason.Applies w s.toList ∧ fault = .invalidOperand s reason) ∧
      (IntegerFault.tooSmall.Applies w s.toList → ∃ t, s.toList = '-' :: t) ∧
      (IntegerFault.tooLarge.Applies w s.toList → ∀ t, s.toList ≠ '-' :: t) ∧
      (s = "+" ∨ s = "-" → compile p (.comparison c) s = .error (.invalidOperand s .invalidDigit)) ∧
      ∀ n, w.Holds n → ∀ width,
        compile p (.comparison c) (String.ofList (Text.numeral width n)) =
          .ok ⟨p, .compare c (.integer n)⟩ := by
  have hzero := Text.holds_zero w
  refine ⟨fun n => Width.holds_iff, fun _ => compile_comparison_eq_ok hp,
    fun _ => compile_comparison_eq_error hp, ?_, ?_, ?_, ?_⟩
  -- zero is in the range, so what is below it is negative
  · rintro ⟨n, hn, hsmall⟩
    exact hn.eq_minus_of_neg (by have := hzero.1; omega)
  · rintro ⟨n, hn, hlarge⟩
    exact hn.ne_minus_of_pos (by have := hzero.2; omega)
  -- a sign alone is a numeral without digits
  · intro hsign
    refine (compile_comparison_eq_error hp).mpr ⟨_, Text.readInteger_eq_error.mp ?_, rfl⟩
    rcases hsign with rfl | rfl <;> cases w <;> rfl
  · intro n hn width
    refine (compile_comparison_eq_ok hp).mpr ⟨n, ?_, hn, rfl⟩
    rw [String.toList_ofList]
    exact Text.denotes_numeral width n

/-- Digits that leave the range before another character, and the least integer with zeros in front. -/
theorem compile_numeric_version :
    let version : Path := ⟨[], .assets, "version", .numeric .bits32⟩
    Path.resolve .assets .underscored "version" = .ok version ∧
      compile version (.comparison .lt) "2147483648x" =
        .error (.invalidOperand "2147483648x" .tooLarge) ∧
      compile version (.comparison .lt) "-0002147483648" =
        .ok ⟨version, .compare .lt (.integer (-2147483648))⟩ := by
  intro version
  obtain ⟨-, -, herror, -⟩ := compile_numeric (p := version) rfl .lt "2147483648x"
  obtain ⟨-, -, -, -, -, -, hnumeral⟩ := compile_numeric (p := version) rfl .lt ""
  have hlarge : IntegerFault.tooLarge.Applies .bits32 "2147483648x".toList :=
    ⟨2147483648, ⟨"2147483648".toList, ['x'], by decide, .unsigned (by decide), by simp⟩, by decide⟩
  refine ⟨by decide +kernel, (herror _).mpr ⟨.tooLarge, hlarge, rfl⟩, ?_⟩
  exact hnumeral (-2147483648) (by decide) 13

end Condition

end AssetRegister
