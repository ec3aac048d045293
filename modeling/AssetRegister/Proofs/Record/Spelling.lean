import AssetRegister.Proofs.Outcome
import AssetRegister.Proofs.Text.Integer
import AssetRegister.Proofs.Text.Longest
import AssetRegister.Record.Timestamp

/-!
# The texts that spell a timestamp

White space may stand before each number of a stored timestamp, a number may have fewer digits than its
place in the written form, and a signed year may have more. `Spelled` says which texts spell which parts,
and `Exists` says of the parts alone whether they are a date of the calendar and a time of day. A text is
read exactly if it spells parts that exist.
-/

namespace AssetRegister.Timestamp

open Outcome Text

/-! ## Dates that exist -/

/-- Whether a year has a 29th of February: one in four has, but of the centuries one in four only. -/
def HasLeapDay (year : Int) : Prop := 4 ∣ year ∧ (¬100 ∣ year ∨ 400 ∣ year)

instance : DecidablePred HasLeapDay := fun _ => inferInstanceAs (Decidable (_ ∧ _))

/-- The dates of the Gregorian calendar. -/
def IsDate (year : Int) (month day : Nat) : Prop :=
  1 ≤ day ∧
    (month ∈ [1, 3, 5, 7, 8, 10, 12] ∧ day ≤ 31 ∨ month ∈ [4, 6, 9, 11] ∧ day ≤ 30 ∨
      month = 2 ∧ (day ≤ 28 ∨ day = 29 ∧ HasLeapDay year))

/-- The parts are a date, in the years that timestamps reach, and a time whose second may be a leap
second. -/
structure Exists (t : Timestamp) : Prop where
  reached : firstYear ≤ t.year ∧ t.year ≤ lastYear
  date : IsDate t.year t.month t.day
  hour : t.hour < 24
  minute : t.minute < 60
  second : t.second ≤ 60

theorem isLeapYear_iff {year : Int} : Calendar.isLeapYear year = true ↔ HasLeapDay year := by
  simp only [Calendar.isLeapYear, HasLeapDay, Bool.and_eq_true, Bool.or_eq_true, beq_iff_eq, bne_iff_ne,
    ne_eq, Int.dvd_iff_emod_eq_zero]

/-- The reader bounds the month first and looks the days of it up; `IsDate` lists the months. -/
theorem isDate_iff {year : Int} {month day : Nat} :
    IsDate year month day ↔
      (1 ≤ month ∧ month ≤ 12) ∧ 1 ≤ day ∧ day ≤ Calendar.daysInMonth year month := by
  have hleap : Calendar.isLeapYear year = true ↔ HasLeapDay year := isLeapYear_iff
  simp only [IsDate, Calendar.daysInMonth, List.mem_cons, List.not_mem_nil, or_false]
  by_cases h : HasLeapDay year
  -- the months are gone through twice, in a leap year and in a common one
  · simp only [h, hleap.mpr h, and_true, if_true]
    split_ifs <;> omega
  · have hnot : Calendar.isLeapYear year = false := by simpa using mt hleap.mp h
    simp only [h, hnot, and_false, or_false, Bool.false_eq_true, if_false]
    split_ifs <;> omega

/-- The days that a month may seem to have. -/
theorem not_isDate {year : Int} {month day : Nat}
    (h : month = 2 ∧ day = 29 ∧ ¬HasLeapDay year ∨ month ∈ [4, 6, 9, 11] ∧ day = 31) :
    ¬IsDate year month day := by
  rintro ⟨-, hmonth⟩
  simp only [List.mem_cons, List.not_mem_nil, or_false] at h hmonth
  rcases h with ⟨rfl, rfl, hnot⟩ | ⟨hthirty, rfl⟩
  · simp [hnot] at hmonth
  · omega

theorem daysInMonth_le (year : Int) (month : Nat) : Calendar.daysInMonth year month ≤ 31 := by
  unfold Calendar.daysInMonth
  split_ifs <;> omega

/-- What the reader accepts is what exists. -/
theorem isValid_iff {t : Timestamp} : t.isValid = true ↔ t.Exists := by
  simp only [isValid, Bool.and_eq_true, decide_eq_true_eq]
  constructor
  · rintro ⟨⟨⟨⟨⟨⟨⟨⟨hfirst, hlast⟩, hmonth⟩, hmonth'⟩, hday⟩, hday'⟩, hhour⟩, hminute⟩, hsecond⟩
    exact ⟨⟨hfirst, hlast⟩, isDate_iff.mpr ⟨⟨hmonth, hmonth'⟩, hday, hday'⟩, hhour, hminute, hsecond⟩
  · rintro ⟨⟨hfirst, hlast⟩, hdate, hhour, hminute, hsecond⟩
    obtain ⟨⟨hmonth, hmonth'⟩, hday, hday'⟩ := isDate_iff.mp hdate
    exact ⟨⟨⟨⟨⟨⟨⟨⟨hfirst, hlast⟩, hmonth⟩, hmonth'⟩, hday⟩, hday'⟩, hhour⟩, hminute⟩, hsecond⟩

instance (t : Timestamp) : Decidable t.Exists := decidable_of_iff _ isValid_iff

/-! ## Spelling -/

/-- White space. -/
def Blanks (s : List Char) : Prop := ∀ c ∈ s, isBlank c = true

instance : DecidablePred Blanks := fun s => decidable_of_iff (s.all isBlank = true) List.all_eq_true

/-- The texts of a year: up to four digits, or any number of them after a sign. -/
inductive YearText : List Char → Int → Prop where
  | unsigned {ds : List Char} (h : Digits ds) (hshort : ds.length ≤ 4) :
      YearText ds (digitsFrom 0 ds)
  | plus {ds : List Char} (h : Digits ds) : YearText ('+' :: ds) (digitsFrom 0 ds)
  | minus {ds : List Char} (h : Digits ds) : YearText ('-' :: ds) (-digitsFrom 0 ds)

/-- The texts of any other part: one digit or two. -/
def PartText (ds : List Char) (n : Nat) : Prop :=
  Digits ds ∧ ds.length ≤ 2 ∧ digitsFrom 0 ds = n

instance (ds : List Char) (n : Nat) : Decidable (PartText ds n) := inferInstanceAs (Decidable (_ ∧ _))

/-- The texts of a timestamp. If no white space stands between day and hour, the day takes two digits. -/
inductive Spelled (t : Timestamp) : List Char → Prop where
  | parts {b₁ b₂ b₃ b₄ b₅ b₆ year month day hour minute second : List Char}
      (hblanks : ∀ b ∈ [b₁, b₂, b₃, b₄, b₅, b₆], Blanks b) (hyear : YearText year t.year)
      (hmonth : PartText month t.month) (hday : PartText day t.day) (hhour : PartText hour t.hour)
      (hminute : PartText minute t.minute) (hsecond : PartText second t.second)
      (hjoint : b₄ = [] → day.length = 2) :
      Spelled t (b₁ ++ year ++ '-' :: b₂ ++ month ++ '-' :: b₃ ++ day ++ b₄ ++ hour
        ++ ':' :: b₅ ++ minute ++ ':' :: b₆ ++ second)

/-! ## Readings that may be out of range -/

section ReadsIf

variable {α β : Type} {P Q : Prop} {x : Except TimestampFault α} {a : α}

/-- A reading gives `a` if `P` holds, and is out of range otherwise. -/
def ReadsIf (P : Prop) (x : Except TimestampFault α) (a : α) : Prop :=
  (P → x = .ok a) ∧ (¬P → x = .error .outOfRange)

theorem ReadsIf.ite [Decidable P] : ReadsIf P (if P then .ok a else .error .outOfRange) a :=
  ⟨fun h => if_pos h, fun h => if_neg h⟩

theorem ReadsIf.congr (hiff : P ↔ Q) (h : ReadsIf P x a) : ReadsIf Q x a :=
  ⟨fun hQ => h.1 (hiff.mpr hQ), fun hQ => h.2 (mt hiff.mp hQ)⟩

/-- Of two readings in a row both have to be within range. -/
theorem ReadsIf.bind {f : α → Except TimestampFault β} {b : β} (hx : ReadsIf P x a)
    (hf : ReadsIf Q (f a) b) : ReadsIf (P ∧ Q) (x >>= f) b := by
  constructor
  · rintro ⟨hP, hQ⟩
    exact bind_eq_ok.mpr ⟨a, hx.1 hP, hf.1 hQ⟩
  · intro hnot
    rw [bind_eq_error]
    by_cases hP : P
    · exact .inr ⟨a, hx.1 hP, hf.2 fun hQ => hnot ⟨hP, hQ⟩⟩
    · exact .inl (hx.2 hP)

/-- A step that succeeds anyway, before a reading. -/
theorem ReadsIf.after {f : α → Except TimestampFault β} {b : β} (hx : x = .ok a)
    (hf : ReadsIf Q (f a) b) : ReadsIf Q (x >>= f) b := by
  rw [hx]
  exact hf

/-- A step that succeeds anyway, after a reading. -/
theorem ReadsIf.before {f : α → Except TimestampFault β} {b : β} (hx : ReadsIf P x a)
    (hf : f a = .ok b) : ReadsIf P (x >>= f) b :=
  ⟨fun hP => bind_eq_ok.mpr ⟨a, hx.1 hP, hf⟩, fun hP => bind_eq_error.mpr (.inl (hx.2 hP))⟩

theorem ReadsIf.map (f : α → β) (h : ReadsIf P x a) : ReadsIf P (x.map f) (f a) :=
  ⟨fun hP => map_eq_ok.mpr ⟨a, h.1 hP, rfl⟩, fun hP => map_eq_error.mpr (h.2 hP)⟩

end ReadsIf

/-! ## Numbers -/

variable {s rest b ds : List Char} {most : Option Nat} {n : Nat}

/-- A digit is no white space, so blanks before a number end where the number starts. -/
theorem isBlank_of_isDigit {c : Char} (h : c.isDigit = true) : isBlank c = false := by
  have hrange : 48 ≤ c.toNat ∧ c.toNat ≤ 57 := by
    simpa [Char.isDigit, UInt32.le_iff_toNat_le] using h
  simp only [isBlank, Bool.or_eq_false_iff, Bool.and_eq_false_iff, decide_eq_false_iff_not,
    beq_eq_false_iff_ne]
  omega

/-- A run of digits that is read as one number: not more of them than are read at most, and no digit
behind them if there are fewer. -/
structure Run (most : Option Nat) (ds rest : List Char) : Prop where
  digits : Digits ds
  short : ∀ k ∈ most, ds.length ≤ k
  ends : most = some ds.length ∨ ∀ c ∈ rest.head?, c.isDigit = false

/-- The digits that are read as one number. -/
def taken (most : Option Nat) (s : List Char) : List Char :=
  match most with
  | some k => (s.takeWhile Char.isDigit).take k
  | none => s.takeWhile Char.isDigit

/-- From a digit on, the run of digits is taken, and refused if it does not fit into 64 bits. -/
theorem readNumber_cons {c : Char} (hc : c.isDigit = true) :
    readNumber most (c :: s) =
      if Width.bits64.greatest < (digitsFrom 0 (taken most (c :: s)) : Int) then .error .outOfRange
      else .ok (digitsFrom 0 (taken most (c :: s)), (c :: s).drop (taken most (c :: s)).length) := by
  simp only [readNumber, hc, Bool.not_true, Bool.false_eq_true, if_false]
  rfl

/-- Of a text that starts with a run, the run is taken and nothing else. -/
theorem taken_append (h : Run most ds rest) : taken most (ds ++ rest) = ds := by
  obtain ⟨hdigits, hshort, hends⟩ := h
  unfold taken
  rw [List.takeWhile_append_of_pos hdigits.2]
  rcases hends with rfl | hends
  · exact List.take_left
  · rw [Text.takeWhile_eq_nil hends, List.append_nil]
    cases most with
    | none => rfl
    | some k => exact List.take_of_length_le (hshort k rfl)

theorem taken_prefix : taken most s <+: s := by
  have hrun := List.takeWhile_prefix Char.isDigit (l := s)
  cases most with
  | none => exact hrun
  | some k => exact (List.take_prefix k _).trans hrun

/-- Behind the digits at the start of a text stands no digit. -/
theorem head?_drop_takeWhile :
    ∀ c ∈ (s.drop (s.takeWhile Char.isDigit).length).head?, c.isDigit = false := by
  have hdrop : s.drop (s.takeWhile Char.isDigit).length = s.dropWhile Char.isDigit := by
    conv_lhs => arg 2; rw [← List.takeWhile_append_dropWhile (p := Char.isDigit) (l := s)]
    exact List.drop_left
  rw [hdrop]
  exact Text.head?_dropWhile Char.isDigit s

/-- What is taken is a run. -/
theorem run_taken {c : Char} (hc : c.isDigit = true) (hmost : ∀ k ∈ most, 0 < k) :
    Run most (taken most (c :: s)) ((c :: s).drop (taken most (c :: s)).length) := by
  have hall : ∀ d ∈ (c :: s).takeWhile Char.isDigit, d.isDigit = true :=
    fun d hd => List.mem_takeWhile_imp hd
  have hnext := head?_drop_takeWhile (s := c :: s)
  have hrun : (c :: s).takeWhile Char.isDigit ≠ [] := by
    rw [List.takeWhile_cons_of_pos hc]
    exact List.cons_ne_nil c _
  unfold taken
  generalize (c :: s).takeWhile Char.isDigit = run at hall hnext hrun
  cases most with
  | none => exact ⟨⟨hrun, hall⟩, nofun, .inr hnext⟩
  | some k =>
    have hpos := hmost k rfl
    refine ⟨⟨?_, fun d hd => hall d (List.mem_of_mem_take hd)⟩, ?_, ?_⟩
    · simp only [ne_eq, List.take_eq_nil_iff, hrun, or_false]
      omega
    · rintro _ ⟨⟩
      exact List.length_take_le k run
    -- the run stops after `k` digits if there are as many, and before something else if there are fewer
    · by_cases hlong : k ≤ run.length
      · exact .inl (congrArg some (List.length_take_of_le hlong).symm)
      · show _ ∨ ∀ d ∈ ((c :: s).drop (run.take k).length).head?, d.isDigit = false
        rw [List.take_of_length_le (Nat.le_of_not_le hlong)]
        exact .inr hnext

/-- A run is read as its number, and what stands behind it is left. -/
theorem readNumber_run (h : Run most ds rest) :
    ReadsIf ((digitsFrom 0 ds : Int) ≤ Width.bits64.greatest) (readNumber most (ds ++ rest))
      (digitsFrom 0 ds, rest) := by
  have htaken := taken_append h
  obtain ⟨d, ds, rfl⟩ := List.exists_cons_of_ne_nil h.digits.1
  rw [List.cons_append] at htaken ⊢
  rw [readNumber_cons (h.digits.2 d List.mem_cons_self), htaken, ← List.cons_append, List.drop_left]
  constructor
  · intro hle
    exact if_neg (Int.not_lt.mpr hle)
  · intro hlt
    exact if_pos (Int.not_le.mp hlt)

/-- What was read as a number was a run. -/
theorem run_of_readNumber (hmost : ∀ k ∈ most, 0 < k) (h : readNumber most s = .ok (n, rest)) :
    ∃ ds, s = ds ++ rest ∧ Run most ds rest ∧ digitsFrom 0 ds = n := by
  cases s with
  | nil => cases h
  | cons c s =>
    cases hc : c.isDigit with
    | false =>
      simp only [readNumber, hc, Bool.not_false, if_true] at h
      cases h
    | true =>
      rw [readNumber_cons hc] at h
      -- a run that does not fit into 64 bits is refused
      split at h
      · cases h
      · cases h
        exact ⟨taken most (c :: s), List.prefix_iff_eq_append.mp taken_prefix |>.symm,
          run_taken hc hmost, rfl⟩

/-! ## Years and fields -/

/-- What holds of all digits holds of the first character of a text that starts with some. -/
theorem head?_digits {P : Char → Prop} (hds : Digits ds) (h : ∀ c, c.isDigit = true → P c) :
    ∀ c ∈ (ds ++ s).head?, P c := by
  obtain ⟨d, ds, rfl⟩ := List.exists_cons_of_ne_nil hds.1
  rintro _ ⟨⟩
  exact h d (hds.2 d List.mem_cons_self)

/-- A number between the bounds of its part is read, with the white space before it. -/
theorem readField_part {least greatest : Nat} (hgreatest : (greatest : Int) ≤ Width.bits64.greatest)
    (hb : Blanks b) (hds : PartText ds n) (hends : ds.length = 2 ∨ ∀ c ∈ rest.head?, c.isDigit = false) :
    ReadsIf (least ≤ n ∧ n ≤ greatest) (readField least greatest (b ++ (ds ++ rest))) (n, rest) := by
  obtain ⟨hdigits, hshort, rfl⟩ := hds
  have hrun : Run (some 2) ds rest := by
    refine ⟨hdigits, ?_, hends.imp_left fun hlength => congrArg some hlength.symm⟩
    rintro _ ⟨⟩
    exact hshort
  unfold readField
  rw [Text.dropWhile_append hb (head?_digits hdigits fun _ => isBlank_of_isDigit)]
  refine ((readNumber_run hrun).bind ReadsIf.ite).congr ?_
  omega

/-- What was read as a part is spelled, with the white space before it, and ends where no digit follows
unless it has two digits. -/
theorem part_of_readField {least greatest : Nat} (h : readField least greatest s = .ok (n, rest)) :
    ∃ b ds, s = b ++ (ds ++ rest) ∧ Blanks b ∧ PartText ds n ∧
      (ds.length = 2 ∨ ∀ c ∈ rest.head?, c.isDigit = false) := by
  obtain ⟨⟨m, after⟩, hread, hbounds⟩ := bind_eq_ok.mp h
  dsimp only at hbounds
  split at hbounds
  · cases hbounds
    obtain ⟨ds, hds, hrun, hn⟩ := run_of_readNumber (by rintro _ ⟨⟩; omega) hread
    refine ⟨s.takeWhile isBlank, ds, ?_, fun c hc => List.mem_takeWhile_imp hc,
      ⟨hrun.digits, hrun.short 2 rfl, hn⟩, hrun.ends.imp_left fun hlength => ?_⟩
    · rw [← hds, List.takeWhile_append_dropWhile]
    · exact (Option.some.inj hlength).symm
  · cases hbounds

/-- A year without a sign takes up to four digits. -/
theorem readSigned_digits {d : Char} (h : d.isDigit = true) :
    readSigned (d :: s) = (readNumber (some 4) (d :: s)).map fun r => ((r.1 : Int), r.2) := by
  rw [readSigned]
  · rintro _ ⟨⟩
    cases h
  · rintro _ ⟨⟩
    cases h

/-- The spellings of a year are read unless it is too large for 64 bits, the sign apart. -/
theorem readSigned_year {year : Int} (hds : YearText ds year)
    (hrest : ∀ c ∈ rest.head?, c.isDigit = false) :
    ReadsIf (year.natAbs ≤ Width.bits64.greatest) (readSigned (ds ++ rest)) (year, rest) := by
  cases hds with
  | unsigned h hshort =>
    have hrun : Run (some 4) ds rest := ⟨h, by rintro _ ⟨⟩; exact hshort, .inr hrest⟩
    -- the first digit has to be seen to exclude the two signs
    have hread := (readNumber_run hrun).map fun r => ((r.1 : Int), r.2)
    obtain ⟨d, ds, rfl⟩ := List.exists_cons_of_ne_nil h.1
    rw [List.cons_append, readSigned_digits (h.2 d List.mem_cons_self)]
    exact hread
  | plus h =>
    have hrun : Run none _ rest := ⟨h, nofun, .inr hrest⟩
    exact (readNumber_run hrun).map fun r => ((r.1 : Int), r.2)
  | minus h =>
    have hrun : Run none _ rest := ⟨h, nofun, .inr hrest⟩
    rw [Int.natAbs_neg, Int.natAbs_natCast]
    exact (readNumber_run hrun).map fun r => (-(r.1 : Int), r.2)

/-- What was read as a year is a spelling of it. -/
theorem year_of_readSigned {year : Int} (h : readSigned s = .ok (year, rest)) :
    ∃ ds, s = ds ++ rest ∧ YearText ds year := by
  unfold readSigned at h
  split at h
  all_goals
    obtain ⟨⟨n, after⟩, hread, hresult⟩ := map_eq_ok.mp h
    cases hresult
  · obtain ⟨ds, rfl, hrun, rfl⟩ := run_of_readNumber (by nofun) hread
    exact ⟨'-' :: ds, rfl, .minus hrun.digits⟩
  · obtain ⟨ds, rfl, hrun, rfl⟩ := run_of_readNumber (by nofun) hread
    exact ⟨'+' :: ds, rfl, .plus hrun.digits⟩
  · obtain ⟨ds, rfl, hrun, rfl⟩ := run_of_readNumber (by rintro _ ⟨⟩; omega) hread
    exact ⟨ds, rfl, .unsigned hrun.digits (hrun.short 4 rfl)⟩

/-- No year starts with white space. -/
theorem YearText.head?_not_blank {year : Int} (hds : YearText ds year) :
    ∀ c ∈ (ds ++ s).head?, isBlank c = false := by
  cases hds with
  | unsigned h => exact head?_digits h fun _ => isBlank_of_isDigit
  | plus | minus =>
    rintro _ ⟨⟩
    rfl

/-- A year is read with the white space before it. It has to fit into 32 bits, which leaves nothing of the
bound on its digits. -/
theorem readYear_year {year : Int} (hb : Blanks b) (hds : YearText ds year)
    (hrest : ∀ c ∈ rest.head?, c.isDigit = false) :
    ReadsIf (Width.bits32.Holds year) (readYear (b ++ (ds ++ rest))) (year, rest) := by
  unfold readYear
  rw [Text.dropWhile_append hb hds.head?_not_blank]
  refine ((readSigned_year hds hrest).bind ReadsIf.ite).congr ?_
  show (year.natAbs : Int) ≤ 9223372036854775807 ∧ -2147483648 ≤ year ∧ year ≤ 2147483647 ↔
    -2147483648 ≤ year ∧ year ≤ 2147483647
  omega

/-- What was read as a year with the white space before it is spelled so. -/
theorem year_of_readYear {year : Int} (h : readYear s = .ok (year, rest)) :
    ∃ b ds, s = b ++ (ds ++ rest) ∧ Blanks b ∧ YearText ds year := by
  obtain ⟨⟨m, after⟩, hread, hbounds⟩ := bind_eq_ok.mp h
  dsimp only at hbounds
  split at hbounds
  · cases hbounds
    obtain ⟨ds, hds, hyear⟩ := year_of_readSigned hread
    refine ⟨s.takeWhile isBlank, ds, ?_, fun c hc => List.mem_takeWhile_imp hc, hyear⟩
    rw [← hds, List.takeWhile_append_dropWhile]
  · cases hbounds

/-! ## Timestamps -/

/-- A mark is read where it stands. -/
theorem readMark_eq_ok {m : Char} {u : Unit} : readMark m s = .ok (u, rest) ↔ s = m :: rest := by
  cases s with
  | nil => exact ⟨nofun, nofun⟩
  | cons c s =>
    unfold readMark
    by_cases hc : c = m <;> simp [hc]

theorem readMark_cons {m : Char} : readMark m (m :: s) = .ok ((), s) := readMark_eq_ok.mpr rfl

/-- What is asked of each part by itself. -/
def Bounded (t : Timestamp) : Prop :=
  Width.bits32.Holds t.year ∧ (1 ≤ t.month ∧ t.month ≤ 12) ∧ (1 ≤ t.day ∧ t.day ≤ 31) ∧
    (0 ≤ t.hour ∧ t.hour ≤ 23) ∧ (0 ≤ t.minute ∧ t.minute ≤ 59) ∧ (0 ≤ t.second ∧ t.second ≤ 60)

/-- Parts are read from each text that spells them, if each is within its bounds. -/
theorem readParts_of_spelled {t : Timestamp} (h : Spelled t s) :
    ReadsIf t.Bounded (readParts s) t := by
  obtain @⟨b₁, b₂, b₃, b₄, b₅, b₆, year, month, day, hour, minute, second, hblanks, hyear, hmonth, hday,
    hhour, hminute, hsecond, hjoint⟩ := h
  simp only [List.forall_mem_cons, List.not_mem_nil, false_implies, implies_true, and_true] at hblanks
  obtain ⟨hb₁, hb₂, hb₃, hb₄, hb₅, hb₆⟩ := hblanks
  have hhyphen (s : List Char) : ∀ c ∈ ('-' :: s).head?, c.isDigit = false := by rintro _ ⟨⟩; rfl
  have hcolon (s : List Char) : ∀ c ∈ (':' :: s).head?, c.isDigit = false := by rintro _ ⟨⟩; rfl
  have hlast : ∀ c ∈ ([] : List Char).head?, c.isDigit = false := nofun
  -- behind a day of one digit there is white space
  have hgap (s : List Char) : day.length = 2 ∨ ∀ c ∈ (b₄ ++ s).head?, c.isDigit = false := by
    cases b₄ with
    | nil => exact .inl (hjoint rfl)
    | cons c b₄ =>
      refine .inr ?_
      rintro _ ⟨⟩
      exact Bool.eq_false_iff.mpr fun hc => Bool.false_ne_true <|
        (isBlank_of_isDigit hc).symm.trans (hb₄ c List.mem_cons_self)
  have hread : ReadsIf t.Bounded
      (readParts (b₁ ++ (year ++ '-' :: (b₂ ++ (month ++ '-' :: (b₃ ++ (day ++ (b₄ ++ (hour ++
        ':' :: (b₅ ++ (minute ++ ':' :: (b₆ ++ (second ++ []))))))))))))) t := by
    unfold readParts
    refine (readYear_year hb₁ hyear (hhyphen _)).bind ?_
    refine .after readMark_cons ?_
    refine (readField_part (by decide) hb₂ hmonth (.inr (hhyphen _))).bind ?_
    refine .after readMark_cons ?_
    refine (readField_part (by decide) hb₃ hday (hgap _)).bind ?_
    refine (readField_part (by decide) hb₄ hhour (.inr (hcolon _))).bind ?_
    refine .after readMark_cons ?_
    refine (readField_part (by decide) hb₅ hminute (.inr (hcolon _))).bind ?_
    refine .after readMark_cons ?_
    exact (readField_part (by decide) hb₆ hsecond (.inr hlast)).before rfl
  rw [List.append_nil] at hread
  simpa only [List.append_assoc, List.cons_append] using hread

/-- What is read was spelled by the text. -/
theorem spelled_of_readParts {t : Timestamp} (h : readParts s = .ok t) : Spelled t s := by
  obtain ⟨⟨year, s₁⟩, hreadYear, h⟩ := bind_eq_ok.mp h
  obtain ⟨⟨_, s₂⟩, hmark₁, h⟩ := bind_eq_ok.mp h
  obtain ⟨⟨month, s₃⟩, hreadMonth, h⟩ := bind_eq_ok.mp h
  obtain ⟨⟨_, s₄⟩, hmark₂, h⟩ := bind_eq_ok.mp h
  obtain ⟨⟨day, s₅⟩, hreadDay, h⟩ := bind_eq_ok.mp h
  obtain ⟨⟨hour, s₆⟩, hreadHour, h⟩ := bind_eq_ok.mp h
  obtain ⟨⟨_, s₇⟩, hmark₃, h⟩ := bind_eq_ok.mp h
  obtain ⟨⟨minute, s₈⟩, hreadMinute, h⟩ := bind_eq_ok.mp h
  obtain ⟨⟨_, s₉⟩, hmark₄, h⟩ := bind_eq_ok.mp h
  obtain ⟨⟨second, s₁₀⟩, hreadSecond, h⟩ := bind_eq_ok.mp h
  dsimp only at h
  split at h
  · next hend =>
    cases h
    obtain rfl := List.isEmpty_iff.mp hend
    obtain ⟨b₁, yearText, rfl, hb₁, hyear⟩ := year_of_readYear hreadYear
    obtain rfl := readMark_eq_ok.mp hmark₁
    obtain ⟨b₂, monthText, rfl, hb₂, hmonth, -⟩ := part_of_readField hreadMonth
    obtain rfl := readMark_eq_ok.mp hmark₂
    obtain ⟨b₃, dayText, rfl, hb₃, hday, hends⟩ := part_of_readField hreadDay
    obtain ⟨b₄, hourText, rfl, hb₄, hhour, -⟩ := part_of_readField hreadHour
    obtain rfl := readMark_eq_ok.mp hmark₃
    obtain ⟨b₅, minuteText, rfl, hb₅, hminute, -⟩ := part_of_readField hreadMinute
    obtain rfl := readMark_eq_ok.mp hmark₄
    obtain ⟨b₆, secondText, rfl, hb₆, hsecond, -⟩ := part_of_readField hreadSecond
    have hblanks : ∀ b ∈ [b₁, b₂, b₃, b₄, b₅, b₆], Blanks b := by
      simp only [List.forall_mem_cons, List.not_mem_nil, false_implies, implies_true, and_true]
      exact ⟨hb₁, hb₂, hb₃, hb₄, hb₅, hb₆⟩
    have hjoint : b₄ = [] → dayText.length = 2 := by
      rintro rfl
      -- the hour would go on with the digits of the day
      refine hends.resolve_right fun hnone => ?_
      obtain ⟨d, ds, rfl⟩ := List.exists_cons_of_ne_nil hhour.1.1
      have hd := hhour.1.2 d List.mem_cons_self
      rw [hnone d rfl] at hd
      cases hd
    have hspelled := Spelled.parts (t := ⟨year, month, day, hour, minute, second⟩) hblanks hyear hmonth
      hday hhour hminute hsecond hjoint
    simpa only [List.append_assoc, List.cons_append, List.append_nil] using hspelled
  · cases h

/-- **A text that spells parts is read as the parts if they exist**, and is out of range otherwise. -/
theorem read_of_spelled {t : Timestamp} {s : String} (h : Spelled t s.toList) :
    ReadsIf t.Exists (read s) t := by
  refine ((readParts_of_spelled h).bind ReadsIf.ite).congr ?_
  rw [isValid_iff]
  -- the bounds of the parts by themselves follow from the calendar
  refine and_iff_right_of_imp fun hexists => ?_
  obtain ⟨⟨hmonth, hmonth'⟩, hday, hday'⟩ := isDate_iff.mp hexists.date
  have hdays := daysInMonth_le t.year t.month
  have hyear : Width.bits32.Holds t.year := by
    obtain ⟨hfirst, hlast⟩ := hexists.reached
    unfold firstYear at hfirst
    unfold lastYear at hlast
    show -2147483648 ≤ t.year ∧ t.year ≤ 2147483647
    omega
  exact ⟨hyear, ⟨hmonth, hmonth'⟩, ⟨hday, by omega⟩, ⟨Nat.zero_le _, Nat.le_of_lt_succ hexists.hour⟩,
    ⟨Nat.zero_le _, Nat.le_of_lt_succ hexists.minute⟩, Nat.zero_le _, hexists.second⟩

/-- **A timestamp is read from exactly the texts that spell its parts, if these exist.** -/
theorem read_eq_ok {t : Timestamp} {s : String} : read s = .ok t ↔ Spelled t s.toList ∧ t.Exists := by
  constructor
  · intro h
    obtain ⟨u, hu, hvalid⟩ := bind_eq_ok.mp h
    split at hvalid
    · next hexists =>
      cases hvalid
      exact ⟨spelled_of_readParts hu, isValid_iff.mp hexists⟩
    · cases hvalid
  · rintro ⟨hspelled, hexists⟩
    exact (read_of_spelled hspelled).1 hexists

end AssetRegister.Timestamp
