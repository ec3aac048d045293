import AssetRegister.Proofs.Record.Cell
import AssetRegister.Proofs.Record.Spelling
import AssetRegister.Proofs.Text.Digits

/-!
# Written timestamps

A timestamp that exists is read from the text that is written for it, since that text is one of those
that spell it. A timestamp of a year with four digits is written in a form of fixed width.
-/

namespace AssetRegister

namespace Timestamp

open Outcome Text

/-! ## The stored form -/

/-- A part below a hundred is spelled by two digits. -/
theorem partText_padded {n : Nat} (hn : n < 100) : PartText (padded 2 n) n :=
  ⟨digits_padded 2 n, Nat.le_of_eq (length_padded (by omega) hn), digitsFrom_padded 2 n⟩

/-- What is written for a year spells it: four digits without a sign, or a sign and at least four. -/
theorem yearText_yearChars (year : Int) : YearText (yearChars year) year := by
  have hdigits := digits_padded 4 year.natAbs
  have hvalue := digitsFrom_padded 4 year.natAbs
  unfold yearChars
  split
  -- a year of four digits stands without a sign, any other with one
  · next hfour =>
    have hlength : (padded 4 year.natAbs).length = 4 := length_padded (by omega) (by
      show year.natAbs < 10000
      omega)
    have hyear : ((digitsFrom 0 (padded 4 year.natAbs) : Nat) : Int) = year := by omega
    have htext := YearText.unsigned hdigits (Nat.le_of_eq hlength)
    rwa [hyear] at htext
  · next hsigned =>
    split
    · next hneg =>
      have hyear : -((digitsFrom 0 (padded 4 year.natAbs) : Nat) : Int) = year := by omega
      have htext := YearText.minus hdigits
      rwa [hyear] at htext
    · next hneg =>
      have hyear : ((digitsFrom 0 (padded 4 year.natAbs) : Nat) : Int) = year := by omega
      have htext := YearText.plus hdigits
      rwa [hyear] at htext

/-- The stored form spells the timestamp. Its only white space stands between the day and the hour. -/
theorem spelled_charsWith {t : Timestamp} (h : t.Exists) : Spelled t (t.charsWith ' ') := by
  obtain ⟨⟨-, hmonth⟩, -, hday⟩ := isDate_iff.mp h.date
  have hdays := daysInMonth_le t.year t.month
  have hhour := h.hour
  have hminute := h.minute
  have hsecond := h.second
  have hblanks : ∀ b ∈ [[], [], [], [' '], [], []], Blanks b := by
    simp [Blanks, isBlank]
  have hgap : [' '] = [] → (padded 2 t.day).length = 2 := fun h => absurd h (List.cons_ne_nil ' ' [])
  have hspelled := Spelled.parts hblanks (yearText_yearChars t.year)
    (partText_padded (n := t.month) (by omega)) (partText_padded (n := t.day) (by omega))
    (partText_padded (n := t.hour) (by omega)) (partText_padded (n := t.minute) (by omega))
    (partText_padded (n := t.second) (by omega)) hgap
  simpa only [charsWith, List.append_assoc, List.cons_append, List.nil_append] using hspelled

/-- **A timestamp that exists is read from its stored form.** -/
theorem read_charsWith {t : Timestamp} (h : t.isValid = true) :
    read (String.ofList (t.charsWith ' ')) = .ok t := by
  have hexists := isValid_iff.mp h
  rw [read_eq_ok, String.toList_ofList]
  exact ⟨spelled_charsWith hexists, hexists⟩

theorem isValid_of_read {s : String} {t : Timestamp} (h : read s = .ok t) : t.isValid = true :=
  isValid_iff.mpr (read_eq_ok.mp h).2

/-- `YYYY-MM-DD` and `HH:MM:SS` with a separator between them. -/
def form (separator : Char) (year month day hour minute second : Nat) : String :=
  String.ofList (lastDigits 4 year ++ '-' :: lastDigits 2 month ++ '-' :: lastDigits 2 day
    ++ separator :: lastDigits 2 hour ++ ':' :: lastDigits 2 minute ++ ':' :: lastDigits 2 second)

/-- Dates of a year with four digits are written in the fixed form. -/
theorem ofList_charsWith_eq_form {year month day hour minute second : Nat} (hyear : year ≤ 9999)
    (hdate : IsDate year month day) (hhour : hour < 24) (hminute : minute < 60) (hsecond : second ≤ 60)
    (separator : Char) :
    String.ofList (charsWith separator ⟨year, month, day, hour, minute, second⟩) =
      form separator year month day hour minute second := by
  obtain ⟨⟨-, hmonth⟩, -, hday⟩ := isDate_iff.mp hdate
  have hdays := daysInMonth_le year month
  have hfour : yearChars year = lastDigits 4 year := by
    unfold yearChars
    rw [if_pos ⟨Int.natCast_nonneg year, by omega⟩, Int.natAbs_natCast]
    exact padded_eq_lastDigits (by omega) (Nat.lt_succ_of_le hyear)
  -- within their bounds the parts have no more digits than the form has places
  have htwo {n : Nat} (hn : n < 100) : padded 2 n = lastDigits 2 n :=
    padded_eq_lastDigits (by omega) hn
  unfold charsWith form
  rw [hfour, htwo (n := month) (by omega), htwo (n := day) (by omega), htwo (n := hour) (by omega),
    htwo (n := minute) (by omega), htwo (n := second) (by omega)]

/-! ## The form that records show -/

/-- The stored form has a blank where the shown form has a `T`. -/
def storedChar (c : Char) : Char := if c = 'T' then ' ' else c

/-- The timestamp that a record shows as a text. -/
def ofShown? (s : String) : Option Timestamp := (read (s.map storedChar)).toOption

/-- Digits are stored as they are shown. -/
theorem map_storedChar_padded (width n : Nat) : (padded width n).map storedChar = padded width n := by
  have hkept : ∀ c ∈ padded width n, storedChar c = id c := by
    intro c hc
    have hdigit := (digits_padded width n).2 c hc
    refine if_neg ?_
    rintro rfl
    cases hdigit
  rw [List.map_congr_left hkept, List.map_id]

/-- So are signs. -/
theorem map_storedChar_yearChars (year : Int) : (yearChars year).map storedChar = yearChars year := by
  unfold yearChars
  split
  · exact map_storedChar_padded 4 year.natAbs
  · rw [List.map_cons, map_storedChar_padded]
    split <;> rfl

/-- The stored form of what is shown is the written one. -/
theorem map_storedChar_text (t : Timestamp) :
    t.text.map storedChar = String.ofList (t.charsWith ' ') := by
  have hblank : storedChar 'T' = ' ' := rfl
  have hhyphen : storedChar '-' = '-' := rfl
  have hcolon : storedChar ':' = ':' := rfl
  apply String.toList_injective
  rw [String.toList_map, text, String.toList_ofList, String.toList_ofList]
  simp only [charsWith, List.map_append, List.map_cons, map_storedChar_yearChars,
    map_storedChar_padded, hblank, hhyphen, hcolon]

/-- A timestamp that exists is read from the form that records show. -/
theorem ofShown?_text {t : Timestamp} (h : t.isValid = true) : ofShown? t.text = some t := by
  unfold ofShown?
  rw [map_storedChar_text, read_charsWith h]
  rfl

end Timestamp

namespace Document

theorem escaped_of_isDigit {c : Char} (h : c.isDigit = true) : escaped c = [c] := by
  have hrange : 48 ≤ c.toNat ∧ c.toNat ≤ 57 := by
    simpa [Char.isDigit, UInt32.le_iff_toNat_le] using h
  have hquote : c ≠ '"' := by
    rintro rfl
    cases h
  have hslash : c ≠ '\\' := by
    rintro rfl
    cases h
  unfold escaped
  rw [if_neg hquote, if_neg hslash]
  split_ifs <;> first | omega | rfl

/-- Digits need no escape. -/
theorem flatMap_escaped {ds : List Char} (h : ∀ c ∈ ds, c.isDigit = true) : ds.flatMap escaped = ds := by
  rw [List.flatMap_congr fun c hc => escaped_of_isDigit (h c hc), List.flatMap_singleton']

/-- No character of the fixed form is escaped. -/
theorem chars_text_form (depth year month day hour minute second : Nat) :
    chars depth (text (Timestamp.form 'T' year month day hour minute second)) =
      '"' :: (Timestamp.form 'T' year month day hour minute second).toList ++ ['"'] := by
  have hdigits (width n : Nat) : (Text.lastDigits width n).flatMap escaped = Text.lastDigits width n :=
    flatMap_escaped (Text.isDigit_lastDigits width n)
  have hhyphen : escaped '-' = ['-'] := rfl
  have hcolon : escaped ':' = [':'] := rfl
  have hT : escaped 'T' = ['T'] := rfl
  show '"' :: (Timestamp.form 'T' year month day hour minute second).toList.flatMap escaped ++ _ = _
  unfold Timestamp.form
  rw [String.toList_ofList]
  simp only [List.flatMap_append, List.flatMap_cons, hdigits, hhyphen, hcolon, hT, List.append_assoc,
    List.cons_append, List.nil_append]

end Document

/-! ## Cells -/

/-- **Timestamps survive the round trip, and only real dates are read.** The fixed form of each date and
time of a year with four digits is read as these, and is written with a `T`. Whatever text is read spells
parts that exist, and what is written for them is read back. -/
theorem Cell.timestamp_round_trip {c : Cell} {s : String} (hs : c.value = .text s) :
    (∀ year month day hour minute second : Nat, year ≤ 9999 → Timestamp.IsDate year month day →
      hour < 24 → minute < 60 → second ≤ 60 → s = Timestamp.form ' ' year month day hour minute second →
        c.timestamp = .ok ⟨year, month, day, hour, minute, second⟩ ∧
          ∀ depth, Document.chars depth (.timestamp ⟨year, month, day, hour, minute, second⟩) =
            '"' :: (Timestamp.form 'T' year month day hour minute second).toList ++ ['"']) ∧
      (∀ t, c.timestamp = .ok t ↔ t.Spelled s.toList ∧ t.Exists) ∧
      (∀ t, c.timestamp = .ok t → ∃ shown, Document.timestamp t = .text shown ∧
        ∀ stored : Cell, stored.value = .text (shown.map Timestamp.storedChar) →
          stored.timestamp = .ok t) ∧
      (∀ t : Timestamp, t.Spelled s.toList →
        t.month = 2 ∧ t.day = 29 ∧ ¬Timestamp.HasLeapDay t.year ∨ t.month ∈ [4, 6, 9, 11] ∧ t.day = 31 ∨
          t.hour = 24 ∨ t.minute = 60 ∨ t.second = 61 →
        c.timestamp = .error (.badTimestamp c.index .outOfRange)) := by
  have hread : ∀ t, c.timestamp = .ok t ↔ Timestamp.read s = .ok t := by
    intro t
    rw [timestamp_eq_ok, hs]
    simp
  refine ⟨?_, ?_, ?_, ?_⟩
  · rintro year month day hour minute second hyear hdate hhour hminute hsecond rfl
    have hexists : Timestamp.Exists ⟨year, month, day, hour, minute, second⟩ := by
      refine ⟨?_, hdate, hhour, hminute, hsecond⟩
      show (-262143 : Int) ≤ year ∧ (year : Int) ≤ 262142
      omega
    have hform := Timestamp.ofList_charsWith_eq_form hyear hdate hhour hminute hsecond
    constructor
    -- reading the fixed form, and then showing what was read
    · rw [hread, ← hform]
      exact Timestamp.read_charsWith (Timestamp.isValid_iff.mpr hexists)
    · intro depth
      rw [← Document.chars_text_form depth, ← hform]
      rfl
  · intro t
    rw [hread, Timestamp.read_eq_ok]
  · intro t ht
    refine ⟨t.text, rfl, fun stored hstored => ?_⟩
    have hvalid := Timestamp.isValid_of_read ((hread t).mp ht)
    rw [timestamp_eq_ok, hstored, Timestamp.map_storedChar_text]
    exact ⟨_, rfl, Timestamp.read_charsWith hvalid⟩
  · intro t hspelled hnone
    have hnot : ¬t.Exists := by
      rintro ⟨-, hdate, hhour, hminute, hsecond⟩
      rcases hnone with hday | hmonth | htime
      · exact Timestamp.not_isDate (.inl hday) hdate
      · exact Timestamp.not_isDate (.inr hmonth) hdate
      · omega
    exact timestamp_of_error hs ((Timestamp.read_of_spelled hspelled).2 hnot)

/-- White space before some numbers, fewer digits, and a leap second; and a century without a leap day. -/
theorem Cell.timestamp_oddTexts :
    (Cell.mk 3 "created_at" (.text " 2024-2- 29\t7:5:60")).timestamp = .ok ⟨2024, 2, 29, 7, 5, 60⟩ ∧
      (Cell.mk 3 "created_at" (.text "1900-02-29 00:00:00")).timestamp =
        .error (.badTimestamp 3 .outOfRange) := by
  constructor
  · have hyear : Timestamp.YearText ['2', '0', '2', '4'] 2024 := .unsigned (by decide) (by decide)
    have hspelled : Timestamp.Spelled ⟨2024, 2, 29, 7, 5, 60⟩ " 2024-2- 29\t7:5:60".toList :=
      @Timestamp.Spelled.parts ⟨2024, 2, 29, 7, 5, 60⟩ [' '] [] [' '] ['\t'] [] [] _ ['2'] ['2', '9'] ['7']
        ['5'] ['6', '0'] (by decide) hyear (by decide) (by decide) (by decide) (by decide) (by decide) nofun
    exact ((timestamp_round_trip rfl).2.1 _).mpr ⟨hspelled, by decide⟩
  · have hyear : Timestamp.YearText ['1', '9', '0', '0'] 1900 := .unsigned (by decide) (by decide)
    have hspelled : Timestamp.Spelled ⟨1900, 2, 29, 0, 0, 0⟩ "1900-02-29 00:00:00".toList :=
      @Timestamp.Spelled.parts ⟨1900, 2, 29, 0, 0, 0⟩ [] [] [] [' '] [] [] _ ['0', '2'] ['2', '9']
        ['0', '0'] ['0', '0'] ['0', '0'] (by decide) hyear (by decide) (by decide) (by decide) (by decide)
        (by decide) nofun
    exact (timestamp_round_trip rfl).2.2.2 _ hspelled (.inl (by decide))

end AssetRegister
