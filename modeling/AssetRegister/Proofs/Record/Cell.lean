import AssetRegister.Proofs.Outcome
import AssetRegister.Proofs.Text.Integer
import AssetRegister.Record.Record

/-!
# What a cell was, if it can be read

Each part of a record is read from one cell. The lemmas here say which content a cell had if a part was
read from it, so that facts about records follow from the stored row without unfolding the readers.
-/

namespace AssetRegister

open Outcome

/-- The value that a word stands for is written as that word. -/
theorem Choice.word_of_ofWord? {α : Type} [Choice α] {s : String} {a : α} (h : ofWord? s = some a) :
    word a = s := by
  have hword := List.find?_some h
  exact beq_iff_eq.mp hword

namespace Cell

variable {c : Cell}

/-- A long part is the integer that the cell holds. -/
theorem long_eq_ok {n : Int} : c.long = .ok n ↔ c.value = .integer n := by
  unfold long
  cases c.value <;> simp

/-- An integer part is the integer that the cell holds, which is checked to have 32 bits. -/
theorem integer_eq_ok {n : Int} :
    c.integer = .ok n ↔ c.value = .integer n ∧ Width.bits32.Holds n := by
  unfold integer
  rw [bind_eq_ok]
  constructor
  · rintro ⟨m, hm, h⟩
    have hvalue := long_eq_ok.mp hm
    split at h
    · next hrange =>
      cases h
      exact ⟨hvalue, hrange⟩
    · cases h
  · rintro ⟨hvalue, hrange⟩
    -- the reader tests the two bounds, and not the predicate that names them
    have hkept : Width.bits32.least ≤ n ∧ n ≤ Width.bits32.greatest := hrange
    refine ⟨n, long_eq_ok.mpr hvalue, ?_⟩
    rw [if_pos hkept]
    rfl

/-- A flag is set unless the integer in the cell is zero: no integer is refused. -/
theorem flag_eq_ok {b : Bool} : c.flag = .ok b ↔ ∃ n, c.value = .integer n ∧ b = (n != 0) := by
  unfold flag
  rw [bind_eq_ok]
  refine exists_congr fun n => ?_
  rw [long_eq_ok]
  refine and_congr_right fun _ => ?_
  show Except.ok (n != 0) = Except.ok b ↔ b = (n != 0)
  rw [Except.ok.injEq, eq_comm]

theorem text_eq_ok {s : String} : c.text = .ok s ↔ c.value = .text s := by
  unfold text
  cases c.value <;> simp

/-- A choice is read from the text that is its word. -/
theorem value_of_choice {α : Type} [Choice α] {a : α} (h : c.choice = .ok a) :
    c.value = .text (Choice.word a) := by
  unfold choice at h
  obtain ⟨s, hs, h⟩ := bind_eq_ok.mp h
  split at h
  · next b hb =>
    cases h
    rw [Choice.word_of_ofWord? hb]
    exact text_eq_ok.mp hs
  · cases h

/-- A timestamp is read from a text in one of its spellings. -/
theorem timestamp_eq_ok {t : Timestamp} :
    c.timestamp = .ok t ↔ ∃ s, c.value = .text s ∧ Timestamp.read s = .ok t := by
  unfold timestamp
  rw [bind_eq_ok]
  refine exists_congr fun s => ?_
  rw [text_eq_ok]
  refine and_congr_right fun _ => ?_
  cases Timestamp.read s with
  | ok u =>
    show Except.ok u = Except.ok t ↔ _
    rw [Except.ok.injEq, Except.ok.injEq]
  | error fault => exact ⟨nofun, nofun⟩

/-- What is wrong with the text of a timestamp is reported with the position of its cell. -/
theorem timestamp_of_error {s : String} {fault : TimestampFault} (hs : c.value = .text s)
    (h : Timestamp.read s = .error fault) : c.timestamp = .error (.badTimestamp c.index fault) := by
  unfold timestamp
  rw [text_eq_ok.mpr hs]
  simp only [bind, Except.bind, h]
  rfl

/-- A part that may be absent is read from an empty cell, or like a part that has to be present. -/
theorem optional_eq_ok {α : Type} {read : Cell → Except ReadFault α} {o : Option α} :
    c.optional read = .ok o ↔
      c.value = .null ∧ o = none ∨ c.value ≠ .null ∧ ∃ a, read c = .ok a ∧ o = some a := by
  unfold optional
  cases c.value with
  | null => simp [eq_comm]
  | integer | real | text | garbled | blob =>
    show (read c).map some = .ok o ↔ _
    rw [map_eq_ok]
    simp [eq_comm]

end Cell

end AssetRegister
