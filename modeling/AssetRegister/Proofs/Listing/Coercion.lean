import AssetRegister.Proofs.Listing.Refusal
import AssetRegister.Proofs.Text.Digits

/-!
# Parameters as they arrive

The texts of a request become parameters in any case: a limit or an offset that does not denote a positive
integer of 32 bits gives way to the default. What comes out is valid, so no request that arrives as texts
is refused for its limit or its offset. Parameters written as texts come back unchanged; an offset of zero
does since zero is what an offset falls back to.

Main statement: `RawParams.resolve_valid_and_inverse`.
-/

namespace AssetRegister

open Outcome

namespace RawParams

/-- A text, if there is one, denotes a positive integer of 32 bits. -/
def Asks (raw : Option String) (n : Int) : Prop :=
  ∃ s ∈ raw, Text.Denotes s.toList n ∧ Width.bits32.Holds n ∧ 0 < n

/-- The texts of parameters: decimal numbers, and a word for the wish to count. -/
def ofParams (params : Params) : RawParams where
  limit := some (Text.integerText params.limit)
  offset := some (Text.integerText params.offset)
  count := some (if params.count then "true" else "false")
  filter := params.filter

/-! ## One number -/

variable {raw : Option String} {fallback n : Int}

/-- A text that asks for an integer is read as it. -/
theorem positiveOr_of_asks (h : Asks raw n) : positiveOr fallback raw = n := by
  obtain ⟨s, rfl, hs, hwidth, hpos⟩ := h
  have hread := Text.readInteger_eq_ok.mpr ⟨hs, hwidth⟩
  simp [positiveOr, hread, hpos]

/-- Any other text, or none, gives way to the default. -/
theorem positiveOr_of_not_asks (h : ¬∃ n, Asks raw n) : positiveOr fallback raw = fallback := by
  cases raw with
  | none => rfl
  | some s =>
    cases hread : Text.readInteger .bits32 s.toList with
    | error fault => simp [positiveOr, hread]
    | ok n =>
      -- the text denotes an integer, which then is not positive
      obtain ⟨hs, hwidth⟩ := Text.readInteger_eq_ok.mp hread
      have hpos : ¬0 < n := fun hpos => h ⟨n, s, rfl, hs, hwidth, hpos⟩
      simp [positiveOr, hread, hpos]

/-- What comes out was asked for or is the default. -/
theorem positiveOr_cases (fallback : Int) (raw : Option String) :
    Asks raw (positiveOr fallback raw) ∨ positiveOr fallback raw = fallback := by
  by_cases h : ∃ n, Asks raw n
  · obtain ⟨n, hn⟩ := h
    rw [positiveOr_of_asks hn]
    exact .inl hn
  · exact .inr (positiveOr_of_not_asks h)

theorem holds_positiveOr (hfallback : Width.bits32.Holds fallback) (raw : Option String) :
    Width.bits32.Holds (positiveOr fallback raw) := by
  rcases positiveOr_cases fallback raw with ⟨s, -, -, hwidth, -⟩ | h
  · exact hwidth
  · rwa [h]

/-- A bound of the default that is no greater than one is kept, whatever the text. -/
theorem le_positiveOr {least : Int} (hleast : least ≤ 1) (hfallback : least ≤ fallback)
    (raw : Option String) : least ≤ positiveOr fallback raw := by
  rcases positiveOr_cases fallback raw with ⟨s, -, -, -, hpos⟩ | h
  · omega
  · rwa [h]

/-- A positive integer is read from its text, and zero comes out as the default. -/
theorem positiveOr_integerText (hwidth : Width.bits32.Holds n) (hpos : 0 < n ∨ n = 0 ∧ fallback = 0) :
    positiveOr fallback (some (Text.integerText n)) = n := by
  rcases hpos with hpos | ⟨rfl, rfl⟩
  · refine positiveOr_of_asks ⟨_, rfl, ?_, hwidth, hpos⟩
    rw [Text.integerText, String.toList_ofList]
    exact Text.denotes_integerChars n
  · rfl

/-! ## All parameters -/

/-- The wish to count is read from its word. -/
theorem flag_word (b : Bool) : flag (some (if b then "true" else "false")) = b := by
  cases b <;> decide

/-- Valid parameters are read from the texts that are written for them. -/
theorem resolve_ofParams {params : Params} (hlimit : Width.bits32.Holds params.limit)
    (hoffset : Width.bits32.Holds params.offset) (hvalid : 0 < params.limit ∧ 0 ≤ params.offset) :
    (ofParams params).resolve = params := by
  obtain ⟨limit, offset, count, filter⟩ := params
  obtain ⟨hpos, hnonneg⟩ := hvalid
  have hzero : 0 < offset ∨ offset = 0 ∧ (0 : Int) = 0 := by
    change 0 ≤ offset at hnonneg
    omega
  simp only [resolve, ofParams, positiveOr_integerText hlimit (.inl hpos),
    positiveOr_integerText hoffset hzero, flag_word]

/-- **Whatever texts arrive, they stand for valid parameters, and written parameters for themselves.** For
all texts, each of which may be absent:

* the limit and the offset are integers of 32 bits that a listing accepts, so no listing fails for them;
* the limit is the positive integer of 32 bits that its text denotes, or else ten, the offset likewise, or
  else zero, and the filter is what it was.

All valid parameters of 32 bits, written in decimal and as a word, stand for themselves. -/
theorem resolve_valid_and_inverse :
    (∀ raw : RawParams,
      (Width.bits32.Holds raw.resolve.limit ∧ Width.bits32.Holds raw.resolve.offset ∧
        raw.resolve.validate = .ok ()) ∧
      (∀ (db : Database) e mode extra fault,
        db.list e mode raw.resolve extra ≠ .error (.param fault)) ∧
      (∀ n, Asks raw.limit n → raw.resolve.limit = n) ∧
      ((¬∃ n, Asks raw.limit n) → raw.resolve.limit = 10) ∧
      (∀ n, Asks raw.offset n → raw.resolve.offset = n) ∧
      ((¬∃ n, Asks raw.offset n) → raw.resolve.offset = 0) ∧
      raw.resolve.filter = raw.filter) ∧
    ∀ params : Params, Width.bits32.Holds params.limit → Width.bits32.Holds params.offset →
      0 < params.limit ∧ 0 ≤ params.offset → (ofParams params).resolve = params := by
  refine ⟨fun raw => ?_, fun params => resolve_ofParams⟩
  have hpos : 0 < raw.resolve.limit := le_positiveOr (by decide) (by decide) raw.limit
  have hnonneg : 0 ≤ raw.resolve.offset := le_positiveOr (by decide) (by decide) raw.offset
  refine ⟨⟨holds_positiveOr (by decide) raw.limit, holds_positiveOr (by decide) raw.offset,
    Params.validate_eq_ok.mpr ⟨hpos, hnonneg⟩⟩, ?_, fun n => positiveOr_of_asks,
    positiveOr_of_not_asks, fun n => positiveOr_of_asks, positiveOr_of_not_asks, rfl⟩
  -- a listing that fails for a parameter has an invalid one
  intro db e mode extra fault hlist
  rcases Listing.cases_of_list_eq_error hlist with hrefusal | ⟨limit, statement, ⟨⟩⟩ | ⟨reason, ⟨⟩⟩
  cases hrefusal with
  | limit hneg => omega
  | offset _ hneg => omega

/-- Zeros and a plus sign in front do not matter, a number beyond 32 bits does. The greatest limit and the
least offset come back from their texts. -/
theorem resolve_oddTexts :
    Asks (some "+0025") 25 ∧
    (RawParams.mk (some "+0025") (some "2147483648") none (some "  a = b ")).resolve.limit = 25 ∧
    (RawParams.mk (some "+0025") (some "2147483648") none (some "  a = b ")).resolve.offset = 0 ∧
    (ofParams ⟨2147483647, 0, false, none⟩).resolve = ⟨2147483647, 0, false, none⟩ := by
  have hdigits : Text.Digits "0025".toList := by decide
  have hasks : Asks (some "+0025") 25 := ⟨"+0025", rfl, .plus hdigits, by decide, by decide⟩
  have hbeyond : ¬∃ n, Asks (some "2147483648") n := by
    rintro ⟨n, s, ⟨⟩, hs, ⟨-, hn⟩, -⟩
    have hdigits : Text.Digits "2147483648".toList := by decide
    cases hs.unique (.unsigned hdigits)
    exact absurd hn (by decide)
  obtain ⟨hall, hinverse⟩ := resolve_valid_and_inverse
  obtain ⟨-, -, hlimit, -, -, hoffset, -⟩ :=
    hall ⟨some "+0025", some "2147483648", none, some "  a = b "⟩
  exact ⟨hasks, hlimit 25 hasks, hoffset hbeyond, hinverse _ (by decide) (by decide) (by decide)⟩

end RawParams

end AssetRegister
