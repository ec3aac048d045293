import AssetRegister.Listing.Page
import AssetRegister.Listing.Params
import Mathlib.Algebra.Order.Floor.Ring
import Mathlib.Data.Rat.Floor
import Mathlib.Tactic.Linarith

/-!
# The page of an offset

The index of a page is computed with one truncating division. For a positive limit and an offset that
is not negative it is the quotient of the two rounded up (`Page.index_of`), so the page starts at the
least multiple of the limit that is not below the offset (`Page.isLeast_offset_of`).
-/

namespace AssetRegister

/-- The members of a list on the page that is asked for: whole pages are skipped, as many as the offset
divided by the limit and rounded up. -/
def Params.page {α : Type} (params : Params) (rows : List α) : List α :=
  (rows.drop (⌈(params.offset : ℚ) / params.limit⌉ * params.limit).toNat).take params.limit.toNat

theorem Params.page_sublist {α : Type} (params : Params) (rows : List α) :
    (params.page rows).Sublist rows :=
  (List.take_sublist _ _).trans (List.drop_sublist _ _)

namespace Page

variable {limit offset : Int}

/-- A page starts at its offset or less than one page after it. -/
theorem offset_of_bounds (hlimit : 0 < limit) (hoffset : 0 ≤ offset) :
    offset ≤ (Page.of limit offset).offset ∧
      (Page.of limit offset).offset < offset + limit := by
  show offset ≤ (offset + limit - 1).tdiv limit * limit ∧
    (offset + limit - 1).tdiv limit * limit < offset + limit
  rw [Int.tdiv_eq_ediv_of_nonneg (by omega)]
  have hsum := Int.ediv_mul_add_emod (offset + limit - 1) limit
  have hrest := Int.emod_nonneg (offset + limit - 1) (Int.ne_of_gt hlimit)
  have hlt := Int.emod_lt_of_pos (offset + limit - 1) hlimit
  omega

/-- The index of a page is the offset divided by the limit, rounded up. -/
theorem index_of (hlimit : 0 < limit) (hoffset : 0 ≤ offset) :
    (Page.of limit offset).index = ⌈(offset : ℚ) / limit⌉ := by
  obtain ⟨hle, hlt⟩ := offset_of_bounds hlimit hoffset
  set index := (Page.of limit offset).index with hindex
  have hpos : (0 : ℚ) < limit := by exact_mod_cast hlimit
  have hle' : (offset : ℚ) ≤ index * limit := by exact_mod_cast hle
  have hlt' : (index : ℚ) * limit < offset + limit := by exact_mod_cast hlt
  symm
  rw [Int.ceil_eq_iff]
  constructor
  · rw [lt_div_iff₀ hpos]
    linarith
  · rw [div_le_iff₀ hpos]
    exact hle'

/-- A page starts at a multiple of the limit. -/
theorem dvd_offset_of (limit offset : Int) : limit ∣ (Page.of limit offset).offset :=
  ⟨(Page.of limit offset).index, Int.mul_comm _ _⟩

/-- A page starts at an offset that is a multiple of the limit. -/
theorem offset_of_dvd (hlimit : 0 < limit) (hoffset : 0 ≤ offset) (hdvd : limit ∣ offset) :
    (Page.of limit offset).offset = offset := by
  obtain ⟨hle, hlt⟩ := offset_of_bounds hlimit hoffset
  -- the difference is a multiple of the limit and smaller than the limit
  have hrest : (Page.of limit offset).offset - offset = 0 :=
    Int.eq_zero_of_dvd_of_nonneg_of_lt (by omega) (by omega)
      (Int.dvd_sub (dvd_offset_of limit offset) hdvd)
  omega

/-- It starts at the offset exactly if that is a multiple. -/
theorem offset_of_eq_iff (hlimit : 0 < limit) (hoffset : 0 ≤ offset) :
    (Page.of limit offset).offset = offset ↔ limit ∣ offset := by
  refine ⟨fun h => ?_, offset_of_dvd hlimit hoffset⟩
  rw [← h]
  exact dvd_offset_of limit offset

/-- A later offset stands for no earlier page. -/
theorem index_mono {later : Int} (hlimit : 0 < limit) (h : offset ≤ later) :
    (Page.of limit offset).index ≤ (Page.of limit later).index := by
  show (offset + limit - 1).tdiv limit ≤ (later + limit - 1).tdiv limit
  exact Int.tdiv_le_tdiv hlimit (by omega)

/-- A page starts at the least multiple of the limit that is not below its offset. -/
theorem isLeast_offset_of (hlimit : 0 < limit) (hoffset : 0 ≤ offset) :
    IsLeast {start | limit ∣ start ∧ offset ≤ start} (Page.of limit offset).offset := by
  refine ⟨⟨dvd_offset_of limit offset, (offset_of_bounds hlimit hoffset).1⟩, ?_⟩
  rintro start ⟨hdvd, hle⟩
  -- a page starts at any other such multiple too, and it is no earlier one
  calc (Page.of limit offset).offset
      ≤ (Page.of limit start).offset :=
        Int.mul_le_mul_of_nonneg_right (index_mono hlimit hle) (Int.le_of_lt hlimit)
    _ = start := offset_of_dvd hlimit (by omega) hdvd

/-- The members on a page are those that the rounded quotient says. -/
theorem window_of {α : Type} {params : Params} (hlimit : 0 < params.limit)
    (hoffset : 0 ≤ params.offset) (rows : List α) :
    (Page.of params.limit params.offset).window rows = params.page rows := by
  unfold window Page.offset
  rw [index_of hlimit hoffset]
  rfl

end Page

end AssetRegister
