import AssetRegister.Proofs.Listing.Page
import AssetRegister.Proofs.Text.Integer

/-!
# Pages in machine words

A page is calculated from a limit and an offset of 32 bits in words of 64 bits. `Page.ofWords?` is that
calculation in words of any width, which comes to nothing at the first step that a word cannot hold. In
words of 64 bits no step overflows, whatever the signs: neither the index nor the start of the page is further
from zero than the dividend, since the quotient is cut towards zero and the product undoes the division.

* `Page.ofWords?_eq_some_iff`: what is calculated in words is the page itself, with every step held.
* `Page.natAbs_index_le`, `Page.natAbs_offset_le`: the bounds by the dividend.

Main statement: `Page.ofWords_exact`.
-/

namespace AssetRegister

theorem Width.bits64_holds {n : Int} (h : n.natAbs ≤ 9223372036854775807) : Width.bits64.Holds n := by
  simp only [Width.Holds, Width.least, Width.greatest]
  omega

/-- An integer as a word of the width, unless it overflows. -/
def Width.word? (w : Width) (n : Int) : Option Int := Option.guard (fun n => decide (w.Holds n)) n

/-- A word holds an integer as it is, or does not hold it. -/
theorem Width.word?_eq_some_iff {w : Width} {m n : Int} : w.word? n = some m ↔ w.Holds n ∧ n = m := by
  rw [word?, Option.guard_eq_some_iff, decide_eq_true_iff]
  exact ⟨fun ⟨h, hn⟩ => ⟨hn, h⟩, fun ⟨hn, h⟩ => ⟨h, hn⟩⟩

namespace Page

/-- The page that a limit and an offset stand for, calculated in words of the width. There is none if a step
overflows or divides by zero. -/
def ofWords? (w : Width) (limit offset : Int) : Option Page := do
  let sum ← w.word? (offset + limit)
  let dividend ← w.word? (sum - 1)
  guard (limit ≠ 0)
  let index ← w.word? (dividend.tdiv limit)
  return ⟨index, limit⟩

/-- The number of rows before the page, calculated in words of the width. -/
def offsetWord? (w : Width) (p : Page) : Option Int := w.word? (p.index * p.size)

variable {w : Width} {limit offset : Int} {p : Page}

/-- What is calculated in words is the page itself, if every step fits and the limit is not zero. -/
theorem ofWords?_eq_some_iff :
    ofWords? w limit offset = some p ↔
      (w.Holds (offset + limit) ∧ w.Holds (offset + limit - 1) ∧ limit ≠ 0 ∧
        w.Holds (Page.of limit offset).index) ∧ Page.of limit offset = p := by
  simp only [ofWords?, Option.bind_eq_bind, Option.bind_eq_some_iff, Width.word?_eq_some_iff,
    Option.guard_eq_some', Option.pure_def, Option.some.injEq]
  constructor
  · rintro ⟨_, ⟨hsum, rfl⟩, _, ⟨hdividend, rfl⟩, _, hne, _, ⟨hindex, rfl⟩, rfl⟩
    exact ⟨⟨hsum, hdividend, hne, hindex⟩, rfl⟩
  · rintro ⟨⟨hsum, hdividend, hne, hindex⟩, rfl⟩
    exact ⟨_, ⟨hsum, rfl⟩, _, ⟨hdividend, rfl⟩, (), hne, _, ⟨hindex, rfl⟩, rfl⟩

/-- Words of 32 bits are too narrow for the sum of a limit and an offset that they hold. -/
example : ofWords? .bits32 10 2147483647 = none := by decide

/-! ## Bounds on what is calculated -/

/-- The dividend is far from the bounds of 64 bits. -/
theorem natAbs_dividend_le (hlimit : Width.bits32.Holds limit) (hoffset : Width.bits32.Holds offset) :
    (offset + limit - 1).natAbs ≤ 4294967297 := by
  simp only [Width.Holds, Width.least, Width.greatest] at hlimit hoffset
  omega

/-- A quotient that is cut towards zero is no further from it than the dividend. -/
theorem natAbs_index_le (limit offset : Int) :
    (Page.of limit offset).index.natAbs ≤ (offset + limit - 1).natAbs :=
  Int.natAbs_tdiv_le_natAbs _ _

/-- Multiplying by the limit again does not lead beyond the dividend either. -/
theorem natAbs_offset_le (limit offset : Int) :
    (Page.of limit offset).offset.natAbs ≤ (offset + limit - 1).natAbs := by
  show ((offset + limit - 1).tdiv limit * limit).natAbs ≤ _
  rw [Int.natAbs_mul, Int.natAbs_tdiv]
  exact Nat.div_mul_le_self _ _

/-- **Page arithmetic is exact and never overflows.** For every limit but zero and every offset of 32 bits,
whatever their signs, words of 64 bits hold the sum, the dividend, the quotient and its product with the limit,
so the page and its start are calculated in such words without loss. For a positive limit and an offset that
is not negative:

* the page starts at the least multiple of the limit that is not below the offset, which is less than one
  page further on, and at the offset itself if and only if that is a multiple of the limit;
* a later offset never stands for an earlier page. -/
theorem ofWords_exact (hlimit : Width.bits32.Holds limit) (hoffset : Width.bits32.Holds offset)
    (hne : limit ≠ 0) :
    (Width.bits64.Holds (offset + limit) ∧ Width.bits64.Holds (offset + limit - 1) ∧
      Width.bits64.Holds (Page.of limit offset).index ∧
      Width.bits64.Holds (Page.of limit offset).offset) ∧
    (Page.ofWords? .bits64 limit offset = some (Page.of limit offset) ∧
      (Page.of limit offset).offsetWord? .bits64 = some (Page.of limit offset).offset) ∧
    (0 < limit → 0 ≤ offset →
      IsLeast {start | limit ∣ start ∧ offset ≤ start} (Page.of limit offset).offset ∧
      (offset ≤ (Page.of limit offset).offset ∧ (Page.of limit offset).offset < offset + limit) ∧
      ((Page.of limit offset).offset = offset ↔ limit ∣ offset) ∧
      ∀ later, offset ≤ later → (Page.of limit offset).index ≤ (Page.of limit later).index) := by
  have hbound := natAbs_dividend_le hlimit hoffset
  have hsum : Width.bits64.Holds (offset + limit) := Width.bits64_holds (by omega)
  have hdividend : Width.bits64.Holds (offset + limit - 1) := Width.bits64_holds (by omega)
  have hindex : Width.bits64.Holds (Page.of limit offset).index :=
    Width.bits64_holds ((natAbs_index_le limit offset).trans (by omega))
  have hstart : Width.bits64.Holds (Page.of limit offset).offset :=
    Width.bits64_holds ((natAbs_offset_le limit offset).trans (by omega))
  -- every step is held, so the calculation in words is that of integers
  refine ⟨⟨hsum, hdividend, hindex, hstart⟩, ⟨?_, Width.word?_eq_some_iff.mpr ⟨hstart, rfl⟩⟩, ?_⟩
  · exact ofWords?_eq_some_iff.mpr ⟨⟨hsum, hdividend, hne, hindex⟩, rfl⟩
  · intro hpos hnonneg
    exact ⟨isLeast_offset_of hpos hnonneg, offset_of_bounds hpos hnonneg,
      offset_of_eq_iff hpos hnonneg, fun _ hle => index_mono hpos hle⟩

/-- The greatest offset stands for a page whose start no word of 32 bits holds. A limit of minus one turns the
sign of the dividend around, at the least offset too. -/
theorem ofWords_exact_extremes :
    (Page.ofWords? .bits64 10 2147483647 = some ⟨214748365, 10⟩ ∧
      (Page.mk 214748365 10).offsetWord? .bits64 = some 2147483650 ∧
      IsLeast {start : Int | 10 ∣ start ∧ 2147483647 ≤ start} 2147483650) ∧
    Page.ofWords? .bits64 (-1) (-2147483648) = some ⟨2147483650, -1⟩ := by
  obtain ⟨-, ⟨hpage, hstart⟩, hvalid⟩ :=
    @ofWords_exact 10 2147483647 (by decide) (by decide) (by decide)
  obtain ⟨-, ⟨hnegative, -⟩, -⟩ :=
    @ofWords_exact (-1) (-2147483648) (by decide) (by decide) (by decide)
  exact ⟨⟨hpage, hstart, (hvalid (by decide) (by decide)).1⟩, hnegative⟩

end Page

end AssetRegister
