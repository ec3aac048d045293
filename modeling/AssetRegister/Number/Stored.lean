import AssetRegister.Number.Decimal
import AssetRegister.Number.DoubleDouble

/-!
# Reals in the text of a store

A store turns text into reals and reals into text by scaling sums of two doubles, which is fast and
nearly always right. `Decimal.toStored` is the double that a text is stored as, `Binary64.columnText`
the text that a real is stored as. Both can be off in the last digit, where `Decimal.toBinary64` and
exact digits are not.
-/

namespace AssetRegister

namespace Decimal

/-! ## From text to a real -/

/-- A further digit counts while the digits before it make less than this. -/
def digitBound : Nat := 922337203685477579

/-- A coefficient below this can take in a factor of ten from the exponent. -/
def factorBound : Nat := 1844674407370954956

/-- Takes a digit in, or counts it as dropped. -/
def takeDigit (kept : Nat × Nat) (d : Char) : Nat × Nat :=
  if kept.1 < digitBound then (Text.digitsFrom kept.1 [d], kept.2) else (kept.1, kept.2 + 1)

/-- The digits of a coefficient that count, and how many are dropped after them. -/
def significant (coefficient : Nat) : Nat × Nat :=
  (Text.natText coefficient).foldl takeDigit (0, 0)

/-- The greatest written exponent that is taken as it is. -/
def greatestPower : Nat := 99999

/-- What a greater exponent counts as. -/
def endlessPower : Nat := 10000

/-- A written exponent as it counts. -/
def countedPower (power : Int) : Int :=
  if power.natAbs ≤ greatestPower then power
  else if power < 0 then -(endlessPower : Int) else endlessPower

/-- Moves factors of ten from a positive exponent into the coefficient. -/
def absorbTens (s : Nat) : Nat → Nat × Nat
  | 0 => (s, 0)
  | e + 1 => if s < factorBound then absorbTens (10 * s) e else (s, e + 1)

/-- Moves factors of ten from the coefficient into a negative exponent. -/
def cancelTens (s : Nat) : Nat → Nat × Nat
  | 0 => (s, 0)
  | e + 1 => if s % 10 = 0 then cancelTens (s / 10) e else (s, e + 1)

/-- The coefficient and the exponent that are scaled. -/
def balanced (s : Nat) (e : Int) : Nat × Int :=
  if 0 < e then
    let (s, e) := absorbTens s e.toNat
    (s, e)
  else
    let (s, e) := cancelTens s (-e).toNat
    (s, -(e : Int))

/-- The magnitude of a literal in a store. An overflow makes it infinite. -/
def storedMagnitude (x : Decimal) : Binary64 :=
  let (s, dropped) := significant x.coefficient
  if s = 0 then .finite false 0 Binary64.leastExponent
  else
    let (s, e) := balanced s (countedPower x.power - x.places + dropped)
    -- an overflow in the sum of two doubles leaves no number
    let scaled := do (← (DoubleDouble.ofRatio s 1).scale? e).toBinary64?
    scaled.getD (.infinite false)

/-- The double that a literal is stored as. -/
def toStored (x : Decimal) : Binary64 :=
  if x.negative then x.storedMagnitude.negate else x.storedMagnitude

end Decimal

/-! ## From a real to text -/

namespace DoubleDouble

/-- The greatest double below `2 ^ 63` is this integer. -/
def wordLimit : Nat := 9223372036854774784

/-- The double nearest to `wordLimit · 10 ^ k`. -/
def limitTimesTenTo (k : Int) : Binary64 :=
  let (num, den) := Binary64.scaleDown 10 wordLimit 1 (-k)
  Binary64.ofRatio false num den

/-- A step towards the numbers of eighteen and nineteen digits. It goes down from above `ceiling`
and up from below `floor`. -/
structure GuardedStep where
  step : Step
  ceiling : Binary64
  floor : Binary64

/-- The step of a size, taken only if the number is far enough away by `margin` powers of ten. -/
def GuardedStep.ofSize (size margin : Nat) : GuardedStep :=
  ⟨.ofSize size, limitTimesTenTo margin, limitTimesTenTo (-(margin : Int) - 1)⟩

def guardedSteps : List GuardedStep := [.ofSize 100 100, .ofSize 10 10, .ofSize 1 0]

/-- More steps of a size than any double needs. -/
def stepBound : Nat := 20

/-- Multiplies by `factor` as long as the high part is beyond a bound, and counts. -/
def mulWhile (beyond : Binary64 → Bool) (factor : DoubleDouble) :
    Nat → DoubleDouble → Nat × DoubleDouble
  | 0, x => (0, x)
  | fuel + 1, x =>
    if beyond x.high then
      match x.mul? factor with
      | some y =>
        let (n, z) := mulWhile beyond factor fuel y
        (n + 1, z)
      | none => (0, x)
    else (0, x)

/-- Takes a guarded step as often as needed: the power of ten that it takes out, and what is left. -/
def GuardedStep.reduce (g : GuardedStep) (down : Bool) (e : Int) (x : DoubleDouble) :
    Int × DoubleDouble :=
  if down then
    let (n, x) := mulWhile (fun y => y.order g.ceiling == .gt) g.step.down stepBound x
    (e + (g.step.size * n : Nat), x)
  else
    let (n, x) := mulWhile (fun y => y.order g.floor == .lt) g.step.up stepBound x
    (e - (g.step.size * n : Nat), x)

/-- A positive double as an integer of eighteen or nineteen digits and a power of ten. -/
def digits (x : Binary64) : Nat × Int :=
  let down := x.order (limitTimesTenTo 0) == .gt
  let (e, y) := guardedSteps.foldl (fun (e, y) g => g.reduce down e y)
    (0, ⟨x, .finite false 0 Binary64.leastExponent⟩)
  let low := y.low.floorAbs
  let isBelow := y.low.order (.finite false 0 Binary64.leastExponent) == .lt
  (if isBelow then y.high.floorAbs - low else y.high.floorAbs + low, e)

end DoubleDouble

namespace Binary64

/-- The number of digits a text column keeps of a real. -/
def columnDigits : Nat := 15

/-- `c · 10 ^ p` cut to the digits of a column. The first digit left out rounds up from five on. -/
def cutDigits (c : Nat) (p : Int) : Nat × Int :=
  let extra := (Text.natText c).length - columnDigits
  let kept := c / Nat.pow 10 extra
  let next := c / Nat.pow 10 (extra - 1) % 10
  let kept := if 0 < extra ∧ 5 ≤ next then kept + 1 else kept
  -- rounding up may bring a digit more
  if kept = Nat.pow 10 columnDigits then (Nat.pow 10 (columnDigits - 1), p + extra + 1)
  else (kept, p + extra)

/-- The digits after the point, at least one. -/
def fractionOrZero (ds : List Char) : List Char := if ds.isEmpty then ['0'] else ds

/-- The text in which a text column keeps a real: fifteen digits without trailing zeros, a point
with at least one digit after it, and an exponent outside `10 ^ -4` to `10 ^ 15`. -/
def columnText : Binary64 → String
  | infinite s => if s then "-Inf" else "Inf"
  | finite s m e =>
    if m = 0 then "0.0"
    else
      let (c, p) := DoubleDouble.digits (finite false m e)
      let (c, p) := cutDigits c p
      let top := p + (columnDigits - 1 : Nat)
      let (ds, p) := withoutTrailingZeros (Text.natText c) p
      let body :=
        if top < -4 ∨ (columnDigits : Int) ≤ top then
          ds.take 1 ++ '.' :: fractionOrZero (ds.drop 1) ++ exponentChars top
        else if 0 ≤ p then positional ds p ++ ['.', '0']
        else positional ds p
      String.ofList (signChars s ++ body)

end Binary64

end AssetRegister
