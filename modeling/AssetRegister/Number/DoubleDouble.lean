import AssetRegister.Number.Arithmetic

/-!
# Sums of two doubles

A number kept as the sum of a double and a much smaller one has about twice the digits of a double.
`DoubleDouble.ofRatio` gives the closest such sum to a quotient; `mul?` is a product in which every
operation on doubles rounds, and `scale?` multiplies by a power of ten in steps of `10 ^ 100`,
`10 ^ 10` and `10`. The steps and their order decide the last digits.
-/

namespace AssetRegister

/-- The sum of two doubles, the second of which makes up for the rounding of the first. -/
structure DoubleDouble where
  high : Binary64
  low : Binary64
  deriving DecidableEq, Repr

namespace DoubleDouble

/-- The double nearest to `num / den - x`. -/
def remainder (num den : Nat) : Binary64 → Binary64
  | .finite s m e =>
    let (a, b) := Binary64.scaleDown 2 m 1 (-e)
    let rest : Int := (num * b : Nat) - Binary64.signedMantissa s (a * den)
    Binary64.ofRatio (rest < 0) rest.natAbs (b * den)
  | .infinite s => .infinite (!s)

/-- The double nearest to `num / den`, and the double nearest to what it leaves out. -/
def ofRatio (num den : Nat) : DoubleDouble :=
  let high := Binary64.ofRatio false num den
  ⟨high, remainder num den high⟩

def tenTo (k : Int) : DoubleDouble :=
  let (num, den) := Binary64.scaleDown 10 1 1 (-k)
  ofRatio num den

/-- The product. The high parts are split in halves, so that their product and its rounding error
are found; the low parts' share is added to the error. -/
def mul? (x y : DoubleDouble) : Option DoubleDouble := do
  let xUpper := x.high.upperHalf
  let xLower ← x.high.sub? xUpper
  let yUpper := y.high.upperHalf
  let yLower ← y.high.sub? yUpper
  let p ← xUpper.mul? yUpper
  let q ← (← xUpper.mul? yLower).add? (← xLower.mul? yUpper)
  -- what rounding takes from the product is found by taking the parts off again
  let product ← p.add? q
  let error ← (← (← p.sub? product).add? q).add? (← xLower.mul? yLower)
  -- the product of the low parts is too small to count
  let error ← (← (← x.high.mul? y.low).add? (← x.low.mul? y.high)).add? error
  let high ← product.add? error
  return ⟨high, ← (← product.sub? high).add? error⟩

def toBinary64? (x : DoubleDouble) : Option Binary64 := x.high.add? x.low

/-! ## Scaling by powers of ten -/

/-- A step of scaling, by `10 ^ size` up or down. -/
structure Step where
  size : Nat
  up : DoubleDouble
  down : DoubleDouble

def Step.ofSize (size : Nat) : Step := ⟨size, tenTo size, tenTo (-size)⟩

def steps : List Step := [.ofSize 100, .ofSize 10, .ofSize 1]

/-- `x` times the power `n` of `y`, one multiplication after the other. -/
def mulPower? (x y : DoubleDouble) (n : Nat) : Option DoubleDouble :=
  (List.replicate n y).foldlM mul? x

/-- `x · 10 ^ ± n`, in as large steps as possible. -/
def scaleBy? (up : Bool) : List Step → DoubleDouble → Nat → Option DoubleDouble
  | [], x, _ => some x
  | step :: steps, x, n => do
    let x ← x.mulPower? (if up then step.up else step.down) (n / step.size)
    scaleBy? up steps x (n % step.size)

/-- `x · 10 ^ e`. What the steps lose on the way in an overflow is no number. -/
def scale? (x : DoubleDouble) (e : Int) : Option DoubleDouble :=
  scaleBy? (0 < e) steps x e.natAbs

end DoubleDouble

end AssetRegister
