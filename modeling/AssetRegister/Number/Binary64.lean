/-!
# Double-precision numbers, exactly

A finite double is an integer times a power of two, so it is kept as sign, mantissa and exponent and
all work on it is exact integer arithmetic. `ofRatio` rounds a quotient to the nearest double, a tie
to the even mantissa; `compare` orders two doubles by value, so both zeros are equal.
-/

namespace AssetRegister

/-- `± mantissa · 2 ^ exponent`, or an infinity. -/
inductive Binary64 where
  | finite (negative : Bool) (mantissa : Nat) (exponent : Int)
  | infinite (negative : Bool)
  deriving DecidableEq, Repr

namespace Binary64

/-- The exponent of the least positive double. -/
def leastExponent : Int := -1074

/-- The greatest exponent of a finite double. -/
def greatestExponent : Int := 971

/-- Twice the least normal mantissa. -/
def mantissaBound : Nat := 9007199254740992

/-- Numerator and denominator of `num / den / base ^ e`. -/
def scaleDown (base num den : Nat) (e : Int) : Nat × Nat :=
  if 0 ≤ e then (num, den * Nat.pow base e.toNat)
  else (num * Nat.pow base (-e).toNat, den)

/-- The quotient rounded to the nearest natural number, a tie to the even one. -/
def roundHalfEven (num den : Nat) : Nat :=
  let q := num / den
  let twice := 2 * (num % den)
  if twice < den then q
  else if den < twice then q + 1
  else if q % 2 = 0 then q else q + 1

/-- The exponent at which the quotient's mantissa has 53 bits, or the least exponent. -/
def fittingExponent (num den : Nat) : Int :=
  let e := max ((num.log2 : Int) - den.log2 - 53) leastExponent
  let (n, d) := scaleDown 2 num den e
  -- the estimate by logarithms may be one too small
  if mantissaBound ≤ n / d then e + 1 else e

/-- The double nearest to `± num / den`. -/
def ofRatio (negative : Bool) (num den : Nat) : Binary64 :=
  if num = 0 then finite negative 0 leastExponent
  else
    let e := fittingExponent num den
    let (n, d) := scaleDown 2 num den e
    let m := roundHalfEven n d
    -- rounding may bring the mantissa to the next power of two
    let (m, e) := if m = mantissaBound then (m / 2, e + 1) else (m, e)
    if greatestExponent < e then infinite negative else finite negative m e

def signedMantissa (negative : Bool) (m : Nat) : Int :=
  if negative then -(m : Int) else m

/-- The order of `a · 2 ^ ea` and `b · 2 ^ eb`. -/
def compareScaled (a ea b eb : Int) : Ordering :=
  let e := min ea eb
  compare (a * (Nat.pow 2 (ea - e).toNat : Nat)) (b * (Nat.pow 2 (eb - e).toNat : Nat))

def order : Binary64 → Binary64 → Ordering
  | finite sa a ea, finite sb b eb => compareScaled (signedMantissa sa a) ea (signedMantissa sb b) eb
  | infinite sa, infinite sb => compare (!sa).toNat (!sb).toNat
  | infinite sa, finite .. => if sa then .lt else .gt
  | finite .., infinite sb => if sb then .gt else .lt

def orderInteger : Binary64 → Int → Ordering
  | finite s m e, n => compareScaled (signedMantissa s m) e n 0
  | infinite s, _ => if s then .lt else .gt

def integer? : Binary64 → Option Int
  | finite s m e =>
    if 0 ≤ e then some (signedMantissa s m * (Nat.pow 2 e.toNat : Nat))
    else
      let d := Nat.pow 2 (-e).toNat
      if m % d = 0 then some (signedMantissa s (m / d)) else none
  | infinite _ => none

/-- The integer a double equals, if that lies strictly between `-2 ^ 63` and `2 ^ 63`. -/
def smallInteger? (x : Binary64) : Option Int :=
  x.integer?.filter fun n => -9223372036854775808 < n && n < 9223372036854775808

end Binary64

end AssetRegister
