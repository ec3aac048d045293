import AssetRegister.Number.Binary64

/-!
# Arithmetic on doubles

A sum or a product of two doubles is the double nearest to the exact result, a tie going to the even
mantissa. What is no number, such as the difference of two infinities, is `none`.
-/

namespace AssetRegister.Binary64

/-- The double nearest to `± m · 2 ^ e`. -/
def ofScaled (negative : Bool) (m : Nat) (e : Int) : Binary64 :=
  let (num, den) := scaleDown 2 m 1 (-e)
  ofRatio negative num den

def negate : Binary64 → Binary64
  | finite s m e => finite (!s) m e
  | infinite s => infinite (!s)

/-- `m · 2 ^ e` as a multiple of `2 ^ least`. -/
def units (negative : Bool) (m : Nat) (e least : Int) : Int :=
  signedMantissa negative m * (Nat.pow 2 (e - least).toNat : Nat)

/-- The sum. A zero sum is negative only if both sides are. -/
def add? : Binary64 → Binary64 → Option Binary64
  | finite s a ea, finite t b eb =>
    let e := min ea eb
    let sum := units s a ea e + units t b eb e
    if sum = 0 then some (finite (s && t) 0 leastExponent)
    else some (ofScaled (sum < 0) sum.natAbs e)
  | infinite s, infinite t => if s = t then some (infinite s) else none
  | infinite s, finite .. => some (infinite s)
  | finite .., infinite t => some (infinite t)

def sub? (x y : Binary64) : Option Binary64 := x.add? y.negate

def mul? : Binary64 → Binary64 → Option Binary64
  | finite s a ea, finite t b eb => some (ofScaled (s != t) (a * b) (ea + eb))
  | infinite s, infinite t => some (infinite (s != t))
  | infinite s, finite t b _ => if b = 0 then none else some (infinite (s != t))
  | finite s a _, infinite t => if a = 0 then none else some (infinite (s != t))

/-- The magnitude rounded down. An infinity has none. -/
def floorAbs : Binary64 → Nat
  | finite _ m e => if 0 ≤ e then m * Nat.pow 2 e.toNat else m / Nat.pow 2 (-e).toNat
  | infinite _ => 0

/-- The double that has the upper half of the mantissa, its last 26 bits cleared. -/
def upperHalf : Binary64 → Binary64
  | finite s m e => finite s (m - m % 67108864) e
  | infinite s => infinite s

end AssetRegister.Binary64
