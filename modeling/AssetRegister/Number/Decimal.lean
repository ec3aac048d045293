import AssetRegister.Number.Binary64
import AssetRegister.Text.Integer

/-!
# Decimal forms of doubles

`Decimal.read?` reads a decimal literal, and `Decimal.toBinary64` gives the nearest double.
`Binary64.shortest` gives the fewest digits that read back; the plain text built on them never has
an exponent.
-/

namespace AssetRegister

/-- A decimal literal: the digits without the point as `coefficient`, the number of digits after the
point as `places`, and the written exponent as `power`. It is `integral` if written without a point
and an exponent. -/
structure Decimal where
  negative : Bool
  coefficient : Nat
  places : Nat
  power : Int
  integral : Bool
  deriving DecidableEq, Repr

namespace Decimal

/-- The exponent `e` of the value `± coefficient · 10 ^ e`. -/
def exponent (x : Decimal) : Int := x.power - x.places

/-- Reads the part after the mantissa: nothing, or `e`, an optional sign and digits. -/
def readExponent? : List Char → Option (Option Int)
  | [] => some none
  | c :: s =>
    if c = 'e' ∨ c = 'E' then
      let (negative, ds) := match s with
        | '-' :: ds => (true, ds)
        | '+' :: ds => (false, ds)
        | ds => (false, ds)
      if ds.isEmpty || !ds.all Char.isDigit then none
      else some (some (Text.signedValue negative ds))
    else none

/-- Reads digits, an optional point with further digits, and an optional exponent. At least one
digit stands before the exponent. -/
def readUnsigned? (negative : Bool) (s : List Char) : Option Decimal :=
  let whole := s.takeWhile Char.isDigit
  let s := s.dropWhile Char.isDigit
  let (point, fraction, s) := match s with
    | '.' :: s => (true, s.takeWhile Char.isDigit, s.dropWhile Char.isDigit)
    | s => (false, [], s)
  if whole.isEmpty && fraction.isEmpty then none
  else
    (readExponent? s).map fun e =>
      { negative := negative
        coefficient := Text.digitsFrom 0 (whole ++ fraction)
        places := fraction.length
        power := e.getD 0
        integral := !point && e.isNone }

def read? : List Char → Option Decimal
  | '-' :: s => readUnsigned? true s
  | '+' :: s => readUnsigned? false s
  | s => readUnsigned? false s

/-- The nearest double. A magnitude outside every double's range is settled by its digit count. -/
def toBinary64 (x : Decimal) : Binary64 :=
  let size := (Text.natText x.coefficient).length + x.exponent
  if x.coefficient = 0 ∨ size < -400 then .finite x.negative 0 Binary64.leastExponent
  else if 400 < size then .infinite x.negative
  else
    let (n, d) := Binary64.scaleDown 10 x.coefficient 1 (-x.exponent)
    Binary64.ofRatio x.negative n d

end Decimal

namespace Binary64

/-- The order of `c · 10 ^ p` and `x · 2 ^ q`. -/
def compareGrid (c : Nat) (p : Int) (x : Nat) (q : Int) : Ordering :=
  compare (c * Nat.pow 10 p.toNat * Nat.pow 2 (-q).toNat)
    (x * Nat.pow 2 q.toNat * Nat.pow 10 (-p).toNat)

/-- The least `k` with `m · 2 ^ e < 10 ^ k`, for a positive mantissa. -/
def magnitude (m : Nat) (e : Int) : Int :=
  -- `30103 / 100000` is close to the logarithm of two to the base ten
  let near := ((m.log2 : Int) + e) * 30103 / 100000
  (([-1, 0, 1].map (near + ·)).find? fun k => compareGrid 1 k m e == .gt).getD (near + 2)

/-- `m · 2 ^ e` divided by `10 ^ p`, rounded down. -/
def floorGrid (m : Nat) (e p : Int) : Nat :=
  (m * Nat.pow 2 e.toNat * Nat.pow 10 (-p).toNat)
    / (Nat.pow 2 (-e).toNat * Nat.pow 10 p.toNat)

/-- Whether `c · 10 ^ p` reads back as the double `m · 2 ^ e`: it lies between the midpoints to the
neighbouring doubles, or on one of them if the mantissa is even. -/
def readsBack (m : Nat) (e : Int) (c : Nat) (p : Int) : Bool :=
  -- the neighbour below a power of two is half as far away
  let gap := if m = mantissaBound / 2 ∧ leastExponent < e then 1 else 2
  let low := compareGrid c p (4 * m - gap) (e - 2)
  let high := compareGrid c p (4 * m + 2) (e - 2)
  (low == .gt || (low == .eq && m % 2 == 0)) && (high == .lt || (high == .eq && m % 2 == 0))

/-- Of the two neighbours of `m · 2 ^ e` on the grid of `10 ^ p`, the nearer that reads back, and the
upper one if they are equally near. -/
def gridPoint? (m : Nat) (e p : Int) : Option Nat :=
  let low := floorGrid m e p
  match readsBack m e low p, readsBack m e (low + 1) p with
  | true, true => if compareGrid (2 * low + 1) p (2 * m) e == .gt then some low else some (low + 1)
  | true, false => some low
  | false, true => some (low + 1)
  | false, false => none

/-- Digits `c` and exponent `p` such that `c · 10 ^ p` has the fewest digits that read back as the
double `m · 2 ^ e`, and is the nearest such number to it. -/
def shortest (m : Nat) (e : Int) : Nat × Int :=
  let k := magnitude m e
  let grids := (List.range 17).map fun n => k - (n + 1 : Nat)
  (grids.findSome? fun p => (gridPoint? m e p).map (·, p)).getD (floorGrid m e (k - 17), k - 17)

/-- The digits `ds` with `10 ^ p` applied, written without an exponent. -/
def positional (ds : List Char) (p : Int) : List Char :=
  if 0 ≤ p then ds ++ List.replicate p.toNat '0'
  else
    let places := (-p).toNat
    if places < ds.length then
      ds.take (ds.length - places) ++ '.' :: ds.drop (ds.length - places)
    else '0' :: '.' :: List.replicate (places - ds.length) '0' ++ ds

def signChars (negative : Bool) : List Char := if negative then ['-'] else []

def withoutTrailingZeros (ds : List Char) (p : Int) : List Char × Int :=
  let kept := (ds.reverse.dropWhile (· == '0')).reverse
  (kept, p + ((ds.length - kept.length : Nat) : Int))

/-- The plain text of a double: the fewest digits that read back, never an exponent. -/
def plainText : Binary64 → String
  | infinite s => if s then "-inf" else "inf"
  | finite s m e =>
    if m = 0 then String.ofList (signChars s ++ ['0'])
    else
      let (c, p) := shortest m e
      let (ds, p) := withoutTrailingZeros (Text.natText c) p
      String.ofList (signChars s ++ positional ds p)

/-- An exponent in text: its sign and at least two digits. -/
def exponentChars (e : Int) : List Char :=
  'e' :: (if e < 0 then '-' else '+') :: Text.padded 2 e.natAbs

end Binary64

end AssetRegister
