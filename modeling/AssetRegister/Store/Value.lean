import AssetRegister.Number.Stored
import AssetRegister.Text.Blank
import AssetRegister.Text.CodePoint
import AssetRegister.Text.Lower
import AssetRegister.Text.Utf8

/-!
# Stored values

A cell holds nothing, an integer, a real, a text or bytes, whatever its column; what is stored as a text
may be garbled. A column has an affinity, which says how a value is converted when it is stored or
compared. `Value.order?` is the order of two values: numbers by value, then texts by their bytes, then
bytes; nothing is ordered with an absent value.
-/

namespace AssetRegister

/-- The content of a cell. -/
inductive Value where
  | null
  | integer (n : Int)
  | real (x : Binary64)
  | text (s : String)
  | garbled (g : Garbled)
  | blob (bytes : List UInt8)
  deriving DecidableEq, Repr

inductive StorageClass where
  | null
  | integer
  | real
  | text
  | blob
  deriving DecidableEq, Repr

def StorageClass.name : StorageClass → String
  | null => "Null"
  | integer => "Integer"
  | real => "Real"
  | text => "Text"
  | blob => "Blob"

/-- What a column prefers to hold: text, or numbers. -/
inductive Affinity where
  | text
  | numeric
  deriving DecidableEq, Repr

namespace Value

def storageClass : Value → StorageClass
  | null => .null
  | integer _ => .integer
  | real _ => .real
  | text _ | garbled _ => .text
  | blob _ => .blob

/-- A double as a number is stored: as an integer if it equals one of moderate size. -/
def ofBinary64 (x : Binary64) : Value :=
  match x.smallInteger? with
  | some n => integer n
  | none => real x

/-- The number that a text is, if it is one as a whole, white space around it aside. A literal
without point and exponent is an integer if it fits into 64 bits. -/
def numberOfText? (s : String) : Option Value :=
  (Decimal.read? (Text.trimBy Text.isSpace s.toList)).map fun d =>
    let n := Binary64.signedMantissa d.negative d.coefficient
    if d.integral ∧ Width.bits64.least ≤ n ∧ n ≤ Width.bits64.greatest then integer n
    else ofBinary64 d.toStored

/-- The order of two runs of bytes. -/
def orderBytes (a b : List UInt8) : Ordering := compare (a.map UInt8.toNat) (b.map UInt8.toNat)

/-- The order of two present values. -/
def order? : Value → Value → Option Ordering
  | null, _ => none
  | _, null => none
  | integer a, integer b => some (compare a b)
  | integer a, real b => some (b.orderInteger a).swap
  | real a, integer b => some (a.orderInteger b)
  | real a, real b => some (a.order b)
  -- numbers come before texts, and texts before bytes
  | integer _, _ => some .lt
  | real _, _ => some .lt
  | text _, integer _ | garbled _, integer _ => some .gt
  | text _, real _ | garbled _, real _ => some .gt
  | text a, text b => some (compare a b)
  | text a, garbled b => some (orderBytes (Utf8.bytes a) b.bytes)
  | garbled a, text b => some (orderBytes a.bytes (Utf8.bytes b))
  | garbled a, garbled b => some (orderBytes a.bytes b.bytes)
  | text _, blob _ | garbled _, blob _ => some .lt
  | blob a, blob b => some (orderBytes a b)
  | blob _, _ => some .gt

def equal (a b : Value) : Bool := a.order? b == some .eq

end Value

/-- A value as a column of the affinity takes it. -/
def Affinity.convert : Affinity → Value → Value
  | numeric, .text s => (Value.numberOfText? s).getD (.text s)
  | numeric, .real x => Value.ofBinary64 x
  | text, .integer n => .text (Text.integerText n)
  | text, .real x => .text x.columnText
  -- bytes are kept by either affinity, and so is what is garbled
  | _, v => v

/-! ## Values as text

Patterns are matched against text: a number's decimal text, or bytes read as code points.
-/

namespace Value

/-- The code points that a pattern is matched against. -/
def codePoints? : Value → Option (List Nat)
  | null => none
  | integer n => some (CodePoint.ofText (Text.integerText n))
  | real x => some (CodePoint.ofText x.columnText)
  | text s => some (CodePoint.ofText s)
  | garbled g => some (CodePoint.ofBytes g.bytes)
  | blob bytes => some (CodePoint.ofBytes bytes)

/-- The lowercase text of a value. Bytes have none. -/
def lowerText? : Value → Option String
  | text s => some (Text.lower s)
  | garbled g => some (Text.lower g.text)
  | integer n => some (Text.integerText n)
  | real x => some x.plainText
  | null => none
  | blob _ => none

end Value

end AssetRegister
