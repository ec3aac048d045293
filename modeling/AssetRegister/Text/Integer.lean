/-!
# Integers in text

A signed integer of a given width is an optional sign and one or more ASCII digits. `readInteger`
gives the integer or the first fault from the left: the digits before the first other character
may already leave the width's range, which is reported before that character is.
-/

namespace AssetRegister

/-- The widths of the integers a request can carry. -/
inductive Width where
  | bits32
  | bits64
  deriving DecidableEq, Repr

namespace Width

def bits : Width → Nat
  | bits32 => 32
  | bits64 => 64

def least : Width → Int
  | bits32 => -2147483648
  | bits64 => -9223372036854775808

def greatest : Width → Int
  | bits32 => 2147483647
  | bits64 => 9223372036854775807

end Width

/-- Why a text is no integer of a width. -/
inductive IntegerFault where
  | empty
  | invalidDigit
  | tooLarge
  | tooSmall
  deriving DecidableEq, Repr

def IntegerFault.message : IntegerFault → String
  | empty => "cannot parse integer from empty string"
  | invalidDigit => "invalid digit found in string"
  | tooLarge => "number too large to fit in target type"
  | tooSmall => "number too small to fit in target type"

namespace Text

/-- The number that a run of ASCII digits denotes after `n`. -/
def digitsFrom (n : Nat) (ds : List Char) : Nat :=
  ds.foldl (fun n d => 10 * n + (d.toNat - '0'.toNat)) n

/-- The integer that a sign and a run of ASCII digits denote. -/
def signedValue (negative : Bool) (ds : List Char) : Int :=
  if negative then -(digitsFrom 0 ds : Int) else digitsFrom 0 ds

def readDigits (w : Width) (negative : Bool) (s : List Char) : Except IntegerFault Int :=
  let n := signedValue negative (s.takeWhile Char.isDigit)
  if n < w.least then .error .tooSmall
  else if w.greatest < n then .error .tooLarge
  else if s.isEmpty || !s.all Char.isDigit then .error .invalidDigit
  else .ok n

/-- Reads an optionally signed integer of the width. -/
def readInteger (w : Width) : List Char → Except IntegerFault Int
  | [] => .error .empty
  | '-' :: s => readDigits w true s
  | '+' :: s => readDigits w false s
  | s => readDigits w false s

/-- The decimal digits of a natural number, without leading zeros. -/
def natText (n : Nat) : List Char := Nat.toDigits 10 n

def integerChars (n : Int) : List Char :=
  if n < 0 then '-' :: natText n.natAbs else natText n.natAbs

def integerText (n : Int) : String := String.ofList (integerChars n)

/-- The digits of `n` with zeros in front up to `width` characters. -/
def padded (width n : Nat) : List Char :=
  let ds := natText n
  List.replicate (width - ds.length) '0' ++ ds

end Text

end AssetRegister
