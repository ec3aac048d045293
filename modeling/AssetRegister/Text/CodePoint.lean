/-!
# Code points as patterns read them

A pattern and what it is matched against are read as code points, also where the bytes are no text.
A lead byte takes all continuation bytes after it, however many they are, in arithmetic of 32 bits;
a byte that leads nothing stands for itself. What several bytes must not stand for becomes the
replacement character.
-/

namespace AssetRegister.CodePoint

/-- The replacement character. -/
def replacement : Nat := 0xFFFD

/-- Whether several bytes must not stand for `n`: it fits into one byte, is a half of a surrogate
pair, or one of the last two code points of the first plane. -/
def isBarred (n : Nat) : Bool :=
  n < 0x80 || n / 0x800 == 0x1B || n / 2 == 0x7FFF

/-- The code point that several bytes with the value `n` stand for. -/
def settled (n : Nat) : Nat := if isBarred n then replacement else n

/-- The code point of a character. -/
def ofChar (c : Char) : Nat := if c.toNat < 0x80 then c.toNat else settled c.toNat

def ofText (s : String) : List Nat := s.toList.map ofChar

/-- What a lead byte contributes. -/
def leadValue (lead : Nat) : Nat :=
  if lead < 0xE0 then lead - 0xC0
  else if lead < 0xF0 then lead - 0xE0
  else if lead < 0xF8 then lead - 0xF0
  else if lead < 0xFC then lead - 0xF8
  else if lead < 0xFE then lead - 0xFC
  -- the two greatest bytes only say that more follow
  else 0

def isContinuation (b : UInt8) : Bool := b.toNat / 64 == 2

/-- The number of values of 32 bits. -/
def wordBound : Nat := 4294967296

/-- Takes a continuation byte in. -/
def extend (n : Nat) (b : UInt8) : Nat := (n * 64 + (b.toNat - 128)) % wordBound

/-- The code points of some bytes. -/
def ofBytes : List UInt8 → List Nat
  | [] => []
  | b :: rest =>
    if b.toNat < 0xC0 then b.toNat :: ofBytes rest
    else
      settled ((rest.takeWhile isContinuation).foldl extend (leadValue b.toNat))
        :: ofBytes (rest.dropWhile isContinuation)
termination_by s => s.length
decreasing_by
  · simp
  · have := (List.dropWhile_sublist (l := rest) isContinuation).length_le
    simp only [List.length_cons]
    omega

end AssetRegister.CodePoint
