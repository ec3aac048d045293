import AssetRegister.Text.CodePoint
import AssetRegister.Text.Integer

/-!
# Bytes that are no text

A cell of text holds bytes, and nobody checks that they are UTF-8. Such bytes are no text to whoever reads
the cell. To put them into lowercase, every longest run of bytes that begins a character and does not end
it becomes the replacement character.
-/

namespace AssetRegister

namespace Utf8

def bytes (s : String) : List UInt8 := s.toList.flatMap String.utf8EncodeChar

/-- How many bytes have to follow a lead byte, if it is one. -/
def following? (lead : Nat) : Option Nat :=
  if lead < 0x80 then some 0
  else if lead < 0xC2 then none
  else if lead < 0xE0 then some 1
  else if lead < 0xF0 then some 2
  else if lead < 0xF5 then some 3
  else none

/-- Whether a byte can come next after a lead byte. Not all continuation bytes can: some would make a
character that takes fewer bytes, a half of a surrogate pair, or none at all. -/
def comesNext (lead : Nat) (b : UInt8) : Bool :=
  CodePoint.isContinuation b &&
    if lead = 0xE0 then 0xA0 ≤ b.toNat
    else if lead = 0xED then b.toNat < 0xA0
    else if lead = 0xF0 then 0x90 ≤ b.toNat
    else if lead = 0xF4 then b.toNat < 0x90
    else true

/-- The bytes that continue a lead byte, not more than have to follow it. -/
def continued (lead : Nat) : List UInt8 → List UInt8
  | [] => []
  | b :: s =>
    match following? lead with
    | none | some 0 => []
    | some (n + 1) =>
      if comesNext lead b then b :: (s.take n).takeWhile CodePoint.isContinuation else []

/-- The character that a lead byte and the bytes after it make, if they go on long enough. -/
def char? (lead : Nat) (s : List UInt8) : Option Char :=
  if following? lead = some (continued lead s).length then
    some (Char.ofNat (if lead < 0x80 then lead
      else (continued lead s).foldl CodePoint.extend (CodePoint.leadValue lead)))
  else none

/-- Where bytes stop being UTF-8, and how many of them are no character. They are not counted if it is the
end that cuts a character short. -/
structure Fault where
  index : Nat
  length? : Option Nat
  deriving DecidableEq, Repr

def Fault.message (fault : Fault) : String :=
  match fault.length? with
  | some n => "invalid utf-8 sequence of " ++ Text.integerText n ++ " bytes from index "
      ++ Text.integerText fault.index
  | none => "incomplete utf-8 byte sequence from index " ++ Text.integerText fault.index

/-- The first fault of bytes from a position on. -/
def fault? (index : Nat) : List UInt8 → Option Fault
  | [] => none
  | b :: s =>
    let run := continued b.toNat s
    match char? b.toNat s with
    | some _ => fault? (index + 1 + run.length) (s.drop run.length)
    | none =>
      -- the bytes end before the character does, so nobody knows how many would be wrong
      let isCut := (following? b.toNat).isSome && run.length == s.length
      some ⟨index, if isCut then none else some (1 + run.length)⟩
termination_by s => s.length
decreasing_by
  simp only [List.length_drop, List.length_cons]
  omega

/-- The characters of bytes, with the replacement character for what is none. -/
def lossy : List UInt8 → List Char
  | [] => []
  | b :: s => (char? b.toNat s).getD '\uFFFD' :: lossy (s.drop (continued b.toNat s).length)
termination_by s => s.length
decreasing_by
  simp only [List.length_drop, List.length_cons]
  omega

end Utf8

/-- Bytes that are not UTF-8. -/
structure Garbled where
  bytes : List UInt8
  isGarbled : (Utf8.fault? 0 bytes).isSome = true
  deriving DecidableEq, Repr

namespace Garbled

/-- What keeps the bytes from being a text. -/
def fault (g : Garbled) : Utf8.Fault := (Utf8.fault? 0 g.bytes).get g.isGarbled

/-- The nearest text. -/
def text (g : Garbled) : String := String.ofList (Utf8.lossy g.bytes)

end Garbled

end AssetRegister
