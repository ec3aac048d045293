import AssetRegister.Text.GlyphTable
import AssetRegister.Text.Ranges

/-!
# Quotation

A text that a message repeats stands between double quotes, and every character in it that would not
show, or would not show apart from the one before it, is written by its code point.
-/

namespace AssetRegister.Text

def hasGlyph (c : Char) : Bool := !inRanges glyphlessRanges c.toNat

/-- The halfwidth marks of voiced Japanese sounds, which extend a grapheme but stand for
themselves. -/
def isVoicingMark (c : Char) : Bool := c == '\uFF9E' || c == '\uFF9F'

def extendsGlyph (c : Char) : Bool :=
  inRanges graphemeExtendRanges c.toNat && !isVoicingMark c

/-- The characters that are quoted as a backslash and a letter or themselves. -/
def shortQuotes : List (Char × Char) :=
  [('"', '"'), ('\\', '\\'), ('\t', 't'), ('\n', 'n'), ('\r', 'r'), ('\x00', '0')]

def quotedChar (c : Char) : List Char :=
  match shortQuotes.lookup c with
  | some short => ['\\', short]
  | none =>
    if hasGlyph c && !extendsGlyph c then [c]
    else ['\\', 'u', '\x7b'] ++ Nat.toDigits 16 c.toNat ++ ['\x7d']

def quoted (s : String) : String :=
  "\"" ++ String.ofList (s.toList.flatMap quotedChar) ++ "\""

end AssetRegister.Text
