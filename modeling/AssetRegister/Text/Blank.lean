/-!
# White space

Three classes: `isBlank` is the Unicode property `White_Space`, by which values that come from people
are trimmed and clauses are tested for emptiness; `isSpace` is the white space of filters and of
numbers in stored text; `isSettingSpace` is the white space between the words of a setting.
-/

namespace AssetRegister.Text

/-- The 25 characters with the Unicode property `White_Space`. -/
def isBlank (c : Char) : Bool :=
  let n := c.toNat
  (9 ≤ n && n ≤ 13) || n == 0x20 || n == 0x85 || n == 0xA0 || n == 0x1680
    || (0x2000 ≤ n && n ≤ 0x200A) || n == 0x2028 || n == 0x2029 || n == 0x202F
    || n == 0x205F || n == 0x3000

/-- The six ASCII characters of white space: space, tab, line feed, vertical tab, form feed and
carriage return. -/
def isSpace (c : Char) : Bool :=
  c == ' ' || (9 ≤ c.toNat && c.toNat ≤ 13)

/-- The white space of settings, which has no vertical tab. -/
def isSettingSpace (c : Char) : Bool :=
  isSpace c && c.toNat != 11

def dropEndWhile (p : Char → Bool) (s : List Char) : List Char :=
  (s.reverse.dropWhile p).reverse

def trimBy (p : Char → Bool) (s : List Char) : List Char :=
  dropEndWhile p (s.dropWhile p)

def trim (s : String) : String :=
  String.ofList (trimBy isBlank s.toList)

def isBlankText (s : List Char) : Bool :=
  s.all isBlank

/-- The image of one character under the ASCII capital letters' lowercase. -/
def asciiLower (c : Char) : Char :=
  if 'A' ≤ c ∧ c ≤ 'Z' then Char.ofNat (c.toNat + 32) else c

def lowerAscii (s : String) : String :=
  s.map asciiLower

end AssetRegister.Text
