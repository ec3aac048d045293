/-!
# Pages

Rows are listed in pages of `limit` rows. An offset stands for the page that starts at it, or for the
next one if none does: the index is the quotient rounded up.
-/

namespace AssetRegister

/-- A page: its index, counted from zero, and its size. -/
structure Page where
  index : Int
  size : Int
  deriving DecidableEq, Repr

namespace Page

/-- The page that a limit and an offset stand for. -/
def of (limit offset : Int) : Page :=
  ⟨(offset + limit - 1).tdiv limit, limit⟩

/-- The page that a limit and an offset stand for, if pages of that limit exist. -/
def of? (limit offset : Int) : Option Page :=
  if limit = 0 then none else some (of limit offset)

/-- The number of rows before the page. -/
def offset (p : Page) : Int := p.index * p.size

def window {α : Type} (p : Page) (rows : List α) : List α :=
  (rows.drop p.offset.toNat).take p.size.toNat

end Page

end AssetRegister
