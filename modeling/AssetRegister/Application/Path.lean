/-!
# Paths

A path is read as a `Way`: names to be gone along, from the root or from the working folder. A
`Place` is where a way ends if nothing stands in its way.
-/

namespace AssetRegister

/-- The names that lead to a place from the working folder, or from the root if the first of them is
empty. Two points, as a name, lead out of the working folder. -/
abbrev Place := List String

namespace Place

def root : Place := [""]

/-- Whether the place is the root, the working folder or a folder around it. -/
def isGiven (place : Place) : Bool := place == root || place.all (· == "..")

/-- The place of a name in a folder. One point stays, two points go back. -/
def enter (place : Place) (name : String) : Place :=
  match name with
  | "." => place
  -- from a folder around the working folder two points lead further out
  | ".." => if place == root then root else if place.isGiven then place ++ [".."] else place.dropLast
  | name => place ++ [name]

end Place

/-- Names to be gone along, and where they start. -/
structure Way where
  start : Place
  names : List String
  deriving DecidableEq, Repr

namespace Way

def ofPath (path : String) : Way where
  start := if path.startsWith "/" then Place.root else []
  names := ((path.toList.splitOn '/').map String.ofList).filter (· ≠ "")

def place (way : Way) : Place := way.names.foldl Place.enter way.start

/-- The way itself, then the ways to the folders that it leads through, the last one first. A single
point is no folder of its own on them. -/
def ancestors (way : Way) : List Way :=
  let names := way.names.filter (· ≠ ".")
  way :: (List.range (names.length - 1)).reverse.map fun n => ⟨way.start, names.take (n + 1)⟩

end Way

namespace Place

def ofPath (path : String) : Place := (Way.ofPath path).place

def path (place : Place) : String := String.intercalate "/" place

end Place

end AssetRegister
