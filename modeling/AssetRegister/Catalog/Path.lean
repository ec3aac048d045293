import AssetRegister.Catalog.Entity

/-!
# Attribute paths

A field is a chain of names. All but the last name relations and the last names an attribute of the
entity that the chain has reached. `Path.resolve` gives the path or the leftmost name that does not
fit together with the entity in which it was looked up.
-/

namespace AssetRegister

/-- How the names in a field are separated. -/
inductive PathStyle where
  | underscored
  | dotted
  deriving DecidableEq, Repr

def PathStyle.separator : PathStyle → Char
  | underscored => '_'
  | dotted => '.'

/-- One step along a relation: from a column of the owner to a row of the target. -/
structure Hop where
  owner : Entity
  column : String
  target : Entity
  deriving DecidableEq, Repr

/-- An attribute reached from some entity through relations. -/
structure Path where
  hops : List Hop
  owner : Entity
  column : String
  kind : Kind
  deriving DecidableEq, Repr

/-- A name that is not one of the entity's relations or attributes, as its place asks for. -/
structure UnknownField where
  segment : String
  entity : Entity
  deriving DecidableEq, Repr

namespace Path

/-- The parts of `s` between separators; there is always at least one. -/
def splitOn (sep : Char) : List Char → List (List Char)
  | [] => [[]]
  | c :: s =>
    match splitOn sep s with
    | [] => [[c]]
    | part :: parts => if c = sep then [] :: part :: parts else (c :: part) :: parts

/-- A chain of names without the empty ones at its end. Its first name stays. -/
def dropEmptyEnd : List String → List String
  | [] => []
  | first :: rest => first :: (rest.reverse.dropWhile (· == "")).reverse

def segments (style : PathStyle) (field : String) : List String :=
  dropEmptyEnd ((splitOn style.separator field.toList).map String.ofList)

/-- The path that a chain of names takes from an entity. -/
def follow (e : Entity) : List String → Except UnknownField Path
  | [] => .error ⟨"", e⟩
  | [leaf] =>
    match e.attribute? leaf with
    | some a => .ok ⟨[], e, a.column, a.type.kind⟩
    | none => .error ⟨leaf, e⟩
  | segment :: rest =>
    match e.attribute? segment with
    | some ⟨_, column, .relation target⟩ =>
      (follow target rest).map fun p => { p with hops := ⟨e, column, target⟩ :: p.hops }
    -- an attribute that is no relation leads nowhere
    | _ => .error ⟨segment, e⟩

def resolve (e : Entity) (style : PathStyle) (field : String) : Except UnknownField Path :=
  follow e (segments style field)

def depth (p : Path) : Nat := p.hops.length

def qualifiedColumn (p : Path) : String := p.owner.qualified p.column

end Path

end AssetRegister
