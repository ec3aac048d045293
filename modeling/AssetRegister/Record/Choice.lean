/-!
# Closed choices

The attributes with a fixed set of values. Each value has one word, in the store and in documents,
and a word stands for at most one value of a choice.
-/

namespace AssetRegister

/-- What an asset is. -/
inductive AssetType where
  | file
  | device
  | book
  deriving DecidableEq, Repr

/-- Who may see an asset. -/
inductive Visibility where
  | «public»
  | group
  | «private»
  deriving DecidableEq, Repr

/-- The bucket in which a file is kept. -/
inductive BucketType where
  | «public»
  | groups
  | «private»
  deriving DecidableEq, Repr

/-- What a user may do. -/
inductive Role where
  | admin
  | user
  deriving DecidableEq, Repr

/-- A type with finitely many values, each with a word of its own. -/
class Choice (α : Type) where
  all : List α
  word : α → String

namespace Choice

def ofWord? {α : Type} [Choice α] (s : String) : Option α :=
  (all : List α).find? fun a => word a == s

def words (α : Type) [Choice α] : List String := (all : List α).map word

end Choice

instance : Choice AssetType where
  all := [.file, .device, .book]
  word
    | .file => "FILE"
    | .device => "DEVICE"
    | .book => "BOOK"

instance : Choice Visibility where
  all := [.public, .group, .private]
  word
    | .public => "PUBLIC"
    | .group => "GROUP"
    | .private => "PRIVATE"

instance : Choice BucketType where
  all := [.public, .groups, .private]
  word
    | .public => "PUBLIC"
    | .groups => "GROUPS"
    | .private => "PRIVATE"

instance : Choice Role where
  all := [.admin, .user]
  word
    | .admin => "ADMIN"
    | .user => "USER"

def Visibility.bucket : Visibility → BucketType
  | .public => .public
  | .group => .groups
  | .private => .private

end AssetRegister
