import AssetRegister.Catalog.Entity
import AssetRegister.Store.Value

/-!
# Columns of the stored tables

Besides its identifier, a row of an entity has the columns listed here, in this order. A column has
an affinity and a default, may have to be present, be unique in its table, or name a row of another
table, and may have an index.
-/

namespace AssetRegister

/-- A stored column other than the identifier. -/
structure Column where
  name : String
  affinity : Affinity
  required : Bool := false
  unique : Bool := false
  references? : Option Entity := none
  indexed : Bool := false
  default : Value := .null
  deriving DecidableEq, Repr

namespace Entity

def columns : Entity → List Column
  | users => [
      { name := "user_name", affinity := .text, required := true, unique := true },
      { name := "password_hash", affinity := .text, required := true, default := .text "" },
      { name := "role", affinity := .text, required := true },
      { name := "created_at", affinity := .text, required := true },
      { name := "status", affinity := .numeric, required := true, default := .integer 1 },
      { name := "avatar_cos_key", affinity := .text }]
  | userGroups => [
      { name := "group_name", affinity := .text, required := true, unique := true },
      { name := "created_by", affinity := .numeric, required := true, references? := some .users },
      { name := "created_at", affinity := .text, required := true },
      { name := "member_count", affinity := .numeric, required := true, default := .integer 0 }]
  | assets => [
      { name := "asset_name", affinity := .text, required := true },
      { name := "description", affinity := .text },
      { name := "owner_user_id", affinity := .numeric, references? := some .users, indexed := true },
      { name := "owner_group_id", affinity := .numeric, references? := some .userGroups,
        indexed := true },
      { name := "asset_type", affinity := .text, required := true },
      { name := "visibility", affinity := .text, required := true },
      { name := "created_at", affinity := .text, required := true },
      { name := "updated_at", affinity := .text },
      { name := "related_resource_count", affinity := .numeric, required := true,
        default := .integer 0 },
      { name := "version", affinity := .numeric, required := true, default := .integer 0 }]
  | assetFiles => [
      { name := "asset_id", affinity := .numeric, required := true, references? := some .assets,
        indexed := true },
      { name := "bucket_type", affinity := .text, required := true },
      { name := "file_name", affinity := .text, required := true },
      { name := "file_type", affinity := .text, required := true },
      { name := "file_size", affinity := .numeric, required := true },
      { name := "cos_key", affinity := .text, required := true, unique := true },
      { name := "upload_user_id", affinity := .numeric, required := true,
        references? := some .users },
      { name := "created_at", affinity := .text, required := true }]
  | suppliers => [
      { name := "supplier_name", affinity := .text, required := true },
      { name := "short_name", affinity := .text },
      { name := "status", affinity := .text, required := true },
      { name := "supplier_type", affinity := .text, required := true },
      { name := "primary_contact", affinity := .text, required := true },
      { name := "contact_phone", affinity := .text, required := true },
      { name := "contact_email", affinity := .text },
      { name := "region_code", affinity := .text },
      { name := "invoice_type", affinity := .numeric, required := true, default := .integer 0 },
      { name := "created_by", affinity := .numeric, required := true },
      { name := "created_at", affinity := .text, required := true }]

def column? (e : Entity) (name : String) : Option Column :=
  e.columns.find? fun c => c.name == name

/-- The affinity of a column. The identifier holds numbers. -/
def affinity (e : Entity) (name : String) : Affinity :=
  match e.column? name with
  | some c => c.affinity
  | none => .numeric

end Entity

end AssetRegister
