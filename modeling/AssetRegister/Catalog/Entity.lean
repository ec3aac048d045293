import AssetRegister.Text.Integer

/-!
# Entities and their attributes

The catalog of what can be listed. An entity has a table, and attributes that a filter may name; an
attribute has a column and a type. An attribute whose type is a relation holds the identifier of a
row of its target, so a field can go on with an attribute of that target.
-/

namespace AssetRegister

/-- The kinds of record the register keeps. -/
inductive Entity where
  | users
  | userGroups
  | assets
  | assetFiles
  | suppliers
  deriving DecidableEq, Repr

/-- What values an attribute has. -/
inductive AttributeType where
  | integer
  | long
  | text
  | flag
  | timestamp
  | choice
  | relation (target : Entity)
  deriving DecidableEq, Repr

/-- How an attribute is compared: as a number of some width, or as text. -/
inductive Kind where
  | numeric (width : Width)
  | text
  deriving DecidableEq, Repr

namespace AttributeType

/-- The name of the type in listings of fields. -/
def name : AttributeType → String
  | integer => "Integer"
  | long => "Long"
  | text => "Text"
  | flag => "Bool"
  | timestamp => "Timestamp"
  | choice => "Enum"
  | relation _ => "Relation"

/-- How attributes of the type are compared. Identifiers are 64-bit numbers, and so are relations;
flags, timestamps and choices are compared as text. -/
def kind : AttributeType → Kind
  | integer => .numeric .bits32
  | long => .numeric .bits64
  | relation _ => .numeric .bits64
  | text | flag | timestamp | choice => .text

def target? : AttributeType → Option Entity
  | relation e => some e
  | _ => none

end AttributeType

namespace Kind

def name : Kind → String
  | numeric _ => "numeric"
  | text => "text"

def width? : Kind → Option Width
  | numeric w => some w
  | text => none

end Kind

/-- An attribute: the name it has in fields, its column and its type. -/
structure Attribute where
  name : String
  column : String
  type : AttributeType
  deriving DecidableEq, Repr

namespace Entity

def all : List Entity := [users, userGroups, assets, assetFiles, suppliers]

/-- The name of the entity, which is also its table. -/
def table : Entity → String
  | users => "users"
  | userGroups => "user_groups"
  | assets => "assets"
  | assetFiles => "asset_files"
  | suppliers => "suppliers"

def ofTable? (s : String) : Option Entity := all.find? fun e => e.table == s

def primaryKey (_ : Entity) : String := "id"

/-- The attributes of the entity, in the order of their names. -/
def attributes : Entity → List Attribute
  | users => [
      ⟨"avatarCosKey", "avatar_cos_key", .text⟩,
      ⟨"createdAt", "created_at", .timestamp⟩,
      ⟨"id", "id", .long⟩,
      ⟨"role", "role", .choice⟩,
      ⟨"status", "status", .flag⟩,
      ⟨"userName", "user_name", .text⟩]
  | userGroups => [
      ⟨"createdAt", "created_at", .timestamp⟩,
      ⟨"createdBy", "created_by", .relation .users⟩,
      ⟨"groupName", "group_name", .text⟩,
      ⟨"id", "id", .long⟩,
      ⟨"memberCount", "member_count", .integer⟩]
  | assets => [
      ⟨"assetName", "asset_name", .text⟩,
      ⟨"assetType", "asset_type", .choice⟩,
      ⟨"createdAt", "created_at", .timestamp⟩,
      ⟨"description", "description", .text⟩,
      ⟨"id", "id", .long⟩,
      ⟨"owner", "owner_user_id", .relation .users⟩,
      ⟨"ownerGroupId", "owner_group_id", .long⟩,
      ⟨"ownerUserId", "owner_user_id", .long⟩,
      ⟨"relatedResourceCount", "related_resource_count", .integer⟩,
      ⟨"updatedAt", "updated_at", .timestamp⟩,
      ⟨"version", "version", .integer⟩,
      ⟨"visibility", "visibility", .choice⟩]
  | assetFiles => [
      ⟨"asset", "asset_id", .relation .assets⟩,
      ⟨"bucketType", "bucket_type", .choice⟩,
      ⟨"cosKey", "cos_key", .text⟩,
      ⟨"createdAt", "created_at", .timestamp⟩,
      ⟨"fileName", "file_name", .text⟩,
      ⟨"fileSize", "file_size", .long⟩,
      ⟨"fileType", "file_type", .text⟩,
      ⟨"id", "id", .long⟩,
      ⟨"uploadUserId", "upload_user_id", .long⟩]
  | suppliers => [
      ⟨"createdAt", "created_at", .timestamp⟩,
      ⟨"createdBy", "created_by", .long⟩,
      ⟨"email", "contact_email", .text⟩,
      ⟨"id", "id", .long⟩,
      ⟨"invoiceType", "invoice_type", .integer⟩,
      ⟨"name", "supplier_name", .text⟩,
      ⟨"phone", "contact_phone", .text⟩,
      ⟨"primaryContact", "primary_contact", .text⟩,
      ⟨"regionCode", "region_code", .text⟩,
      ⟨"shortName", "short_name", .text⟩,
      ⟨"status", "status", .text⟩,
      ⟨"type", "supplier_type", .text⟩]

/-- The columns a listing reads, in the order of the record's parts. -/
def selectColumns : Entity → List String
  | users => ["id", "user_name", "role", "created_at", "status", "avatar_cos_key"]
  | userGroups => ["id", "group_name", "created_by", "created_at", "member_count"]
  | assets => ["id", "asset_name", "description", "owner_user_id", "owner_group_id", "asset_type",
      "visibility", "created_at", "updated_at", "related_resource_count", "version"]
  | assetFiles => ["id", "asset_id", "bucket_type", "file_name", "file_type", "file_size",
      "cos_key", "upload_user_id", "created_at"]
  | suppliers => ["id", "supplier_name", "short_name", "status", "supplier_type",
      "primary_contact", "contact_phone", "contact_email", "region_code", "invoice_type",
      "created_by", "created_at"]

/-- A column of the entity as query text names it. -/
def qualified (e : Entity) (column : String) : String := e.table ++ "." ++ column

def selectList (e : Entity) : String :=
  String.intercalate ", " (e.selectColumns.map e.qualified)

def attribute? (e : Entity) (name : String) : Option Attribute :=
  e.attributes.find? fun a => a.name == name

end Entity

end AssetRegister
