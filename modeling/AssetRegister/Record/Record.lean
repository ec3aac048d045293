import AssetRegister.Record.Choice
import AssetRegister.Record.Document
import AssetRegister.Record.Timestamp
import AssetRegister.Store.Database

/-!
# Records

A record is what a listing shows of a stored row. Reading goes through the selected columns from left
to right and stops at the first cell that does not fit its part of the record.
-/

namespace AssetRegister

/-- Why a cell cannot be read: its position among the selected columns, and what is wrong. -/
inductive ReadFault where
  | wrongClass (found : StorageClass) (index : Nat) (column : String)
  | outOfRange (n : Int) (index : Nat)
  | garbled (index : Nat) (fault : Utf8.Fault)
  | unknownWord (index : Nat)
  | badTimestamp (index : Nat) (fault : TimestampFault)
  deriving DecidableEq, Repr

namespace ReadFault

def conversion (index : Nat) (reason : String) : String :=
  "Conversion error from type Text at index: " ++ Text.integerText index ++ ", " ++ reason

def message : ReadFault → String
  | wrongClass found index column =>
    "Invalid column type " ++ found.name ++ " at index: " ++ Text.integerText index
      ++ ", name: " ++ column
  | outOfRange n index =>
    "Integer " ++ Text.integerText n ++ " out of range at index " ++ Text.integerText index
  | garbled index fault => fault.message ++ " at index " ++ Text.integerText index
  | unknownWord index => conversion index "Matching variant not found"
  | badTimestamp index fault => conversion index fault.message

end ReadFault

/-! ## Cells -/

/-- A selected cell: its position, its column and its content. -/
structure Cell where
  index : Nat
  column : String
  value : Value

namespace Cell

def wrong (c : Cell) : ReadFault := .wrongClass c.value.storageClass c.index c.column

/-- Reads a 64-bit integer. -/
def long (c : Cell) : Except ReadFault Int :=
  match c.value with
  | .integer n => .ok n
  | _ => .error c.wrong

/-- Reads a 32-bit integer. -/
def integer (c : Cell) : Except ReadFault Int := do
  let n ← c.long
  if Width.bits32.least ≤ n ∧ n ≤ Width.bits32.greatest then return n
  else throw (.outOfRange n c.index)

/-- Reads a flag: any integer but zero is true. -/
def flag (c : Cell) : Except ReadFault Bool := do
  return (← c.long) != 0

def text (c : Cell) : Except ReadFault String :=
  match c.value with
  | .text s => .ok s
  | .garbled g => .error (.garbled c.index g.fault)
  | _ => .error c.wrong

def choice {α : Type} [Choice α] (c : Cell) : Except ReadFault α := do
  match Choice.ofWord? (← c.text) with
  | some a => return a
  | none => throw (.unknownWord c.index)

def timestamp (c : Cell) : Except ReadFault Timestamp := do
  match Timestamp.read (← c.text) with
  | .ok t => return t
  | .error fault => throw (.badTimestamp c.index fault)

/-- Reads a content that may be absent. -/
def optional {α : Type} (read : Cell → Except ReadFault α) (c : Cell) :
    Except ReadFault (Option α) :=
  match c.value with
  | .null => .ok none
  | _ => (read c).map some

end Cell

def Row.cell (r : Row) (index : Nat) (column : String) : Cell := ⟨index, column, r.get column⟩

/-! ## The records of the five entities -/

structure User where
  id : Int
  userName : String
  role : Role
  createdAt : Timestamp
  status : Bool
  avatarCosKey : Option String
  deriving DecidableEq, Repr

structure UserGroup where
  id : Int
  groupName : String
  createdBy : Int
  createdAt : Timestamp
  memberCount : Int
  deriving DecidableEq, Repr

structure Asset where
  id : Int
  assetName : String
  description : Option String
  ownerUserId : Option Int
  ownerGroupId : Option Int
  assetType : AssetType
  visibility : Visibility
  createdAt : Timestamp
  updatedAt : Option Timestamp
  relatedResourceCount : Int
  version : Int
  deriving DecidableEq, Repr

structure AssetFile where
  id : Int
  assetId : Int
  bucketType : BucketType
  fileName : String
  fileType : String
  fileSize : Int
  cosKey : String
  uploadUserId : Int
  createdAt : Timestamp
  deriving DecidableEq, Repr

structure Supplier where
  id : Int
  name : String
  shortName : Option String
  status : String
  supplierType : String
  primaryContact : String
  phone : String
  email : Option String
  regionCode : Option String
  invoiceType : Int
  createdBy : Int
  createdAt : Timestamp
  deriving DecidableEq, Repr

inductive Record where
  | user (u : User)
  | userGroup (g : UserGroup)
  | asset (a : Asset)
  | assetFile (f : AssetFile)
  | supplier (s : Supplier)
  deriving DecidableEq, Repr

/-! ## Reading rows -/

def User.ofRow (r : Row) : Except ReadFault User := do
  return {
    id := ← (r.cell 0 "id").long
    userName := ← (r.cell 1 "user_name").text
    role := ← (r.cell 2 "role").choice
    createdAt := ← (r.cell 3 "created_at").timestamp
    status := ← (r.cell 4 "status").flag
    avatarCosKey := ← (r.cell 5 "avatar_cos_key").optional Cell.text }

def UserGroup.ofRow (r : Row) : Except ReadFault UserGroup := do
  return {
    id := ← (r.cell 0 "id").long
    groupName := ← (r.cell 1 "group_name").text
    createdBy := ← (r.cell 2 "created_by").long
    createdAt := ← (r.cell 3 "created_at").timestamp
    memberCount := ← (r.cell 4 "member_count").integer }

def Asset.ofRow (r : Row) : Except ReadFault Asset := do
  return {
    id := ← (r.cell 0 "id").long
    assetName := ← (r.cell 1 "asset_name").text
    description := ← (r.cell 2 "description").optional Cell.text
    ownerUserId := ← (r.cell 3 "owner_user_id").optional Cell.long
    ownerGroupId := ← (r.cell 4 "owner_group_id").optional Cell.long
    assetType := ← (r.cell 5 "asset_type").choice
    visibility := ← (r.cell 6 "visibility").choice
    createdAt := ← (r.cell 7 "created_at").timestamp
    updatedAt := ← (r.cell 8 "updated_at").optional Cell.timestamp
    relatedResourceCount := ← (r.cell 9 "related_resource_count").integer
    version := ← (r.cell 10 "version").integer }

def AssetFile.ofRow (r : Row) : Except ReadFault AssetFile := do
  return {
    id := ← (r.cell 0 "id").long
    assetId := ← (r.cell 1 "asset_id").long
    bucketType := ← (r.cell 2 "bucket_type").choice
    fileName := ← (r.cell 3 "file_name").text
    fileType := ← (r.cell 4 "file_type").text
    fileSize := ← (r.cell 5 "file_size").long
    cosKey := ← (r.cell 6 "cos_key").text
    uploadUserId := ← (r.cell 7 "upload_user_id").long
    createdAt := ← (r.cell 8 "created_at").timestamp }

def Supplier.ofRow (r : Row) : Except ReadFault Supplier := do
  return {
    id := ← (r.cell 0 "id").long
    name := ← (r.cell 1 "supplier_name").text
    shortName := ← (r.cell 2 "short_name").optional Cell.text
    status := ← (r.cell 3 "status").text
    supplierType := ← (r.cell 4 "supplier_type").text
    primaryContact := ← (r.cell 5 "primary_contact").text
    phone := ← (r.cell 6 "contact_phone").text
    email := ← (r.cell 7 "contact_email").optional Cell.text
    regionCode := ← (r.cell 8 "region_code").optional Cell.text
    invoiceType := ← (r.cell 9 "invoice_type").integer
    createdBy := ← (r.cell 10 "created_by").long
    createdAt := ← (r.cell 11 "created_at").timestamp }

def Record.ofRow (e : Entity) (r : Row) : Except ReadFault Record :=
  match e with
  | .users => (User.ofRow r).map .user
  | .userGroups => (UserGroup.ofRow r).map .userGroup
  | .assets => (Asset.ofRow r).map .asset
  | .assetFiles => (AssetFile.ofRow r).map .assetFile
  | .suppliers => (Supplier.ofRow r).map .supplier

/-! ## Records as documents -/

namespace Document

def choice {α : Type} [Choice α] (a : α) : Document := text (Choice.word a)

def timestamp (t : Timestamp) : Document := text t.text

def optional {α : Type} (f : α → Document) : Option α → Document
  | some a => f a
  | none => null

end Document

open Document in
/-- The document of a record, its members in the order of the record's parts. -/
def Record.document : Record → Document
  | user u => object [
      ("id", integer u.id),
      ("userName", text u.userName),
      ("role", choice u.role),
      ("createdAt", timestamp u.createdAt),
      ("status", flag u.status),
      ("avatarCosKey", optional text u.avatarCosKey)]
  | userGroup g => object [
      ("id", integer g.id),
      ("groupName", text g.groupName),
      ("createdBy", integer g.createdBy),
      ("createdAt", timestamp g.createdAt),
      ("memberCount", integer g.memberCount)]
  | asset a => object [
      ("id", integer a.id),
      ("assetName", text a.assetName),
      ("description", optional text a.description),
      ("ownerUserId", optional integer a.ownerUserId),
      ("ownerGroupId", optional integer a.ownerGroupId),
      ("assetType", choice a.assetType),
      ("visibility", choice a.visibility),
      ("createdAt", timestamp a.createdAt),
      ("updatedAt", optional timestamp a.updatedAt),
      ("relatedResourceCount", integer a.relatedResourceCount),
      ("version", integer a.version)]
  | assetFile f => object [
      ("id", integer f.id),
      ("assetId", integer f.assetId),
      ("bucketType", choice f.bucketType),
      ("fileName", text f.fileName),
      ("fileType", text f.fileType),
      ("fileSize", integer f.fileSize),
      ("cosKey", text f.cosKey),
      ("uploadUserId", integer f.uploadUserId),
      ("createdAt", timestamp f.createdAt)]
  | supplier s => object [
      ("id", integer s.id),
      ("name", text s.name),
      ("shortName", optional text s.shortName),
      ("status", text s.status),
      ("type", text s.supplierType),
      ("primaryContact", text s.primaryContact),
      ("phone", text s.phone),
      ("email", optional text s.email),
      ("regionCode", optional text s.regionCode),
      ("invoiceType", integer s.invoiceType),
      ("createdBy", integer s.createdBy),
      ("createdAt", timestamp s.createdAt)]

end AssetRegister
