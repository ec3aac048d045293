import AssetRegister.Listing.Engine
import AssetRegister.Proofs.Record.DocumentText
import AssetRegister.Proofs.Record.Shown
import AssetRegister.Proofs.Record.Timestamp

/-!
# Decoding a page of records

A page of records is shown as a document. Whoever receives it looks its members up by their names, and
gets the page back: every record in its place with all its parts, and the total if there is one. The one
part that has another form in documents than in the store is the timestamp.
-/

namespace AssetRegister

open Outcome

/-! ## Choices by their words -/

/-- A choice whose values are told apart by their words. -/
class DistinctWords (α : Type) [Choice α] : Prop where
  ofWord?_word : ∀ a : α, Choice.ofWord? (Choice.word a) = some a

instance : DistinctWords AssetType where
  ofWord?_word a := by cases a <;> rfl

instance : DistinctWords Visibility where
  ofWord?_word a := by cases a <;> rfl

instance : DistinctWords BucketType where
  ofWord?_word a := by cases a <;> rfl

instance : DistinctWords Role where
  ofWord?_word a := by cases a <;> rfl

/-! ## Parts of documents

Each reader gives what a document shows of a part, if it shows such a part at all. -/

namespace Document

def integer? : Document → Option Int
  | integer n => some n
  | _ => none

/-- The number that a document is, if it counts something. -/
def count? : Document → Option Nat
  | integer (.ofNat n) => some n
  | _ => none

def flag? : Document → Option Bool
  | flag b => some b
  | _ => none

def text? : Document → Option String
  | text s => some s
  | _ => none

def choice? {α : Type} [Choice α] (d : Document) : Option α := d.text?.bind Choice.ofWord?

def timestamp? (d : Document) : Option Timestamp := d.text?.bind Timestamp.ofShown?

/-- What a document shows of a part that may be absent. -/
def optional? {α : Type} (read : Document → Option α) : Document → Option (Option α)
  | null => some none
  | d => (read d).map some

/-- What all items of a list show. -/
def all? {α : Type} (read : Document → Option α) : Document → Option (List α)
  | list ds => ds.mapM read
  | _ => none

/-- What the member of a name shows. -/
def get? {α : Type} (d : Document) (name : String) (read : Document → Option α) : Option α :=
  (d.member? name).bind read

end Document

/-! ## Records and pages

The members are looked up by their names, so their order does not matter. -/

open Document in
def User.ofDocument? (d : Document) : Option User := do
  return {
    id := ← d.get? "id" integer?
    userName := ← d.get? "userName" text?
    role := ← d.get? "role" choice?
    createdAt := ← d.get? "createdAt" timestamp?
    status := ← d.get? "status" flag?
    avatarCosKey := ← d.get? "avatarCosKey" (optional? text?) }

open Document in
def UserGroup.ofDocument? (d : Document) : Option UserGroup := do
  return {
    id := ← d.get? "id" integer?
    groupName := ← d.get? "groupName" text?
    createdBy := ← d.get? "createdBy" integer?
    createdAt := ← d.get? "createdAt" timestamp?
    memberCount := ← d.get? "memberCount" integer? }

open Document in
def Asset.ofDocument? (d : Document) : Option Asset := do
  return {
    id := ← d.get? "id" integer?
    assetName := ← d.get? "assetName" text?
    description := ← d.get? "description" (optional? text?)
    ownerUserId := ← d.get? "ownerUserId" (optional? integer?)
    ownerGroupId := ← d.get? "ownerGroupId" (optional? integer?)
    assetType := ← d.get? "assetType" choice?
    visibility := ← d.get? "visibility" choice?
    createdAt := ← d.get? "createdAt" timestamp?
    updatedAt := ← d.get? "updatedAt" (optional? timestamp?)
    relatedResourceCount := ← d.get? "relatedResourceCount" integer?
    version := ← d.get? "version" integer? }

open Document in
def AssetFile.ofDocument? (d : Document) : Option AssetFile := do
  return {
    id := ← d.get? "id" integer?
    assetId := ← d.get? "assetId" integer?
    bucketType := ← d.get? "bucketType" choice?
    fileName := ← d.get? "fileName" text?
    fileType := ← d.get? "fileType" text?
    fileSize := ← d.get? "fileSize" integer?
    cosKey := ← d.get? "cosKey" text?
    uploadUserId := ← d.get? "uploadUserId" integer?
    createdAt := ← d.get? "createdAt" timestamp? }

open Document in
def Supplier.ofDocument? (d : Document) : Option Supplier := do
  return {
    id := ← d.get? "id" integer?
    name := ← d.get? "name" text?
    shortName := ← d.get? "shortName" (optional? text?)
    status := ← d.get? "status" text?
    supplierType := ← d.get? "type" text?
    primaryContact := ← d.get? "primaryContact" text?
    phone := ← d.get? "phone" text?
    email := ← d.get? "email" (optional? text?)
    regionCode := ← d.get? "regionCode" (optional? text?)
    invoiceType := ← d.get? "invoiceType" integer?
    createdBy := ← d.get? "createdBy" integer?
    createdAt := ← d.get? "createdAt" timestamp? }

def Record.ofDocument? (e : Entity) (d : Document) : Option Record :=
  match e with
  | .users => (User.ofDocument? d).map .user
  | .userGroups => (UserGroup.ofDocument? d).map .userGroup
  | .assets => (Asset.ofDocument? d).map .asset
  | .assetFiles => (AssetFile.ofDocument? d).map .assetFile
  | .suppliers => (Supplier.ofDocument? d).map .supplier

open Document in
/-- The page of an entity's records that a document shows. -/
def Items.ofDocument? (e : Entity) (d : Document) : Option Items := do
  return {
    records := ← d.get? "items" (all? (Record.ofDocument? e))
    total := ← d.get? "total" (optional? count?) }

/-! ## What is shown is decoded -/

namespace Document

variable {α : Type}

/-- The first member of the name is the one that is looked up. -/
theorem get?_cons (key name : String) (d : Document) (ms : List (String × Document))
    (read : Document → Option α) :
    (object ((key, d) :: ms)).get? name read =
      if name = key then read d else (object ms).get? name read := by
  show (List.lookup name ((key, d) :: ms)).bind read = _
  rw [List.lookup_cons]
  split
  · next h => rw [if_pos (beq_iff_eq.mp h), Option.bind_some]
  · next h =>
    rw [if_neg (beq_eq_false_iff_ne.mp (Bool.eq_false_iff.mpr (by simp [h])))]
    rfl

/-- A choice is read from its word. -/
theorem choice?_choice [Choice α] [DistinctWords α] (a : α) : (choice a).choice? = some a :=
  DistinctWords.ofWord?_word a

theorem timestamp?_timestamp {t : Timestamp} (h : t.isValid = true) :
    (timestamp t).timestamp? = some t :=
  Timestamp.ofShown?_text h

/-- A part that is present is never shown by nothing, so an absent one is told from it. -/
theorem optional?_optional {f : α → Document} {read : Document → Option α} {o : Option α}
    (hpresent : ∀ a ∈ o, f a ≠ .null ∧ read (f a) = some a) :
    (optional f o).optional? read = some o := by
  cases o with
  | none => rfl
  | some a =>
    obtain ⟨hnull, hread⟩ := hpresent a rfl
    show (f a).optional? read = some (some a)
    unfold optional?
    split
    · next heq => exact absurd heq hnull
    · rw [hread]
      rfl

theorem optional?_integer (o : Option Int) : (optional .integer o).optional? integer? = some o :=
  optional?_optional fun _ _ => ⟨nofun, rfl⟩

theorem optional?_text (o : Option String) : (optional .text o).optional? text? = some o :=
  optional?_optional fun _ _ => ⟨nofun, rfl⟩

theorem optional?_timestamp {o : Option Timestamp} (h : ∀ t ∈ o, t.isValid = true) :
    (optional timestamp o).optional? timestamp? = some o :=
  optional?_optional fun t ht => ⟨nofun, timestamp?_timestamp (h t ht)⟩

theorem optional?_count (o : Option Nat) :
    (optional (fun n => integer n) o).optional? count? = some o := by
  cases o <;> rfl

end Document

open Document in
/-- A user is decoded from what is shown of it. Here and below only the timestamps ask for something: that
they exist, without which their texts are not read. -/
theorem User.ofDocument?_document {u : User} (h : u.createdAt.isValid = true) :
    ofDocument? (Record.user u).document = some u := by
  simp [ofDocument?, Record.document, get?_cons, integer?, text?, flag?, choice?_choice,
    timestamp?_timestamp h, optional?_text]

open Document in
theorem UserGroup.ofDocument?_document {g : UserGroup} (h : g.createdAt.isValid = true) :
    ofDocument? (Record.userGroup g).document = some g := by
  simp [ofDocument?, Record.document, get?_cons, integer?, text?, timestamp?_timestamp h]

open Document in
theorem Asset.ofDocument?_document {a : Asset} (hcreated : a.createdAt.isValid = true)
    (hupdated : ∀ t ∈ a.updatedAt, t.isValid = true) :
    ofDocument? (Record.asset a).document = some a := by
  simp [ofDocument?, Record.document, get?_cons, integer?, text?, choice?_choice,
    timestamp?_timestamp hcreated, optional?_text, optional?_integer, optional?_timestamp hupdated]

open Document in
theorem AssetFile.ofDocument?_document {f : AssetFile} (h : f.createdAt.isValid = true) :
    ofDocument? (Record.assetFile f).document = some f := by
  simp [ofDocument?, Record.document, get?_cons, integer?, text?, choice?_choice,
    timestamp?_timestamp h]

open Document in
theorem Supplier.ofDocument?_document {s : Supplier} (h : s.createdAt.isValid = true) :
    ofDocument? (Record.supplier s).document = some s := by
  simp [ofDocument?, Record.document, get?_cons, integer?, text?, timestamp?_timestamp h,
    optional?_text]

/-! ## Records that come from rows -/

variable {r : Row} {i : Nat} {column : String}

/-- A timestamp that was read from a cell exists. -/
theorem Cell.isValid_of_timestamp {c : Cell} {t : Timestamp} (h : c.timestamp = .ok t) :
    t.isValid = true := by
  obtain ⟨s, -, hread⟩ := timestamp_eq_ok.mp h
  exact Timestamp.isValid_of_read hread

/-- If a timestamp that may be absent was read from a cell, it exists. -/
theorem Cell.isValid_of_optional {c : Cell} {o : Option Timestamp}
    (h : c.optional Cell.timestamp = .ok o) : ∀ t ∈ o, t.isValid = true := by
  rcases optional_eq_ok.mp h with ⟨-, rfl⟩ | ⟨-, t, ht, rfl⟩
  · exact nofun
  · rintro _ ⟨⟩
    exact isValid_of_timestamp ht

/-- A record that was read from a row is decoded from what is shown of it. -/
theorem Record.ofDocument?_document {e : Entity} {x : Record} (h : Record.ofRow e r = .ok x) :
    Record.ofDocument? e x.document = some x := by
  cases e with
  | users =>
    obtain ⟨u, hu, rfl⟩ := map_eq_ok.mp h
    -- of all the parts that were read only the timestamps matter
    simp only [User.ofRow, bind_eq_ok] at hu
    obtain ⟨_, -, _, -, _, -, _, hcreated, _, -, _, -, ⟨⟩⟩ := hu
    refine congrArg (Option.map _) (User.ofDocument?_document ?_)
    exact Cell.isValid_of_timestamp hcreated
  | userGroups =>
    obtain ⟨g, hg, rfl⟩ := map_eq_ok.mp h
    simp only [UserGroup.ofRow, bind_eq_ok] at hg
    obtain ⟨_, -, _, -, _, -, _, hcreated, _, -, ⟨⟩⟩ := hg
    refine congrArg (Option.map _) (UserGroup.ofDocument?_document ?_)
    exact Cell.isValid_of_timestamp hcreated
  | assets =>
    obtain ⟨a, ha, rfl⟩ := map_eq_ok.mp h
    simp only [Asset.ofRow, bind_eq_ok] at ha
    obtain ⟨_, -, _, -, _, -, _, -, _, -, _, -, _, -, _, hcreated, _, hupdated, _, -, _, -, ⟨⟩⟩ := ha
    refine congrArg (Option.map _) (Asset.ofDocument?_document ?_ ?_)
    · exact Cell.isValid_of_timestamp hcreated
    · exact Cell.isValid_of_optional hupdated
  | assetFiles =>
    obtain ⟨f, hf, rfl⟩ := map_eq_ok.mp h
    simp only [AssetFile.ofRow, bind_eq_ok] at hf
    obtain ⟨_, -, _, -, _, -, _, -, _, -, _, -, _, -, _, -, _, hcreated, ⟨⟩⟩ := hf
    refine congrArg (Option.map _) (AssetFile.ofDocument?_document ?_)
    exact Cell.isValid_of_timestamp hcreated
  | suppliers =>
    obtain ⟨s, hs, rfl⟩ := map_eq_ok.mp h
    simp only [Supplier.ofRow, bind_eq_ok] at hs
    obtain ⟨_, -, _, -, _, -, _, -, _, -, _, -, _, -, _, -, _, -, _, -, _, -, _, hcreated, ⟨⟩⟩ := hs
    refine congrArg (Option.map _) (Supplier.ofDocument?_document ?_)
    exact Cell.isValid_of_timestamp hcreated

/-! ## Pages -/

namespace Document

/-- A part that may be absent brings in no other numbers than the part. -/
theorem integral_optional {α : Type} {f : α → Document} (h : ∀ a, (f a).Integral) (o : Option α) :
    (optional f o).Integral := by
  cases o with
  | none => exact .null
  | some a => exact h a

/-- Records that were read from rows are decoded one after another. -/
theorem mapM_document {e : Entity} {xs : List Record} (h : ∀ x ∈ xs, ∃ r, Record.ofRow e r = .ok x) :
    (xs.map Record.document).mapM (Record.ofDocument? e) = some xs := by
  induction xs with
  | nil => rfl
  | cons x xs ih =>
    obtain ⟨⟨r, hr⟩, hxs⟩ := List.forall_mem_cons.mp h
    rw [List.map_cons, List.mapM_cons, Record.ofDocument?_document hr, ih hxs]
    rfl

end Document

open Document in
/-- Records have no numbers but integers. -/
theorem Record.integral_document (x : Record) : x.document.Integral := by
  have hchoice {α : Type} [Choice α] (a : α) : (choice a).Integral := .text
  have htimestamp (t : Timestamp) : (timestamp t).Integral := .text
  cases x <;> exact .object (by simp [hchoice, htimestamp, integral_optional, Integral.integer,
    Integral.text, Integral.flag])

open Document in
/-- A page has no numbers but integers either. -/
theorem Items.integral_document (items : Items) : items.document.Integral := by
  have hitems : (list (items.records.map Record.document)).Integral := by
    refine .list fun d hd => ?_
    obtain ⟨x, -, rfl⟩ := List.mem_map.mp hd
    exact x.integral_document
  exact .object (by simp [hitems, integral_optional, Integral.integer])

open Document in
/-- **A page of records is decoded from what is shown of it.** -/
theorem Items.ofDocument?_document {e : Entity} {items : Items}
    (h : ∀ x ∈ items.records, ∃ r, Record.ofRow e r = .ok x) :
    Items.ofDocument? e items.document = some items := by
  have hitems : items.document.get? "items" (all? (Record.ofDocument? e)) = some items.records :=
    mapM_document h
  have htotal : items.document.get? "total" (optional? count?) = some items.total :=
    optional?_count items.total
  unfold ofDocument?
  rw [hitems, htotal]
  rfl

end AssetRegister
