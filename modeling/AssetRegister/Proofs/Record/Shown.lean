import AssetRegister.Proofs.Condition.Naming
import AssetRegister.Proofs.Condition.Reach
import AssetRegister.Proofs.Record.Cell

/-!
# What a record shows is what conditions test

Four tables say what a record shows of a row: the selected columns in their order, the parts of the
record in theirs, the names of the members of its document, and the attributes with their columns. They
agree: the members of the document show the selected columns one after another, and a member that bears
an attribute's name shows the attribute's column (`Record.shows_document`). So what a document says of an
attribute is what a condition on this attribute finds in the row.

Main statement: `Record.equals_iff_shown`.
-/

namespace AssetRegister

open Outcome

/-! ## Members of documents -/

namespace Document

/-- The members of an object. -/
def members : Document → List (String × Document)
  | object ms => ms
  | _ => []

/-- The member of the given name. -/
def member? (d : Document) (name : String) : Option Document := d.members.lookup name

end Document

/-- The document of an operand. -/
def Operand.document : Operand → Document
  | integer n => .integer n
  | text s => .text s

namespace AttributeType

/-- Operands of an attribute's own type. Flags and timestamps are shown in another form than they are
stored in, so they have none. A relation has none either: its column is shown as it is stored, but what it
is tested against is a row. -/
def accepts : AttributeType → Operand → Bool
  | integer, .integer _ => true
  | long, .integer _ => true
  | text, .text _ => true
  | choice, .text _ => true
  | _, _ => false

/-- What a document shows of a stored content, by the type of the attribute. -/
inductive Shows : AttributeType → Value → Document → Prop where
  | absent {type : AttributeType} : Shows type .null .null
  | number {type : AttributeType} {w : Width} {n : Int} (h : type.kind = .numeric w) :
      Shows type (.integer n) (.integer n)
  | flag {n : Int} : Shows .flag (.integer n) (.flag (n != 0))
  | text {type : AttributeType} {s : String} (h : type = .text ∨ type = .choice) :
      Shows type (.text s) (.text s)
  | timestamp {s : String} {t : Timestamp} (h : Timestamp.read s = .ok t) :
      Shows .timestamp (.text s) (.text t.text)

end AttributeType

namespace Entity

/-- If a name is one of the entity's attributes, then of the given column and type. -/
def Declares (e : Entity) (name column : String) (type : AttributeType) : Prop :=
  ∀ a ∈ e.attribute? name, a.column = column ∧ a.type = type

instance (e : Entity) (name column : String) (type : AttributeType) :
    Decidable (e.Declares name column type) := by
  unfold Declares
  infer_instance

/-- A member of a document shows a column of a row, and an attribute of the member's name has this
column. -/
def Shows (e : Entity) (r : Row) (column : String) (m : String × Document) : Prop :=
  ∃ type, e.Declares m.1 column type ∧ type.Shows (r.get column) m.2

/-- An attribute is found by its name: no two of an entity share one. -/
theorem attribute?_name {e : Entity} {a : Attribute} (ha : a ∈ e.attributes) :
    e.attribute? a.name = some a := by
  revert a
  cases e <;> decide

/-- Names of attributes have no point, so one that is written with dots is a single segment. -/
theorem point_notMem_name {e : Entity} {a : Attribute} (ha : a ∈ e.attributes) :
    '.' ∉ a.name.toList := by
  revert a
  cases e <;> decide

/-- Columns take operands of their attribute's type as they are. -/
theorem convert_of_accepts {e : Entity} {a : Attribute} (ha : a ∈ e.attributes) {v : Operand}
    (hv : a.type.accepts v = true) : (e.affinity a.column).convert v.value = v.value := by
  -- only the affinities of the columns matter, and these are a table
  have haffinity : ∀ a ∈ e.attributes,
      ((a.type = .integer ∨ a.type = .long) → e.affinity a.column = .numeric) ∧
      ((a.type = .text ∨ a.type = .choice) → e.affinity a.column = .text) := by
    cases e <;> decide
  obtain ⟨hnumeric, htext⟩ := haffinity a ha
  cases v with
  | integer n =>
    have htype : a.type = .integer ∨ a.type = .long := by
      cases h : a.type <;> rw [h] at hv <;> simp [AttributeType.accepts] at hv ⊢
    rw [hnumeric htype]
    rfl
  | text s =>
    have htype : a.type = .text ∨ a.type = .choice := by
      cases h : a.type <;> rw [h] at hv <;> simp [AttributeType.accepts] at hv ⊢
    rw [htext htype]
    rfl

end Entity

/-! ## Documents show the selected columns

Each part of a record is read from one cell and written as one member. -/

section

variable {e : Entity} {r : Row} {i : Nat} {column name : String}

/-- An integer is shown as it is stored, be it of a number or of a relation. -/
theorem shows_long {w : Width} (type : AttributeType) (hname : e.Declares name column type)
    (hkind : type.kind = .numeric w) {n : Int} (h : (r.cell i column).long = .ok n) :
    e.Shows r column (name, .integer n) := by
  have hget : r.get column = .integer n := Cell.long_eq_ok.mp h
  refine ⟨type, hname, ?_⟩
  rw [hget]
  exact .number hkind

theorem shows_integer (hname : e.Declares name column .integer) {n : Int}
    (h : (r.cell i column).integer = .ok n) : e.Shows r column (name, .integer n) := by
  have hlong := Cell.long_eq_ok.mpr (Cell.integer_eq_ok.mp h).1
  exact shows_long .integer hname rfl hlong

theorem shows_flag (hname : e.Declares name column .flag) {b : Bool}
    (h : (r.cell i column).flag = .ok b) : e.Shows r column (name, .flag b) := by
  obtain ⟨n, hget, rfl⟩ := Cell.flag_eq_ok.mp h
  refine ⟨.flag, hname, ?_⟩
  rw [show r.get column = .integer n from hget]
  exact .flag

theorem shows_text (hname : e.Declares name column .text) {s : String}
    (h : (r.cell i column).text = .ok s) : e.Shows r column (name, .text s) := by
  have hget : r.get column = .text s := Cell.text_eq_ok.mp h
  refine ⟨.text, hname, ?_⟩
  rw [hget]
  exact .text (.inl rfl)

/-- A choice is shown by the word that is stored. -/
theorem shows_choice {α : Type} [Choice α] (hname : e.Declares name column .choice) {a : α}
    (h : (r.cell i column).choice = .ok a) : e.Shows r column (name, .choice a) := by
  have hget : r.get column = .text (Choice.word a) := Cell.value_of_choice h
  refine ⟨.choice, hname, ?_⟩
  rw [hget]
  exact .text (.inr rfl)

/-- A timestamp is shown in its written form, whatever spelling is stored. -/
theorem shows_timestamp (hname : e.Declares name column .timestamp) {t : Timestamp}
    (h : (r.cell i column).timestamp = .ok t) : e.Shows r column (name, .timestamp t) := by
  obtain ⟨s, hget, hread⟩ := Cell.timestamp_eq_ok.mp h
  refine ⟨.timestamp, hname, ?_⟩
  rw [show r.get column = .text s from hget]
  exact .timestamp hread

/-- A part that may be absent shows an empty cell by nothing, and any other like a part that has to be
present. -/
theorem shows_optional {α : Type} {read : Cell → Except ReadFault α} {f : α → Document}
    (type : AttributeType) (hname : e.Declares name column type)
    (hpresent : ∀ a, read (r.cell i column) = .ok a → e.Shows r column (name, f a)) {o : Option α}
    (h : (r.cell i column).optional read = .ok o) :
    e.Shows r column (name, .optional f o) := by
  rcases Cell.optional_eq_ok.mp h with ⟨hnull, rfl⟩ | ⟨-, a, hread, rfl⟩
  · refine ⟨type, hname, ?_⟩
    rw [show r.get column = .null from hnull]
    exact .absent
  · exact hpresent a hread

end

variable {r : Row}

/-- What is shown of a user. For each of the five entities the reader is taken apart once, and its parts
are matched with the columns in their order. -/
theorem User.shows_document {u : User} (h : User.ofRow r = .ok u) :
    List.Forall₂ (Entity.Shows .users r) (Entity.selectColumns .users)
      (Record.user u).document.members := by
  simp only [User.ofRow, bind_eq_ok] at h
  obtain ⟨id, hid, name, hname, role, hrole, created, hcreated, status, hstatus, avatar, havatar,
    ⟨⟩⟩ := h
  exact
    .cons (shows_long .long (by decide) rfl hid) <|
    .cons (shows_text (by decide) hname) <|
    .cons (shows_choice (by decide) hrole) <|
    .cons (shows_timestamp (by decide) hcreated) <|
    .cons (shows_flag (by decide) hstatus) <|
    .cons (shows_optional .text (by decide) (fun _ => shows_text (by decide)) havatar) .nil

theorem UserGroup.shows_document {g : UserGroup} (h : UserGroup.ofRow r = .ok g) :
    List.Forall₂ (Entity.Shows .userGroups r) (Entity.selectColumns .userGroups)
      (Record.userGroup g).document.members := by
  simp only [UserGroup.ofRow, bind_eq_ok] at h
  obtain ⟨id, hid, name, hname, creator, hcreator, created, hcreated, count, hcount, ⟨⟩⟩ := h
  exact
    .cons (shows_long .long (by decide) rfl hid) <|
    .cons (shows_text (by decide) hname) <|
    .cons (shows_long (.relation .users) (by decide) rfl hcreator) <|
    .cons (shows_timestamp (by decide) hcreated) <|
    .cons (shows_integer (by decide) hcount) .nil

theorem Asset.shows_document {a : Asset} (h : Asset.ofRow r = .ok a) :
    List.Forall₂ (Entity.Shows .assets r) (Entity.selectColumns .assets)
      (Record.asset a).document.members := by
  simp only [Asset.ofRow, bind_eq_ok] at h
  obtain ⟨id, hid, name, hname, description, hdescription, user, huser, group, hgroup, type, htype,
    visibility, hvisibility, created, hcreated, updated, hupdated, related, hrelated, version,
    hversion, ⟨⟩⟩ := h
  exact
    .cons (shows_long .long (by decide) rfl hid) <|
    .cons (shows_text (by decide) hname) <|
    .cons (shows_optional .text (by decide) (fun _ => shows_text (by decide)) hdescription) <|
    .cons (shows_optional .long (by decide) (fun _ => shows_long .long (by decide) rfl) huser) <|
    .cons (shows_optional .long (by decide) (fun _ => shows_long .long (by decide) rfl) hgroup) <|
    .cons (shows_choice (by decide) htype) <|
    .cons (shows_choice (by decide) hvisibility) <|
    .cons (shows_timestamp (by decide) hcreated) <|
    .cons (shows_optional .timestamp (by decide) (fun _ => shows_timestamp (by decide)) hupdated) <|
    .cons (shows_integer (by decide) hrelated) <|
    .cons (shows_integer (by decide) hversion) .nil

theorem AssetFile.shows_document {f : AssetFile} (h : AssetFile.ofRow r = .ok f) :
    List.Forall₂ (Entity.Shows .assetFiles r) (Entity.selectColumns .assetFiles)
      (Record.assetFile f).document.members := by
  simp only [AssetFile.ofRow, bind_eq_ok] at h
  obtain ⟨id, hid, asset, hasset, bucket, hbucket, name, hname, type, htype, size, hsize, key, hkey,
    user, huser, created, hcreated, ⟨⟩⟩ := h
  -- the asset's identifier is shown under a name that is no attribute
  exact
    .cons (shows_long .long (by decide) rfl hid) <|
    .cons (shows_long .long (by decide) rfl hasset) <|
    .cons (shows_choice (by decide) hbucket) <|
    .cons (shows_text (by decide) hname) <|
    .cons (shows_text (by decide) htype) <|
    .cons (shows_long .long (by decide) rfl hsize) <|
    .cons (shows_text (by decide) hkey) <|
    .cons (shows_long .long (by decide) rfl huser) <|
    .cons (shows_timestamp (by decide) hcreated) .nil

theorem Supplier.shows_document {s : Supplier} (h : Supplier.ofRow r = .ok s) :
    List.Forall₂ (Entity.Shows .suppliers r) (Entity.selectColumns .suppliers)
      (Record.supplier s).document.members := by
  simp only [Supplier.ofRow, bind_eq_ok] at h
  obtain ⟨id, hid, name, hname, short, hshort, status, hstatus, type, htype, contact, hcontact, phone,
    hphone, email, hemail, region, hregion, invoice, hinvoice, creator, hcreator, created, hcreated,
    ⟨⟩⟩ := h
  exact
    .cons (shows_long .long (by decide) rfl hid) <|
    .cons (shows_text (by decide) hname) <|
    .cons (shows_optional .text (by decide) (fun _ => shows_text (by decide)) hshort) <|
    .cons (shows_text (by decide) hstatus) <|
    .cons (shows_text (by decide) htype) <|
    .cons (shows_text (by decide) hcontact) <|
    .cons (shows_text (by decide) hphone) <|
    .cons (shows_optional .text (by decide) (fun _ => shows_text (by decide)) hemail) <|
    .cons (shows_optional .text (by decide) (fun _ => shows_text (by decide)) hregion) <|
    .cons (shows_integer (by decide) hinvoice) <|
    .cons (shows_long .long (by decide) rfl hcreator) <|
    .cons (shows_timestamp (by decide) hcreated) .nil

/-- The members of a record's document show the selected columns of its row, one after another. -/
theorem Record.shows_document {e : Entity} {x : Record} (h : Record.ofRow e r = .ok x) :
    List.Forall₂ (e.Shows r) e.selectColumns x.document.members := by
  cases e with
  | users =>
    obtain ⟨u, hu, rfl⟩ := map_eq_ok.mp h
    exact User.shows_document hu
  | userGroups =>
    obtain ⟨g, hg, rfl⟩ := map_eq_ok.mp h
    exact UserGroup.shows_document hg
  | assets =>
    obtain ⟨a, ha, rfl⟩ := map_eq_ok.mp h
    exact Asset.shows_document ha
  | assetFiles =>
    obtain ⟨f, hf, rfl⟩ := map_eq_ok.mp h
    exact AssetFile.shows_document hf
  | suppliers =>
    obtain ⟨s, hs, rfl⟩ := map_eq_ok.mp h
    exact Supplier.shows_document hs

/-! ## Conditions on attributes -/

/-- An attribute's own name resolves to its column. -/
theorem Path.resolve_name {e : Entity} {a : Attribute} (ha : a ∈ e.attributes) :
    resolve e .dotted a.name = .ok ⟨[], e, a.column, a.type.kind⟩ := by
  unfold resolve
  rw [segments_of_notMem .dotted (Entity.point_notMem_name ha)]
  exact follow_singleton_eq_ok.mpr ⟨a, Entity.attribute?_name ha, rfl⟩

/-- A condition on an attribute of the entity itself holds of a row whose content passes the test. -/
theorem Predicate.holds_test {db : Database} {e : Entity} {column : String} {kind : Kind}
    {test : Test} :
    (Predicate.mk [⟨⟨[], e, column, kind⟩, test⟩]).holds db r = true ↔
      test.eval (e.affinity column) (r.get column) = some true :=
  holds_single

namespace AttributeType

/-- A content that is shown equals an operand of the attribute's type exactly if what is shown does. -/
theorem Shows.equal_iff {type : AttributeType} {content : Value} {d : Document}
    (h : type.Shows content d) (hnull : d ≠ .null) {v : Operand} (hv : type.accepts v = true) :
    content.equal v.value = true ↔ d = v.document := by
  -- the ways to show a content; those without operands leave nothing to prove
  cases h with
  | absent => exact absurd rfl hnull
  | @number _ _ n hkind =>
    cases v with
    | integer m =>
      rw [Value.equal_iff]
      simp [Operand.value, Operand.document, Value.order?]
    | text s => cases type <;> simp [accepts, kind] at hv hkind
  | flag => cases v <;> cases hv
  | @text _ s htype =>
    cases v with
    | integer m => rcases htype with rfl | rfl <;> cases hv
    | text t => simp [Operand.value, Operand.document, Value.equal_text]
  | timestamp => cases v <;> cases hv

/-- Nothing is shown exactly of an empty cell. -/
theorem Shows.null_iff {type : AttributeType} {content : Value} {d : Document}
    (h : type.Shows content d) : content = .null ↔ d = .null := by
  cases h <;> simp

end AttributeType

/-- **What a record shows of an attribute is what conditions on it test.** For a row that can be read:

* the members of its document show the selected columns one after another, each under the name of the
  attribute of its column;
* if something is shown of an attribute, a test of equality holds of the row exactly for the operand that
  is shown, and the row does not pass for one without the attribute;
* if nothing is shown of an attribute, no test of equality holds of the row, and the row passes for one
  without the attribute. -/
theorem Record.equals_iff_shown {e : Entity} {x : Record} (hx : Record.ofRow e r = .ok x) :
    List.Forall₂ (e.Shows r) e.selectColumns x.document.members ∧
    ∀ a ∈ e.attributes, ∀ d, x.document.member? a.name = some d →
      ∀ v, a.type.accepts v = true → ∃ equals isNull,
        Condition.equals e a.name v = .ok equals ∧
        Condition.isNull e a.name = .ok isNull ∧
        ∀ db : Database,
          (d ≠ .null →
            ((Predicate.mk [equals]).holds db r = true ↔ d = v.document) ∧
            (Predicate.mk [isNull]).holds db r = false) ∧
          (d = .null →
            (Predicate.mk [equals]).holds db r = false ∧
            (Predicate.mk [isNull]).holds db r = true) := by
  have hshows := shows_document hx
  refine ⟨hshows, fun a ha d hd v hv => ?_⟩
  -- the member of the attribute's name shows the attribute's column
  obtain ⟨before, after, hmembers, -⟩ := List.lookup_eq_some_iff.mp hd
  have hmem : (a.name, d) ∈ x.document.members := by
    rw [hmembers]
    exact List.mem_append_right _ List.mem_cons_self
  obtain ⟨column, -, type, hdeclares, hshown⟩ := exists_mem_of_forall₂ hshows _ hmem
  obtain ⟨rfl, rfl⟩ := hdeclares a (Entity.attribute?_name ha)
  have hresolve := Path.resolve_name ha
  let path : Path := ⟨[], e, a.column, a.type.kind⟩
  refine ⟨⟨path, .compare .eq v⟩, ⟨path, .isNull⟩, ?_, ?_, fun db => ?_⟩
  · unfold Condition.equals
    rw [hresolve]
    rfl
  · unfold Condition.isNull
    rw [hresolve]
    rfl
  · have hequals : (Predicate.mk [⟨path, .compare .eq v⟩]).holds db r = true ↔
        (r.get a.column).equal v.value = true :=
      Predicate.holds_test.trans (Test.eval_equals (Entity.convert_of_accepts ha hv))
    have hisNull : (Predicate.mk [⟨path, .isNull⟩]).holds db r = true ↔ d = .null :=
      Predicate.holds_test.trans (Test.eval_isNull.trans hshown.null_iff)
    constructor
    · intro hpresent
      exact ⟨hequals.trans (hshown.equal_iff hpresent hv),
        Bool.eq_false_iff.mpr fun h => hpresent (hisNull.mp h)⟩
    · intro habsent
      refine ⟨Bool.eq_false_iff.mpr fun h => ?_, hisNull.mpr habsent⟩
      have hequal := hequals.mp h
      rw [hshown.null_iff.mpr habsent, Value.equal_iff] at hequal
      cases hequal

/-! ## A supplier without a region

Its kind is shown under another name than the column has. -/

def acmeRow : Row :=
  ⟨3, [("supplier_name", .text "Acme"), ("status", .text "new"), ("supplier_type", .text "MAKER"),
    ("primary_contact", .text "Dana"), ("contact_phone", .text "1"), ("invoice_type", .integer 2),
    ("created_by", .integer 1), ("created_at", .text "2024-01-10 09:00:00")]⟩

def acme : Supplier where
  id := 3
  name := "Acme"
  shortName := none
  status := "new"
  supplierType := "MAKER"
  primaryContact := "Dana"
  phone := "1"
  email := none
  regionCode := none
  invoiceType := 2
  createdBy := 1
  createdAt := ⟨2024, 1, 10, 9, 0, 0⟩

/-- The supplier passes for one of its kind, and for one without a region. -/
theorem equals_iff_shown_acme :
    Record.ofRow .suppliers acmeRow = .ok (.supplier acme) ∧
    ∃ equals isNull,
      Condition.equals .suppliers "type" (.text "MAKER") = .ok equals ∧
      Condition.isNull .suppliers "regionCode" = .ok isNull ∧
      ∀ db : Database, (Predicate.mk [equals]).holds db acmeRow = true ∧
        (Predicate.mk [isNull]).holds db acmeRow = true := by
  have hread : Record.ofRow .suppliers acmeRow = .ok (.supplier acme) := rfl
  obtain ⟨-, hall⟩ := Record.equals_iff_shown hread
  obtain ⟨equals, _, hequals, -, htype⟩ :=
    hall ⟨"type", "supplier_type", .text⟩ (by decide) (.text "MAKER") rfl (.text "MAKER") rfl
  obtain ⟨_, isNull, -, hisNull, hregion⟩ :=
    hall ⟨"regionCode", "region_code", .text⟩ (by decide) .null rfl (.text "EU") rfl
  refine ⟨hread, equals, isNull, hequals, hisNull, fun db => ⟨?_, ?_⟩⟩
  · exact ((htype db).1 nofun).1.mpr rfl
  · exact ((hregion db).2 rfl).2

end AssetRegister
