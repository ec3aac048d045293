import AssetRegister.Proofs.Record.Cell

/-!
# The parts of a record

A record is read part by part from the selected columns of a row, from left to right. For each type of
part, `PartType.Reads` says which contents it is read from, and `PartType.Fails` what is wrong with any
other. A reader of rows does no more than read its parts one after another, so it succeeds exactly if
every part can be read, and otherwise reports the leftmost one that cannot.

Main statement: `Record.readsAs_ofRow`.
-/

namespace AssetRegister

open Outcome

/-- The types of parts that records have. A choice is given by its words. -/
inductive PartType where
  | long
  | integer
  | flag
  | text
  | choice (words : List String)
  | timestamp
  | optional (part : PartType)

namespace Cell

/-- A cell has a content of another class than is expected of it. -/
def Unlike (c : Cell) (expected : StorageClass) (fault : ReadFault) : Prop :=
  c.value.storageClass ≠ expected ∧ fault = .wrongClass c.value.storageClass c.index c.column

/-- A cell has no text: its content is of another class, or garbled. -/
def Wordless (c : Cell) (fault : ReadFault) : Prop :=
  c.Unlike .text fault ∨ ∃ g, c.value = .garbled g ∧ fault = .garbled c.index g.fault

end Cell

namespace PartType

/-- The contents that a part is read from. -/
def Reads : PartType → Value → Prop
  | long, v => ∃ n, v = .integer n
  | integer, v => ∃ n, v = .integer n ∧ Width.bits32.Holds n
  | flag, v => ∃ n, v = .integer n
  | text, v => ∃ s, v = .text s
  | choice words, v => ∃ s ∈ words, v = .text s
  | timestamp, v => ∃ s t, v = .text s ∧ Timestamp.read s = .ok t
  | optional part, v => v = .null ∨ part.Reads v

/-- Why a part is not read from a cell. -/
def Fails : PartType → Cell → ReadFault → Prop
  | long, c, fault => c.Unlike .integer fault
  | integer, c, fault => c.Unlike .integer fault ∨
      ∃ n, c.value = .integer n ∧ ¬Width.bits32.Holds n ∧ fault = .outOfRange n c.index
  | flag, c, fault => c.Unlike .integer fault
  | text, c, fault => c.Wordless fault
  | choice words, c, fault => c.Wordless fault ∨
      ∃ s, c.value = .text s ∧ s ∉ words ∧ fault = .unknownWord c.index
  | timestamp, c, fault => c.Wordless fault ∨
      ∃ s reason, c.value = .text s ∧ Timestamp.read s = .error reason ∧
        fault = .badTimestamp c.index reason
  | optional part, c, fault => c.value ≠ .null ∧ part.Fails c fault

/-- A reader of cells reads the part from its contents, and fails at any other for the part's reason. -/
structure ReadBy {α : Type} (part : PartType) (read : Cell → Except ReadFault α) : Prop where
  eq_ok : ∀ c, (∃ a, read c = .ok a) ↔ part.Reads c.value
  eq_error : ∀ c fault, read c = .error fault ↔ part.Fails c fault

end PartType

/-! ## The readers of cells -/

namespace Cell

variable {c : Cell} {fault : ReadFault}

theorem long_eq_error : c.long = .error fault ↔ c.Unlike .integer fault := by
  unfold long Unlike wrong
  cases c.value <;> simp [Value.storageClass, eq_comm]

theorem text_eq_error : c.text = .error fault ↔ c.Wordless fault := by
  unfold text Wordless Unlike wrong
  cases c.value <;> simp [Value.storageClass, eq_comm]

end Cell

namespace PartType

theorem readBy_long : long.ReadBy Cell.long where
  eq_ok _ := exists_congr fun _ => Cell.long_eq_ok
  eq_error _ _ := Cell.long_eq_error

theorem readBy_text : text.ReadBy Cell.text where
  eq_ok _ := exists_congr fun _ => Cell.text_eq_ok
  eq_error _ _ := Cell.text_eq_error

/-- A flag is read from just what a long part is read from, and fails just as that does. -/
theorem readBy_flag : flag.ReadBy Cell.flag where
  eq_ok c := by
    simp only [Cell.flag_eq_ok]
    exact ⟨fun ⟨_, n, hn, _⟩ => ⟨n, hn⟩, fun ⟨n, hn⟩ => ⟨_, n, hn, rfl⟩⟩
  eq_error c fault := by
    unfold Cell.flag
    rw [bind_eq_error, Cell.long_eq_error]
    -- nothing can go wrong once there is an integer
    exact or_iff_left fun ⟨_, _, h⟩ => nomatch h

/-- There are two ways to miss an integer part: no integer, or one that is too wide. -/
theorem readBy_integer : integer.ReadBy Cell.integer where
  eq_ok _ := exists_congr fun _ => Cell.integer_eq_ok
  eq_error c fault := by
    unfold Cell.integer
    rw [bind_eq_error, Cell.long_eq_error]
    refine or_congr_right (exists_congr fun n => ?_)
    rw [Cell.long_eq_ok]
    refine and_congr_right fun _ => ?_
    unfold Width.Holds
    split
    · next h => exact ⟨nofun, fun hn => absurd h hn.1⟩
    · next h =>
      rw [and_iff_right h]
      exact ⟨fun hthrow => by cases hthrow; rfl, fun hfault => by rw [hfault]; rfl⟩

/-- There are two ways to miss a timestamp: no text, or one that spells none. -/
theorem readBy_timestamp : timestamp.ReadBy Cell.timestamp where
  eq_ok c := by
    simp only [Cell.timestamp_eq_ok]
    exact exists_comm
  eq_error c fault := by
    unfold Cell.timestamp
    rw [bind_eq_error, Cell.text_eq_error]
    -- the fault of a cell that holds no text is the same on both sides
    refine or_congr_right (exists_congr fun s => ?_)
    rw [Cell.text_eq_ok]
    cases Timestamp.read s with
    | ok t => exact ⟨fun h => (nomatch h.2), fun ⟨_, _, h, _⟩ => nomatch h⟩
    | error reason =>
      constructor
      · rintro ⟨hs, ⟨⟩⟩
        exact ⟨reason, hs, rfl, rfl⟩
      · rintro ⟨_, hs, ⟨⟩, rfl⟩
        exact ⟨hs, rfl⟩

/-- A word stands for a value of a choice exactly if it is one of the choice's words. -/
theorem mem_words_iff {α : Type} [Choice α] {s : String} :
    s ∈ Choice.words α ↔ ∃ a : α, Choice.ofWord? s = some a := by
  unfold Choice.words Choice.ofWord?
  rw [← Option.isSome_iff_exists, List.find?_isSome]
  simp

/-- A choice is read from its words and from no other text. -/
theorem readBy_choice (α : Type) [Choice α] :
    (choice (Choice.words α)).ReadBy (Cell.choice (α := α)) where
  eq_ok c := by
    unfold Cell.choice
    simp only [bind_eq_ok, Cell.text_eq_ok]
    constructor
    · rintro ⟨a, s, hs, h⟩
      split at h
      · next b hb => exact ⟨s, mem_words_iff.mpr ⟨b, hb⟩, hs⟩
      · cases h
    · rintro ⟨s, hmem, hs⟩
      obtain ⟨a, ha⟩ := mem_words_iff.mp hmem
      exact ⟨a, s, hs, by rw [ha]; rfl⟩
  eq_error c fault := by
    unfold Cell.choice
    rw [bind_eq_error, Cell.text_eq_error]
    refine or_congr_right (exists_congr fun s => ?_)
    rw [Cell.text_eq_ok, mem_words_iff (α := α)]
    refine and_congr_right fun _ => ?_
    -- with the text at hand the word decides
    cases Choice.ofWord? (α := α) s with
    | some a => exact ⟨nofun, fun h => absurd ⟨a, rfl⟩ h.1⟩
    | none =>
      constructor
      · rintro ⟨⟩
        exact ⟨fun ⟨_, h⟩ => (nomatch h), rfl⟩
      · rintro ⟨-, rfl⟩
        rfl

/-- A part that may be absent is read like the part, and from an empty cell besides. -/
theorem ReadBy.optional {α : Type} {part : PartType} {read : Cell → Except ReadFault α}
    (h : part.ReadBy read) : part.optional.ReadBy (Cell.optional read) where
  eq_ok c := by
    simp only [Cell.optional_eq_ok]
    show _ ↔ c.value = .null ∨ part.Reads c.value
    rw [← h.eq_ok]
    -- nothing is always read, and whatever else goes to the reader of the part
    by_cases hnull : c.value = .null
    · exact iff_of_true ⟨none, .inl ⟨hnull, rfl⟩⟩ (.inl hnull)
    · simp [hnull]
  eq_error c fault := by
    show _ ↔ c.value ≠ .null ∧ part.Fails c fault
    rw [← h.eq_error]
    unfold Cell.optional
    cases c.value with
    -- an empty cell is never a failure, so that neither side holds
    | null => simp
    | integer | real | text | garbled | blob => simp [map_eq_error]

end PartType

/-! ## Rows -/

namespace Row

/-- All parts can be read from their columns. -/
def Decodes (r : Row) (fields : List (PartType × String)) : Prop :=
  ∀ field ∈ fields, field.1.Reads (r.get field.2)

/-- What is wrong with the leftmost part that cannot be read from its column, if the first of the parts
has the given position. -/
def FailsFirst (r : Row) (position : Nat) (fields : List (PartType × String)) (fault : ReadFault) :
    Prop :=
  ∃ before part column after, fields = before ++ (part, column) :: after ∧ r.Decodes before ∧
    part.Fails (r.cell (position + before.length) column) fault

/-- What is read of some parts is there if they all can be read, and is otherwise the fault of the
leftmost that cannot. -/
structure ReadsAs {α : Type} (r : Row) (position : Nat) (fields : List (PartType × String))
    (x : Except ReadFault α) : Prop where
  eq_ok : (∃ a, x = .ok a) ↔ r.Decodes fields
  eq_error : ∀ fault, x = .error fault ↔ r.FailsFirst position fields fault

namespace ReadsAs

variable {α β : Type} {r : Row} {position : Nat} {fields : List (PartType × String)}

/-- What needs no more parts is there. -/
theorem pure (a : α) : r.ReadsAs position [] (.ok a) where
  eq_ok := iff_of_true ⟨a, rfl⟩ (List.forall_mem_nil _)
  eq_error fault := by
    refine iff_of_false nofun ?_
    rintro ⟨before, part, column, after, hnil, -⟩
    exact List.append_ne_nil_of_right_ne_nil _ (List.cons_ne_nil _ _) hnil.symm

/-- One more part is read in front of the others. -/
theorem bind {part : PartType} {column : String} {read : Cell → Except ReadFault α}
    {f : α → Except ReadFault β} (hread : part.ReadBy read)
    (hrest : ∀ a, r.ReadsAs (position + 1) fields (f a)) :
    r.ReadsAs position ((part, column) :: fields) (read (r.cell position column) >>= f) where
  eq_ok := by
    unfold Decodes
    rw [List.forall_mem_cons]
    show _ ↔ part.Reads (r.cell position column).value ∧ r.Decodes fields
    rw [← hread.eq_ok]
    simp only [bind_eq_ok]
    constructor
    · rintro ⟨b, a, ha, hb⟩
      exact ⟨⟨a, ha⟩, (hrest a).eq_ok.mp ⟨b, hb⟩⟩
    · rintro ⟨⟨a, ha⟩, hfields⟩
      obtain ⟨b, hb⟩ := (hrest a).eq_ok.mpr hfields
      exact ⟨b, a, ha, hb⟩
  eq_error fault := by
    rw [bind_eq_error]
    constructor
    · rintro (hfail | ⟨a, ha, hfail⟩)
      · exact ⟨[], part, column, fields, rfl, List.forall_mem_nil _, (hread.eq_error _ _).mp hfail⟩
      · obtain ⟨before, q, name, after, rfl, hbefore, hq⟩ := ((hrest a).eq_error fault).mp hfail
        -- the position counts the part that could be read
        refine ⟨(part, column) :: before, q, name, after, rfl,
          List.forall_mem_cons.mpr ⟨(hread.eq_ok _).mp ⟨a, ha⟩, hbefore⟩, ?_⟩
        rwa [List.length_cons, Nat.add_comm before.length, ← Nat.add_assoc]
    · rintro ⟨before, q, name, after, hcons, hbefore, hq⟩
      cases before with
      | nil =>
        cases hcons
        exact .inl ((hread.eq_error _ _).mpr hq)
      | cons first before =>
        cases hcons
        obtain ⟨hfirst, hbefore⟩ := List.forall_mem_cons.mp hbefore
        obtain ⟨a, ha⟩ := (hread.eq_ok (r.cell position column)).mpr hfirst
        refine .inr ⟨a, ha, ((hrest a).eq_error fault).mpr ⟨before, q, name, after, rfl, hbefore, ?_⟩⟩
        rwa [List.length_cons, Nat.add_comm before.length, ← Nat.add_assoc] at hq

/-- It does not matter what is made of the parts. -/
theorem map {x : Except ReadFault α} (h : r.ReadsAs position fields x) (f : α → β) :
    r.ReadsAs position fields (x.map f) where
  eq_ok := by
    rw [← h.eq_ok]
    simp [map_eq_ok]
  eq_error fault := by rw [map_eq_error, h.eq_error]

end ReadsAs

end Row

/-! ## The five entities -/

namespace Entity

/-- The parts of an entity's record, in the order of the selected columns. -/
def parts : Entity → List PartType
  | users => [.long, .text, .choice (Choice.words Role), .timestamp, .flag, .optional .text]
  | userGroups => [.long, .text, .long, .timestamp, .integer]
  | assets => [.long, .text, .optional .text, .optional .long, .optional .long,
      .choice (Choice.words AssetType), .choice (Choice.words Visibility), .timestamp,
      .optional .timestamp, .integer, .integer]
  | assetFiles => [.long, .long, .choice (Choice.words BucketType), .text, .text, .long, .text, .long,
      .timestamp]
  | suppliers => [.long, .text, .optional .text, .text, .text, .text, .text, .optional .text,
      .optional .text, .integer, .long, .timestamp]

/-- The parts with the columns that they are read from. -/
def fields (e : Entity) : List (PartType × String) := e.parts.zip e.selectColumns

/-- Every selected column has its part, and no part is without a column. -/
theorem columns_fields (e : Entity) : e.fields.map Prod.snd = e.selectColumns := by
  cases e <;> rfl

end Entity

open PartType Row.ReadsAs

/-- The reader of users follows their parts. Each of the five readers is a chain of binds, with one step
for each part and nothing in between, and so the proof has the shape of the reader. -/
theorem User.readsAs_ofRow (r : Row) : r.ReadsAs 0 (Entity.fields .users) (User.ofRow r) := by
  unfold User.ofRow
  exact .bind readBy_long fun _ => .bind readBy_text fun _ => .bind (readBy_choice Role) fun _ =>
    .bind readBy_timestamp fun _ => .bind readBy_flag fun _ => .bind readBy_text.optional fun _ =>
    .pure _

theorem UserGroup.readsAs_ofRow (r : Row) :
    r.ReadsAs 0 (Entity.fields .userGroups) (UserGroup.ofRow r) := by
  unfold UserGroup.ofRow
  exact .bind readBy_long fun _ => .bind readBy_text fun _ => .bind readBy_long fun _ =>
    .bind readBy_timestamp fun _ => .bind readBy_integer fun _ => .pure _

theorem Asset.readsAs_ofRow (r : Row) : r.ReadsAs 0 (Entity.fields .assets) (Asset.ofRow r) := by
  unfold Asset.ofRow
  exact .bind readBy_long fun _ => .bind readBy_text fun _ => .bind readBy_text.optional fun _ =>
    .bind readBy_long.optional fun _ => .bind readBy_long.optional fun _ =>
    .bind (readBy_choice AssetType) fun _ => .bind (readBy_choice Visibility) fun _ =>
    .bind readBy_timestamp fun _ => .bind readBy_timestamp.optional fun _ =>
    .bind readBy_integer fun _ => .bind readBy_integer fun _ => .pure _

theorem AssetFile.readsAs_ofRow (r : Row) :
    r.ReadsAs 0 (Entity.fields .assetFiles) (AssetFile.ofRow r) := by
  unfold AssetFile.ofRow
  exact .bind readBy_long fun _ => .bind readBy_long fun _ => .bind (readBy_choice BucketType) fun _ =>
    .bind readBy_text fun _ => .bind readBy_text fun _ => .bind readBy_long fun _ =>
    .bind readBy_text fun _ => .bind readBy_long fun _ => .bind readBy_timestamp fun _ => .pure _

theorem Supplier.readsAs_ofRow (r : Row) :
    r.ReadsAs 0 (Entity.fields .suppliers) (Supplier.ofRow r) := by
  unfold Supplier.ofRow
  exact .bind readBy_long fun _ => .bind readBy_text fun _ => .bind readBy_text.optional fun _ =>
    .bind readBy_text fun _ => .bind readBy_text fun _ => .bind readBy_text fun _ =>
    .bind readBy_text fun _ => .bind readBy_text.optional fun _ => .bind readBy_text.optional fun _ =>
    .bind readBy_integer fun _ => .bind readBy_long fun _ => .bind readBy_timestamp fun _ => .pure _

/-- **A record is read from left to right.** It is there exactly if all its parts can be read from their
columns, and otherwise the leftmost that cannot is reported with its position. -/
theorem Record.readsAs_ofRow (e : Entity) (r : Row) : r.ReadsAs 0 e.fields (Record.ofRow e r) := by
  cases e with
  | users => exact (User.readsAs_ofRow r).map _
  | userGroups => exact (UserGroup.readsAs_ofRow r).map _
  | assets => exact (Asset.readsAs_ofRow r).map _
  | assetFiles => exact (AssetFile.readsAs_ofRow r).map _
  | suppliers => exact (Supplier.readsAs_ofRow r).map _

end AssetRegister
