import AssetRegister.Application.Run
import AssetRegister.Proofs.CommandLine.Words
import AssetRegister.Proofs.Filter.Clauses
import AssetRegister.Proofs.Listing.Selected
import AssetRegister.Proofs.Record.Decoding

/-!
# The command line lists what the engine lists

Between the engine's answer and what the program writes stand the words of the command line, the scope of
the ownership options, and the text of a document. None of them adds, drops or changes anything: the
program writes one document and the end of its line, and whoever decodes the document has the page that the
engine gave. If there is no page, then the fault is the engine's or the scope's, and nothing is written.

Main statement: `CommandLine.listing_written`.
-/

namespace AssetRegister

open Outcome

/-- A text that shows a page: one document and the end of its line, and the page is decoded from the
document. -/
def Items.Written (items : Items) (e : Entity) (s : String) : Prop :=
  ∃ text, s = text ++ "\n" ∧ (Document.read? text).bind (ofDocument? e) = some items

/-- A page whose records come from rows is shown by what is written for it. -/
theorem Items.written_document {e : Entity} {items : Items}
    (h : ∀ x ∈ items.records, ∃ r, Record.ofRow e r = .ok x) :
    items.Written e (items.document.write ++ "\n") := by
  refine ⟨items.document.write, rfl, ?_⟩
  rw [Document.read?_write items.integral_document, Option.bind_some]
  exact Items.ofDocument?_document h

/-- The program finds the database on the disk, and the settings say how filters are read. -/
def Disk.Serves (disk : Disk) (home : String) (environment : List (String × String))
    (db : Database) (mode : ParseMode) : Prop :=
  ∃ settings found left, disk.loadSettings home environment = (settings, found) ∧
    settings.mode = mode ∧ found.openDatabase (settings.folderOr home) = (.ok db, left) ∧
    db.checkVersion = .ok ()

namespace CommandLine

/-- What the engine answers to a listing in the scope of its ownership options. -/
def answer (db : Database) (e : Entity) (mode : ParseMode) (raw : RawParams) (o : Ownership) :
    Except Fault Items := do
  let scope ← (listArguments e raw o).scope e
  db.list e mode raw.resolve scope

/-- The command fails as the engine does, before anything is written. -/
theorem run_list_of_error {db : Database} {e : Entity} {mode : ParseMode} {raw : RawParams}
    {o : Ownership} {fault : Fault} (h : answer db e mode raw o = .error fault) :
    (Command.list e (listArguments e raw o)).run db mode = .error fault := by
  show ((listArguments e raw o).scope e >>= fun scope => db.list e mode raw.resolve scope >>= _) = _
  -- the fault is that of the scope, before the engine is asked, or the engine's
  rcases bind_eq_error.mp h with hscope | ⟨scope, hscope, hlist⟩
  · rw [hscope]
    rfl
  · rw [hscope]
    show (db.list e mode raw.resolve scope >>= _) = _
    rw [hlist]
    rfl

/-- The command writes the page that the engine gives. -/
theorem run_list_of_ok {db : Database} {e : Entity} {mode : ParseMode} {raw : RawParams}
    {o : Ownership} {items : Items} (h : answer db e mode raw o = .ok items) :
    ∃ s, (Command.list e (listArguments e raw o)).run db mode = .ok s ∧ items.Written e s := by
  obtain ⟨scope, hscope, hlist⟩ := bind_eq_ok.mp h
  -- the records were read from rows, so their timestamps exist and can be decoded
  obtain ⟨rows, -, hread⟩ := Database.exists_selected_of_list hlist
  have hrows : ∀ x ∈ items.records, ∃ r, Record.ofRow e r = .ok x := by
    intro x hx
    obtain ⟨r, -, hr⟩ := hread x hx
    exact ⟨r, hr⟩
  refine ⟨items.document.write ++ "\n", ?_, Items.written_document hrows⟩
  show ((listArguments e raw o).scope e >>= fun scope => db.list e mode raw.resolve scope >>= _) = _
  rw [hscope]
  show (db.list e mode raw.resolve scope >>= _) = _
  rw [hlist]
  rfl

/-- The program ends as its command does. -/
theorem run_of_read {disk : Disk} {home : String} {environment : List (String × String)}
    {db : Database} {mode : ParseMode} (hserves : disk.Serves home environment db mode)
    {words : List String} {command : Command} (hread : read words = .ok ⟨none, command⟩) :
    (disk.run home environment words).1 =
      match command.run db mode with
      | .error fault => .failed fault
      | .ok s => .done s := by
  obtain ⟨settings, found, left, hsettings, rfl, hopen, hversion⟩ := hserves
  have hrun : Invocation.run ⟨none, command⟩ settings home found =
      (command.run db settings.mode, left) := by
    simp only [Invocation.run, Option.getD_none, hopen, hversion]
  unfold Disk.run
  simp only [hread, hsettings, hrun]
  cases command.run db settings.mode <;> rfl

/-- **The command line lists exactly what the engine lists.** The words are read as the listing that they
ask for, and:

* if the scope of the options or the engine is at fault, then the listing fails with that fault, and the
  program writes nothing;
* if the engine answers with a page, then a document and the end of its line are written, from which the
  page is decoded: the same records in the same order, with the same texts and integers, and the same
  total. -/
theorem listing_written {o : Ownership} (ho : o.Fits) (e : Entity) (raw : RawParams) (db : Database)
    (mode : ParseMode) :
    read (listWords e raw o) = .ok ⟨none, .list e (listArguments e raw o)⟩ ∧
    (∀ fault, answer db e mode raw o = .error fault →
      (Command.list e (listArguments e raw o)).run db mode = .error fault ∧
      ∀ disk home environment, Disk.Serves disk home environment db mode →
        (disk.run home environment (listWords e raw o)).1 = .failed fault ∧
        (disk.run home environment (listWords e raw o)).1.output = "") ∧
    (∀ items, answer db e mode raw o = .ok items → ∃ s,
      (Command.list e (listArguments e raw o)).run db mode = .ok s ∧ items.Written e s ∧
      ∀ disk home environment, Disk.Serves disk home environment db mode →
        (disk.run home environment (listWords e raw o)).1 = .done s ∧
        (disk.run home environment (listWords e raw o)).1.output = s) := by
  have hread := read_listWords e raw ho
  refine ⟨hread, fun fault hfault => ?_, fun items hitems => ?_⟩
  -- what the program ends in is what its command does, here and for a page
  · have hrun := run_list_of_error hfault
    refine ⟨hrun, fun disk home environment hserves => ?_⟩
    have hend := run_of_read hserves hread
    rw [hrun] at hend
    rw [hend]
    exact ⟨rfl, rfl⟩
  · obtain ⟨s, hrun, hwritten⟩ := run_list_of_ok hitems
    refine ⟨s, hrun, hwritten, fun disk home environment hserves => ?_⟩
    have hend := run_of_read hserves hread
    rw [hrun] at hend
    rw [hend]
    exact ⟨rfl, rfl⟩

/-! ## An asset with an odd name

The name has a quotation mark, a backslash, the character zero and one beyond sixteen bits. -/

def assetRow (id owner : Int) (name : String) : Row :=
  ⟨id, [("asset_name", .text name), ("owner_user_id", .integer owner), ("asset_type", .text "BOOK"),
    ("visibility", .text "PUBLIC"), ("created_at", .text "2024-1-6 12:00:60"),
    ("related_resource_count", .integer 0), ("version", .integer 2)]⟩

def oddName : String := "a\"b\\c\x00😀"

def twoAssets : Database where
  assets := ⟨[assetRow 3 7 oddName, assetRow 9223372036854775807 8 "plain"], 9223372036854775807⟩

def oddAsset : Asset where
  id := 3
  assetName := oddName
  description := none
  ownerUserId := some 7
  ownerGroupId := none
  assetType := .book
  visibility := .public
  createdAt := ⟨2024, 1, 6, 12, 0, 60⟩
  updatedAt := none
  relatedResourceCount := 0
  version := 2

/-- A parameter that is no number is the default, and the owner's options leave the other asset out. -/
def oddRequest : RawParams := { limit := some "ten", count := some "1", filter := some "version >= 02" }

theorem answer_twoAssets :
    answer twoAssets .assets .strict oddRequest { user := some 7 } =
      .ok ⟨[.asset oddAsset], some 1⟩ := by
  have htokens : Listing.tokens .strict oddRequest.resolve.filter =
      .ok [⟨"version", .comparison .ge, "02"⟩] := by
    show Token.ofFilter .strict "version >= 02" = _
    rw [Token.ofFilter, if_neg (by decide)]
    rw [Filter.clauses_eq_singleton "version >= 02".toList (by decide)]
    decide
  have hcompile := Listing.compile_eq_ok.mpr
    ⟨_, htokens, (rfl : Predicate.ofTokens .assets [⟨"version", .comparison .ge, "02"⟩] = .ok _)⟩
  have hscope : (listArguments .assets oddRequest { user := some 7 }).scope .assets =
      .ok (some ⟨[⟨⟨[], .assets, "owner_user_id", .numeric .bits64⟩, .compare .eq (.integer 7)⟩]⟩) := by
    rfl
  have hvalid : oddRequest.resolve.validate = .ok () := by rfl
  unfold answer
  rw [hscope]
  show twoAssets.list .assets .strict oddRequest.resolve _ = _
  rw [Database.list_of_within twoAssets hvalid hcompile (by decide)]
  rfl

/-- The page of the odd asset is written, and decoded from what is written. -/
theorem listing_written_twoAssets :
    Ownership.Fits { user := some 7 } ∧
    listWords .assets oddRequest { user := some 7 } =
      ["list", "assets", "--filter=version >= 02", "--limit=ten", "--count=1", "--owner-user=7"] ∧
    ∃ given s, read (listWords .assets oddRequest { user := some 7 }) = .ok ⟨none, .list .assets given⟩ ∧
      (Command.list .assets given).run twoAssets .strict = .ok s ∧
      Items.Written ⟨[.asset oddAsset], some 1⟩ .assets s := by
  have hfits : Ownership.Fits { user := some 7 } := by
    constructor
    · rintro _ ⟨⟩
      exact ⟨by decide, by decide⟩
    · exact List.forall_mem_nil _
  have hwords : listWords .assets oddRequest { user := some 7 } =
      ["list", "assets", "--filter=version >= 02", "--limit=ten", "--count=1", "--owner-user=7"] := by
    have hentity : entityWord .assets = "assets" := by
      rw [← String.toList_inj, toList_entityWord]
      rfl
    show [_, entityWord .assets, _, _, _, _] = _
    rw [hentity]
    rfl
  obtain ⟨hread, -, hpage⟩ := listing_written hfits .assets oddRequest twoAssets .strict
  obtain ⟨s, hrun, hwritten, -⟩ := hpage _ answer_twoAssets
  exact ⟨hfits, hwords, _, s, hread, hrun, hwritten⟩

end CommandLine

end AssetRegister
