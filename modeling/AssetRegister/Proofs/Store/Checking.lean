import AssetRegister.Fault
import AssetRegister.Proofs.Store.Session
import AssetRegister.Store.File

/-!
# Checking the schema

Whenever a file is used, it is checked first. The statements that make the tables put the current version
in the place of any other, so they must not run where tables have been made. `StoreFile.Made` says what
holds of a file from then on: the table of the version is there, and a version in it is a text, garbled or
not, or bytes.

* `StoreFile.ensure_of_made`: a check changes nothing.
* `StoreFile.Made.after`, `StoreFile.Made.run`: whatever a session does, the file stays so.
* `StoreFile.answers_filter`: nothing else in a session depends on its checks.

Main statement: `StoreFile.ensure_harmless`.
-/

namespace AssetRegister

open Database (Step VersionFault)

/-! ## Sessions with checks -/

/-- What a session does to a file: a step on its rows or on the version, a version put in whether there is
one or not, or a check. -/
inductive Action where
  | step (s : Step)
  | put (version : String)
  | ensure

/-- What the session is told. -/
inductive Answer where
  | inserted (id : Int)
  | changed (rows : Nat)
  | refused (fault : StoreFault)
  | checked (result : Except VersionFault Unit)

/-- Whether an action is a check. -/
def Action.isEnsure : Action → Bool
  | ensure => true
  | step _ | put _ => false

def Answer.isChecked : Answer → Bool
  | checked _ => true
  | inserted _ | changed _ | refused _ => false

/-- What a step is answered with. -/
def Database.answer (db : Database) : Step → Answer
  | .insert e given =>
    match db.insert e given with
    | .ok (_, id) => .inserted id
    | .error fault => .refused fault
  | .update e id given =>
    match db.update e id given with
    | .ok (_, n) => .changed n
    | .error fault => .refused fault
  | .delete e id =>
    match db.delete e id with
    | .ok (_, n) => .changed n
    | .error fault => .refused fault
  | .setVersion v => .changed (db.setVersion v).2

namespace StoreFile

/-- The file after an action. -/
def after (file : StoreFile) : Action → StoreFile
  | .step s => { file with db := file.db.after s }
  | .put version => file.putVersion version
  | .ensure => file.ensure.2

/-- What an action is answered with. -/
def answer (file : StoreFile) : Action → Answer
  | .step s => file.db.answer s
  | .put _ => .changed 1
  | .ensure => .checked file.ensure.1

/-- The file after a session. -/
def run (file : StoreFile) (actions : List Action) : StoreFile := actions.foldl after file

/-- The answers of a session, in order. -/
def answers (file : StoreFile) : List Action → List Answer
  | [] => []
  | a :: actions => file.answer a :: (file.after a).answers actions

/-- Checks, and nothing else, are answered with what a check says. -/
theorem answer_isChecked (file : StoreFile) (a : Action) :
    (file.answer a).isChecked = a.isEnsure := by
  cases a with
  | put => rfl
  | ensure => rfl
  | step s =>
    -- each step has two answers, and neither is that of a check
    show (file.db.answer s).isChecked = false
    unfold Database.answer
    split
    · split <;> rfl
    · split <;> rfl
    · split <;> rfl
    · rfl

/-- A session goes on from the file that its first part leaves. -/
theorem answers_append (file : StoreFile) (before after : List Action) :
    file.answers (before ++ after) = file.answers before ++ (file.run before).answers after := by
  induction before generalizing file with
  | nil => rfl
  | cons a before ih =>
    show file.answer a :: (file.after a).answers (before ++ after) = _
    rw [ih]
    rfl

/-! ## Files in which the tables have been made -/

/-- The file has a table for the version, and a version in it is a text, garbled or not, or bytes, as its
column takes them. -/
structure Made (file : StoreFile) : Prop where
  table : versionTable ∈ file.tables
  version : ∀ v ∈ file.db.schemaVersion?,
    (∃ s, v = .text s) ∨ (∃ g, v = .garbled g) ∨ ∃ bytes, v = .blob bytes

theorem db_makeTable (file : StoreFile) (name : String) : (file.makeTable name).db = file.db := by
  unfold makeTable
  split <;> rfl

/-- Making a table adds its name, if it is not there. -/
theorem mem_makeTable {file : StoreFile} {name x : String} :
    x ∈ (file.makeTable name).tables ↔ x ∈ file.tables ∨ x = name := by
  unfold makeTable
  split
  · next h =>
    -- the table is there already
    have hname : name ∈ file.tables := by simpa using h
    constructor
    · exact .inl
    · rintro (hx | rfl)
      · exact hx
      · exact hname
  · simp

theorem db_foldl_makeTable (es : List Entity) (file : StoreFile) :
    (es.foldl (fun file e => file.makeTable e.table) file).db = file.db := by
  induction es generalizing file with
  | nil => rfl
  | cons e es ih =>
    rw [List.foldl_cons, ih]
    apply db_makeTable

theorem mem_foldl_makeTable {es : List Entity} {file : StoreFile} {x : String} :
    x ∈ (es.foldl (fun file e => file.makeTable e.table) file).tables ↔
      x ∈ file.tables ∨ ∃ e ∈ es, x = e.table := by
  induction es generalizing file with
  | nil => simp
  | cons e es ih =>
    rw [List.foldl_cons, ih, mem_makeTable, or_assoc]
    simp

/-- Making the tables keeps every row, and forgets which version there was. -/
theorem db_makeTables (file : StoreFile) :
    file.makeTables.db = { file.db with schemaVersion? := some (.text "1") } := by
  unfold makeTables
  rw [db_foldl_makeTable, putVersion, db_makeTable]
  rfl

/-- Making the tables adds those of the version and of all entities. -/
theorem mem_makeTables {file : StoreFile} {x : String} :
    x ∈ file.makeTables.tables ↔ x ∈ file.tables ∨ x = versionTable ∨ ∃ e : Entity, x = e.table := by
  have hall (e : Entity) : e ∈ Entity.all := by cases e <;> decide
  unfold makeTables
  rw [mem_foldl_makeTable]
  show x ∈ (file.makeTable versionTable).tables ∨ _ ↔ _
  rw [mem_makeTable, or_assoc]
  simp [hall]

/-- In the end the tables have been made. -/
theorem made_makeTables (file : StoreFile) : file.makeTables.Made := by
  refine ⟨mem_makeTables.mpr (.inr (.inl rfl)), fun v hv => ?_⟩
  rw [db_makeTables] at hv
  cases hv
  exact .inl ⟨"1", rfl⟩

/-- A file without the table of the version gets all tables. -/
theorem ensure_of_new {file : StoreFile} (h : versionTable ∉ file.tables) :
    file.ensure = (.ok (), file.makeTables) := by
  unfold ensure
  rw [if_neg (by simpa using h)]

/-- **A check of a file in which the tables have been made changes nothing.** -/
theorem ensure_of_made {file : StoreFile} (h : file.Made) :
    file.ensure = (file.db.checkVersion, file) := by
  unfold ensure
  rw [if_pos (by simpa using h.table)]

/-! ## What a session keeps -/

theorem schemaVersion?_withTable (db : Database) (t : Table) (e : Entity) :
    (db.withTable t e).schemaVersion? = db.schemaVersion? := by
  cases e <;> rfl

/-- Steps on rows leave the version alone. -/
theorem schemaVersion?_outcome {db db' : Database} {s : Step} (hs : ∀ v, s ≠ .setVersion v)
    (h : db.outcome s = .ok db') : db'.schemaVersion? = db.schemaVersion? := by
  cases s with
  | insert e given =>
    obtain ⟨⟨_, id⟩, hok, rfl⟩ := Outcome.map_eq_ok.mp h
    obtain ⟨-, -, -, -, rfl⟩ := Database.insert_eq_ok.mp hok
    exact schemaVersion?_withTable _ _ _
  | update e id given =>
    obtain ⟨⟨_, n⟩, hok, rfl⟩ := Outcome.map_eq_ok.mp h
    obtain ⟨-, ⟨-, rfl, -⟩ | ⟨_, _, -, -, -, -, -, rfl⟩⟩ := Database.update_eq_ok.mp hok
    · rfl
    · exact schemaVersion?_withTable _ _ _
  | delete e id =>
    obtain ⟨⟨_, n⟩, hok, rfl⟩ := Outcome.map_eq_ok.mp h
    obtain ⟨-, rfl, -⟩ | ⟨-, -, -, rfl⟩ := Database.delete_eq_ok.mp hok
    · rfl
    · exact schemaVersion?_withTable _ _ _
  | setVersion v => exact absurd rfl (hs v)

/-- What the column of the version takes of a value that is present. -/
theorem convert_text_cases {v : Value} (h : v ≠ .null) :
    (∃ s, Affinity.text.convert v = .text s) ∨ (∃ g, Affinity.text.convert v = .garbled g) ∨
      ∃ bytes, Affinity.text.convert v = .blob bytes := by
  cases v with
  | null => exact absurd rfl h
  | integer n => exact .inl ⟨_, rfl⟩
  | real x => exact .inl ⟨_, rfl⟩
  | text s => exact .inl ⟨s, rfl⟩
  | garbled g => exact .inr (.inl ⟨g, rfl⟩)
  | blob bytes => exact .inr (.inr ⟨bytes, rfl⟩)

/-- A version that is set takes the place of the one that is there, and is not set if there is none. -/
theorem schemaVersion?_setVersion (db : Database) {v : Value} (h : v ≠ .null) :
    (db.setVersion v).1.schemaVersion? = db.schemaVersion?.map fun _ => Affinity.text.convert v := by
  cases v with
  | null => exact absurd rfl h
  | integer | real | text | garbled | blob => rfl

/-- Setting the version leaves all rows alone. -/
theorem table_setVersion (db : Database) (v : Value) (e : Entity) :
    (db.setVersion v).1.table e = db.table e := by
  cases v <;> cases e <;> rfl

/-- Whatever an action does, the tables stay made, and the version stays what its column can hold. -/
theorem Made.after {file : StoreFile} (h : file.Made) (a : Action) : (file.after a).Made := by
  cases a with
  | ensure =>
    show file.ensure.2.Made
    rw [ensure_of_made h]
    exact h
  -- what is put in is a text, whatever was there before
  | put version => exact ⟨h.table, fun v hv => by cases hv; exact .inl ⟨version, rfl⟩⟩
  | step s =>
    refine ⟨h.table, fun v hv => ?_⟩
    change v ∈ (file.db.after s).schemaVersion? at hv
    rcases Database.after_eq file.db s with ⟨db', hok, hafter⟩ | ⟨fault, -, hafter⟩
    · rw [hafter] at hv
      by_cases hs : ∃ w, s = .setVersion w
      · -- the column takes a text, garbled or not, or bytes, or the version has been removed
        obtain ⟨w, rfl⟩ := hs
        cases hok
        by_cases hw : w = .null
        · subst hw
          cases hv
        · rw [schemaVersion?_setVersion file.db hw] at hv
          obtain ⟨_, -, rfl⟩ := Option.map_eq_some_iff.mp hv
          exact convert_text_cases hw
      · rw [schemaVersion?_outcome (fun w hw => hs ⟨w, hw⟩) hok] at hv
        exact h.version v hv
    · -- a refused step leaves the version as it is
      rw [hafter] at hv
      exact h.version v hv

/-- So does any session. -/
theorem Made.run {file : StoreFile} (h : file.Made) (actions : List Action) :
    (file.run actions).Made := by
  induction actions generalizing file with
  | nil => exact h
  | cons a actions ih => exact ih (h.after a)

/-- The other answers of a session, and where it ends, are those of the session without its checks.
Induction on the session; a check leaves the file as it is, so the rest goes on from the same file. -/
theorem answers_filter {file : StoreFile} (h : file.Made) (actions : List Action) :
    file.answers (actions.filter (!·.isEnsure)) = (file.answers actions).filter (!·.isChecked) ∧
      file.run (actions.filter (!·.isEnsure)) = file.run actions := by
  induction actions generalizing file with
  | nil => exact ⟨rfl, rfl⟩
  | cons a actions ih =>
    obtain ⟨hanswers, hrun⟩ := ih (h.after a)
    have hchecked := answer_isChecked file a
    show _ = (file.answer a :: (file.after a).answers actions).filter _ ∧
      _ = (file.after a).run actions
    cases ha : a.isEnsure with
    | true =>
      -- a check is left out on both sides
      have hsame : file.after a = file := by
        cases a with
        | ensure =>
          show file.ensure.2 = file
          rw [ensure_of_made h]
        | step | put => cases ha
      rw [ha] at hchecked
      rw [hsame] at hanswers hrun ⊢
      rw [List.filter_cons_of_neg (by simp [ha]), List.filter_cons_of_neg (by simp [hchecked])]
      exact ⟨hanswers, hrun⟩
    | false =>
      rw [ha] at hchecked
      rw [List.filter_cons_of_pos (by simp [ha]), List.filter_cons_of_pos (by simp [hchecked])]
      exact ⟨congrArg (file.answer a :: ·) hanswers, hrun⟩

/-! ## What a check answers -/

/-- What a check of a file answers, by the version that is there, and how that is told. -/
structure Verdict (file : StoreFile) (result : Except VersionFault Unit) : Prop where
  ok : result = .ok () ↔ file.db.schemaVersion? = some (.text "1")
  mismatch : ∀ s, result = .error (.mismatch s) ↔
    file.db.schemaVersion? = some (.text s) ∧ s ≠ "1"
  missing : result = .error .missing ↔ file.db.schemaVersion? = none
  unreadable : ∀ c, result = .error (.unreadable c) ↔
    c = .blob ∧ ∃ bytes, file.db.schemaVersion? = some (.blob bytes)
  garbled : ∀ f, result = .error (.garbled f) ↔
    ∃ g, file.db.schemaVersion? = some (.garbled g) ∧ f = g.fault
  notClient : ∀ fault, result = .error fault → (Fault.version fault).isClientError = false
  wording : ∀ fault, result = .error fault →
    (∃ s, file.db.schemaVersion? = some (.text s) ∧ (Fault.version fault).message =
      "Error: Schema version mismatch: found " ++ s ++ ", expected 1") ∨
    (file.db.schemaVersion? = none ∧
      (Fault.version fault).message = "Error: Schema version missing") ∨
    (∃ g, file.db.schemaVersion? = some (.garbled g) ∧ (Fault.version fault).message =
      "Database error: " ++ (ReadFault.garbled 0 g.fault).message) ∨
    ∃ bytes, file.db.schemaVersion? = some (.blob bytes) ∧ (Fault.version fault).message =
      "Database error: " ++ (ReadFault.wrongClass .blob 0 "value").message

theorem message_mismatch (s : String) : (Fault.version (.mismatch s)).message =
    "Error: Schema version mismatch: found " ++ s ++ ", expected 1" := by
  show "Error: Schema version mismatch: found " ++ s ++ ", expected " ++ "1" = _
  rw [String.append_assoc]
  rfl

/-- What a check answers follows from the version alone. -/
theorem Made.verdict {file : StoreFile} (h : file.Made) :
    Verdict file file.db.checkVersion := by
  have hversion := h.version
  unfold Database.checkVersion
  -- the cases of the version: none, a text, what is garbled, bytes
  cases hv : file.db.schemaVersion? with
  | none =>
    exact ⟨by simp [hv], by simp [hv], by simp [hv], by simp [hv], by simp [hv], fun _ _ => rfl,
      fun fault hf => .inr (.inl ⟨hv, by cases hf; rfl⟩)⟩
  | some v =>
    rcases hversion v hv with ⟨s, rfl⟩ | ⟨g, rfl⟩ | ⟨bytes, rfl⟩
    · by_cases hs : s = Database.currentVersion
      · subst hs
        exact ⟨by simp [hv, Database.currentVersion], by simp [hv, Database.currentVersion],
          by simp [hv], by simp [hv], by simp [hv], fun _ _ => rfl, fun fault hf => by simp at hf⟩
      · have hone : s ≠ "1" := hs
        simp only [if_neg hs]
        refine ⟨by simp [hv, hone], fun t => ?_, by simp [hv], by simp [hv], by simp [hv], fun _ _ => rfl,
          fun fault hf => .inl ⟨s, hv, by cases hf; exact message_mismatch s⟩⟩
        rw [hv]
        constructor
        · intro ht
          cases ht
          exact ⟨rfl, hone⟩
        · rintro ⟨ht, -⟩
          cases ht
          rfl
    · refine ⟨by simp [hv], by simp [hv], by simp [hv], by simp [hv], fun f => ?_, fun _ _ => rfl,
        fun fault hf => .inr (.inr (.inl ⟨g, hv, by cases hf; rfl⟩))⟩
      simp [hv, eq_comm]
    · refine ⟨by simp [hv], by simp [hv], by simp [hv], fun c => ?_, by simp [hv], fun _ _ => rfl,
        fun fault hf => .inr (.inr (.inr ⟨bytes, hv, by cases hf; rfl⟩))⟩
      simp [hv, Value.storageClass, eq_comm]

/-- With the right version a check passes. -/
theorem Made.ensure_eq_ok {file : StoreFile} (h : file.Made)
    (hv : file.db.schemaVersion? = some (.text "1")) : file.ensure = (.ok (), file) := by
  rw [ensure_of_made h, h.verdict.ok.mpr hv]

/-- **Checks do no harm.** Let the first check of a file make its tables, and let any session follow. A
check then

* leaves the file as it is, with all its rows and the version, be it the right one or not, so that whatever
  comes after it goes on from there;
* passes if and only if the version is the text `1`, and is otherwise refused with a fault that is not the
  caller's and that names the version found, or tells that there is none (`Verdict`).

The session without its checks is answered as before and ends in the same file. Once the version has been set
back to `1`, in any spelling that the column takes for this text, or been put in anew, the next check passes,
with all rows as they were. -/
theorem ensure_harmless {old : StoreFile} (hnew : versionTable ∉ old.tables)
    (session : List Action) :
    let made := old.ensure.2
    let file := made.run session
    file.ensure.2 = file ∧
      (∀ later, made.answers (session ++ .ensure :: later) =
        made.answers session ++ .checked file.ensure.1 :: file.answers later) ∧
      Verdict file file.ensure.1 ∧
      made.answers (session.filter (!·.isEnsure)) =
        (made.answers session).filter (!·.isChecked) ∧
      made.run (session.filter (!·.isEnsure)) = file ∧
      (∀ v, Affinity.text.convert v = .text "1" → file.db.schemaVersion? ≠ none →
        let back := file.after (.step (.setVersion v))
        back.ensure = (.ok (), back) ∧ ∀ e, back.db.table e = file.db.table e) ∧
      let back := file.after (.put "1")
      back.ensure = (.ok (), back) ∧ ∀ e, back.db.table e = file.db.table e := by
  intro made file
  have hmade : made.Made := by
    show old.ensure.2.Made
    rw [ensure_of_new hnew]
    exact made_makeTables old
  have hfile : file.Made := hmade.run session
  have hensure := ensure_of_made hfile
  have hsame : file.ensure.2 = file := by rw [hensure]
  obtain ⟨hanswers, hrun⟩ := answers_filter hmade session
  refine ⟨hsame, fun later => ?_, ?_, hanswers, hrun, fun v hv hsome => ?_, ?_⟩
  · rw [answers_append]
    show _ ++ .checked file.ensure.1 :: file.ensure.2.answers later = _
    rw [hsame]
  · rw [hensure]
    exact hfile.verdict
  -- what is written is not null, so the version is the one that the check wants
  · intro back
    obtain ⟨found, hfound⟩ := Option.ne_none_iff_exists'.mp hsome
    have hnull : v ≠ .null := by
      rintro rfl
      cases hv
    have hone : back.db.schemaVersion? = some (.text "1") := by
      show (file.db.setVersion v).1.schemaVersion? = _
      rw [schemaVersion?_setVersion file.db hnull, hfound, Option.map_some, hv]
    exact ⟨(hfile.after _).ensure_eq_ok hone, table_setVersion file.db v⟩
  · intro back
    exact ⟨(hfile.after _).ensure_eq_ok rfl, fun e => by cases e <;> rfl⟩

/-- A supplier is added, then the version is set to another one, checked, and set back. -/
theorem ensure_harmless_session :
    let made := ({} : StoreFile).ensure.2
    let session : List Action :=
      [.step (.insert .suppliers Database.sampleSupplier), .ensure, .step (.setVersion (.integer 99))]
    let file := made.run session
    file.ensure = (.error (.mismatch "99"), file) ∧
      (file.db.table .suppliers).rows.length = 1 ∧
      made.run (session.filter (!·.isEnsure)) = file ∧
      (file.after (.step (.setVersion (.integer 1)))).ensure.1 = .ok () := by
  intro made session file
  have hnew : versionTable ∉ ({} : StoreFile).tables := by decide
  obtain ⟨hsame, -, hverdict, -, hrun, hback, -⟩ := ensure_harmless hnew session
  have hversion : file.db.schemaVersion? = some (.text "99") := by decide +kernel
  have hmismatch := (hverdict.mismatch "99").mpr ⟨hversion, by decide⟩
  refine ⟨Prod.ext hmismatch hsame, by decide +kernel, hrun, ?_⟩
  have hpresent : file.db.schemaVersion? ≠ none := by simp [hversion]
  exact congrArg Prod.fst (hback (.integer 1) (by decide +kernel) hpresent).1

end StoreFile

end AssetRegister
