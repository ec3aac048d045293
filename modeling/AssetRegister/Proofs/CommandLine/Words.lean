import AssetRegister.CommandLine.Run
import AssetRegister.Proofs.Outcome
import AssetRegister.Proofs.Text.Digits
import AssetRegister.Proofs.Text.Longest

/-!
# The words of a listing

A listing is asked for by its command, its entity, and options with their values attached. An attached
value may be any text: it begins after the first equals sign, and nothing in it is looked at before the
option takes it in. So the options are taken in from left to right, and what was asked for is what is read
(`read_listWords`).
-/

namespace AssetRegister.CommandLine

open Outcome

/-- An option by its long name, with its value attached. -/
def attached (o : Slot × String) : String := "--" ++ o.1.longName?.getD "" ++ "=" ++ o.2

/-- Takes an option with its value in. -/
def Arguments.takeOption (a : Arguments) (o : Slot × String) : Except UsageFault Arguments :=
  a.take o.1 (some o.2)

/-- What is attached to an option begins behind the first equals sign. -/
theorem longForm_attached {name : List Char} (value : List Char) (h : '=' ∉ name) :
    longForm (name ++ '=' :: value) = .long (String.ofList name) (some (String.ofList value)) := by
  unfold longForm
  rw [Text.takeWhile_bne_append h, Text.dropWhile_bne_append h]

/-- So a word with two hyphens is an option with its value, whatever text that is. -/
theorem Word.of_long {name value : String} (h : '=' ∉ name.toList) :
    Word.of ("--" ++ name ++ "=" ++ value) = .long name (some value) := by
  have htext : ("--" ++ name ++ "=" ++ value).toList =
      '-' :: '-' :: (name.toList ++ '=' :: value.toList) := by
    simp
  have hform := longForm_attached value.toList h
  rw [String.ofList_toList, String.ofList_toList] at hform
  unfold Word.of
  rw [htext]
  obtain ⟨c, s, hcons⟩ := List.exists_cons_of_ne_nil
    (List.append_ne_nil_of_right_ne_nil name.toList (List.cons_ne_nil '=' value.toList))
  rw [hcons] at hform ⊢
  exact hform

/-- Each option is found by its long name. -/
theorem Slot.ofLongName?_longName {slot : Slot} (h : slot ≠ .entity) :
    '=' ∉ (slot.longName?.getD "").toList ∧
      (Level.under .list).ofLongName? (slot.longName?.getD "") = some (.fill slot) := by
  cases slot <;> first | exact absurd rfl h | decide

namespace Progress

/-- The progress when everything so far is taken in. -/
def settled (a : Arguments) : Progress := { taken := a }

/-- Such a word starts its option if nothing is waiting for a value. -/
theorem step_attached {p : Progress} {o : Slot × String} (hseparated : p.separated = false)
    (hawaiting : p.awaiting? = none) (ho : o.1 ≠ .entity) :
    Progress.step (.under .list) p (attached o) = p.start o.1 (some o.2) := by
  obtain ⟨hname, hslot⟩ := Slot.ofLongName?_longName ho
  have hword : Word.of (attached o) = .long (o.1.longName?.getD "") (some o.2) := Word.of_long hname
  unfold step
  rw [if_neg (by simp [hseparated]), hawaiting, hword]
  show p.mark (.under .list) (.long (o.1.longName?.getD "") (some o.2)) = _
  unfold mark
  simp only [hslot]
  rfl

theorem start_settled (a : Arguments) (o : Slot × String) :
    (settled a).start o.1 (some o.2) = (a.takeOption o).map settled := rfl

/-- Options with attached values are taken in from left to right. -/
theorem foldlM_attached {os : List (Slot × String)} (hos : ∀ o ∈ os, o.1 ≠ .entity) (a : Arguments) :
    (os.map attached).foldlM (step (.under .list)) (settled a) =
      (os.foldlM Arguments.takeOption a).map settled := by
  induction os generalizing a with
  | nil => rfl
  | cons o os ih =>
    obtain ⟨ho, hos⟩ := List.forall_mem_cons.mp hos
    -- the option before has been taken in, so nothing is pending when the next one starts
    rw [List.map_cons, List.foldlM_cons, List.foldlM_cons, step_attached rfl rfl ho, start_settled]
    show ((a.takeOption o).map settled >>= _) = _
    cases a.takeOption o with
    | error fault => rfl
    | ok b => exact ih hos b

end Progress

/-! ## The entity -/

theorem toList_entityWord (e : Entity) :
    (entityWord e).toList = e.table.toList.map fun c => if c = '_' then '-' else c :=
  String.toList_map

/-- Entities are told apart by their words. -/
theorem entityWord_inj {e e' : Entity} : entityWord e = entityWord e' ↔ e = e' := by
  rw [← String.toList_inj, toList_entityWord, toList_entityWord]
  cases e <;> cases e' <;> decide

/-- Each entity is found by its word. -/
theorem entity?_entityWord (e : Entity) : entity? (entityWord e) = some e := by
  have hword (e' : Entity) : (entityWord e' == entityWord e) = decide (e' = e) := by
    rw [Bool.eq_iff_iff, beq_iff_eq, decide_eq_true_eq]
    exact entityWord_inj
  unfold entity?
  simp only [hword]
  cases e <;> rfl

/-- No word of an entity looks like an option. -/
theorem Word.of_entityWord (e : Entity) : Word.of (entityWord e) = .plain := by
  unfold Word.of
  rw [toList_entityWord]
  cases e <;> rfl

/-- The word of an entity waits to be taken in until something else comes up. -/
theorem step_entityWord (e : Entity) :
    Progress.step (.under .list) {} (entityWord e) =
      .ok { pending := some ⟨.entity, some (entityWord e)⟩ } := by
  unfold Progress.step
  rw [Word.of_entityWord]
  rfl

/-- Taken in, it names the entity. -/
theorem take_entityWord (e : Entity) :
    Arguments.take {} .entity (some (entityWord e)) = .ok { entity := some e } := by
  show Arguments.put {} (entityWord e) .entity = _
  unfold Arguments.put
  simp only [entity?_entityWord]

/-- The words of a listing are read as its entity and its options, one after another. -/
theorem readArguments_attached (e : Entity) {os : List (Slot × String)}
    (hos : ∀ o ∈ os, o.1 ≠ .entity) :
    readArguments .list (entityWord e :: os.map attached) =
      os.foldlM Arguments.takeOption { entity := some e } := by
  let p : Progress := { pending := some ⟨.entity, some (entityWord e)⟩ }
  have hsettle : p.settle = .ok (.settled { entity := some e }) := by
    show (Arguments.take {} .entity (some (entityWord e))).map _ = _
    rw [take_entityWord]
    rfl
  have hread : readArguments .list (entityWord e :: os.map attached) =
      ((os.map attached).foldlM (Progress.step (.under .list)) p >>= fun p => p.settle >>= fun p =>
        pure p.taken) := by
    unfold readArguments
    rw [List.foldlM_cons, step_entityWord]
    rfl
  rw [hread]
  cases os with
  | nil =>
    show (p.settle >>= fun p => pure p.taken) = _
    rw [hsettle]
    rfl
  | cons o os =>
    obtain ⟨ho, hos⟩ := List.forall_mem_cons.mp hos
    -- the first option takes the entity in before itself
    have hstart : p.start o.1 (some o.2) =
        (Arguments.takeOption { entity := some e } o).map Progress.settled := by
      unfold Progress.start
      rw [hsettle]
      rfl
    rw [List.map_cons, List.foldlM_cons, List.foldlM_cons, Progress.step_attached rfl rfl ho, hstart]
    cases Arguments.takeOption { entity := some e } o with
    | error fault => rfl
    | ok a =>
      show ((os.map attached).foldlM (Progress.step (.under .list)) (.settled a) >>= _) = _
      rw [Progress.foldlM_attached hos]
      show _ = os.foldlM Arguments.takeOption a
      cases os.foldlM Arguments.takeOption a <;> rfl

/-! ## Listings -/

/-- The ownership options of a listing. -/
structure Ownership where
  visibility : Option Visibility := none
  user : Option Int := none
  groups : List Int := []
  deriving DecidableEq, Repr

/-- Owners are given by their identifiers, which are integers of 64 bits. -/
def Ownership.Fits (o : Ownership) : Prop :=
  (∀ n ∈ o.user, Width.bits64.Holds n) ∧ ∀ n ∈ o.groups, Width.bits64.Holds n

/-- What a listing is asked with. -/
def listArguments (e : Entity) (raw : RawParams) (o : Ownership) : Arguments where
  entity := some e
  raw := raw
  visibility := o.visibility
  ownerUser := o.user
  ownerGroups := o.groups

/-- The options of a listing. -/
def listOptions (raw : RawParams) (o : Ownership) : List (Slot × String) :=
  raw.filter.toList.map (Slot.filter, ·) ++ raw.limit.toList.map (Slot.limit, ·)
    ++ raw.offset.toList.map (Slot.offset, ·) ++ raw.count.toList.map (Slot.count, ·)
    ++ o.visibility.toList.map (fun v => (Slot.visibility, Choice.word v))
    ++ o.user.toList.map (fun n => (Slot.ownerUser, Text.integerText n))
    ++ o.groups.map (fun n => (Slot.ownerGroup, Text.integerText n))

/-- The words of a listing. -/
def listWords (e : Entity) (raw : RawParams) (o : Ownership) : List String :=
  CommandName.list.word :: entityWord e :: (listOptions raw o).map attached

theorem identity?_integerText {n : Int} (h : Width.bits64.Holds n) :
    identity? (Text.integerText n) = some n := by
  unfold identity? Text.integerText
  rw [String.toList_ofList, Text.readInteger_integerChars h]

/-- An option is put in its place unless it has come up before and may not again. -/
theorem takeOption_eq_put {a : Arguments} {slot : Slot} (s : String)
    (h : (a.has slot && !slot.repeats) = false) : a.takeOption (slot, s) = a.put s slot :=
  if_neg (by rw [h]; exact Bool.false_ne_true)

/-- Groups are the one option that may come up again: each is put behind those before it. -/
theorem foldlM_groups {groups : List Int} (h : ∀ n ∈ groups, Width.bits64.Holds n) (a : Arguments) :
    (groups.map fun n => (Slot.ownerGroup, Text.integerText n)).foldlM Arguments.takeOption a =
      Except.ok { a with ownerGroups := a.ownerGroups ++ groups } := by
  induction groups generalizing a with
  | nil => rw [List.append_nil]; rfl
  | cons n groups ih =>
    obtain ⟨hn, hgroups⟩ := List.forall_mem_cons.mp h
    have htake : a.takeOption (Slot.ownerGroup, Text.integerText n) =
        .ok { a with ownerGroups := a.ownerGroups ++ [n] } := by
      rw [takeOption_eq_put _ (Bool.and_false _)]
      simp only [Arguments.put, identity?_integerText hn]
    rw [List.map_cons, List.foldlM_cons, htake]
    show List.foldlM _ _ _ = _
    rw [ih hgroups, List.append_assoc, List.singleton_append]

/-- The options of a listing fill the places that they were written from. -/
theorem foldlM_listOptions (e : Entity) (raw : RawParams) {o : Ownership} (ho : o.Fits) :
    (listOptions raw o).foldlM Arguments.takeOption { entity := some e } =
      Except.ok (listArguments e raw o) := by
  obtain ⟨limit, offset, count, filter⟩ := raw
  obtain ⟨visibility, user, groups⟩ := o
  obtain ⟨huser, hgroups⟩ := ho
  -- each option finds its own place empty and fills it
  let a (filter limit offset count : Option String) (v : Option Visibility) (user : Option Int) :
      Arguments :=
    { entity := some e, raw := ⟨limit, offset, count, filter⟩, visibility := v, ownerUser := user }
  have hfilter : (filter.toList.map (Slot.filter, ·)).foldlM Arguments.takeOption
      (a none none none none none none) = .ok (a filter none none none none none) := by
    cases filter <;> rfl
  have hlimit : (limit.toList.map (Slot.limit, ·)).foldlM Arguments.takeOption
      (a filter none none none none none) = .ok (a filter limit none none none none) := by
    cases limit <;> rfl
  have hoffset : (offset.toList.map (Slot.offset, ·)).foldlM Arguments.takeOption
      (a filter limit none none none none) = .ok (a filter limit offset none none none) := by
    cases offset <;> rfl
  have hcount : (count.toList.map (Slot.count, ·)).foldlM Arguments.takeOption
      (a filter limit offset none none none) = .ok (a filter limit offset count none none) := by
    cases count <;> rfl
  have hvisibility : (visibility.toList.map (fun v => (Slot.visibility, Choice.word v))).foldlM
      Arguments.takeOption (a filter limit offset count none none) =
        .ok (a filter limit offset count visibility none) := by
    rcases visibility with _ | v
    · rfl
    · cases v <;> rfl
  have huser : (user.toList.map (fun n => (Slot.ownerUser, Text.integerText n))).foldlM
      Arguments.takeOption (a filter limit offset count visibility none) =
        .ok (a filter limit offset count visibility user) := by
    cases user with
    | none => rfl
    | some n =>
      show ((a filter limit offset count visibility none).takeOption (Slot.ownerUser, _) >>= _) = _
      rw [takeOption_eq_put _ rfl]
      simp only [Arguments.put, identity?_integerText (huser n rfl)]
      rfl
  have hall := foldlM_groups hgroups (a filter limit offset count visibility user)
  have hstart : ({ entity := some e } : Arguments) = a none none none none none none := rfl
  simp only [listOptions, List.foldlM_append, hstart, hfilter, hlimit, hoffset, hcount, hvisibility,
    huser, hall, bind, Except.bind]
  rfl

/-- **A listing is read from its words**, whatever the texts of its parameters are. -/
theorem read_listWords (e : Entity) (raw : RawParams) {o : Ownership} (ho : o.Fits) :
    read (listWords e raw o) = .ok ⟨none, .list e (listArguments e raw o)⟩ := by
  have hoptions : ∀ x ∈ listOptions raw o, x.1 ≠ .entity := by
    intro x hx
    simp only [listOptions, List.mem_append, List.mem_map] at hx
    rcases hx with (((((hx | hx) | hx) | hx) | hx) | hx) | hx <;>
      obtain ⟨_, -, rfl⟩ := hx <;> exact nofun
  have hgiven : readArguments .list (entityWord e :: (listOptions raw o).map attached) =
      .ok (listArguments e raw o) := by
    rw [readArguments_attached e hoptions]
    exact foldlM_listOptions e raw ho
  show (readArguments .list (entityWord e :: (listOptions raw o).map attached) >>= _) = _
  rw [hgiven]
  rfl

end AssetRegister.CommandLine
