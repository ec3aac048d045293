import AssetRegister.Proofs.Record.DocumentReader
import AssetRegister.Proofs.Settings.Scan
import AssetRegister.Proofs.Text.Digits

/-!
# Written documents

The writer of documents uses one spelling of many. What it writes is read as the document that was
written (`Document.read?_write`), so nothing that a document says gets lost on the way. Only numbers need
to be told where they end: behind a document there is nothing, a comma or the end of the line.
-/

namespace AssetRegister

/-! ## Lists and objects as lines -/

namespace Document

/-- Documents whose numbers are integers, however deep. -/
inductive Integral : Document → Prop where
  | null : Integral .null
  | flag {b : Bool} : Integral (.flag b)
  | integer {n : Int} : Integral (.integer n)
  | text {s : String} : Integral (.text s)
  | list {items : List Document} (h : ∀ d ∈ items, Integral d) : Integral (.list items)
  | object {members : List (String × Document)} (h : ∀ m ∈ members, Integral m.2) :
      Integral (.object members)

/-- The items behind the first one, each after a comma and on a line of its own. -/
theorem itemChars_eq (depth : Nat) (ds : List Document) :
    itemChars depth ds = ds.flatMap fun d => ',' :: (newLine depth ++ chars depth d) := by
  induction ds with
  | nil => rfl
  | cons d ds ih => rw [itemChars, ih, List.flatMap_cons, List.cons_append, List.cons_append]

/-- A member with its name. -/
def memberText (depth : Nat) (m : String × Document) : List Char :=
  quoted m.1.toList ++ ':' :: ' ' :: chars depth m.2

/-- The members behind the first one, likewise. -/
theorem memberChars_eq (depth : Nat) (ms : List (String × Document)) :
    memberChars depth ms = ms.flatMap fun m => ',' :: (newLine depth ++ memberText depth m) := by
  induction ms with
  | nil => rfl
  | cons m ms ih =>
    rw [memberChars, ih, List.flatMap_cons, memberText]
    simp only [List.append_assoc, List.cons_append, List.nil_append]

/-- Things on lines of their own between two marks, with commas between them. -/
def block {α : Type} (opening closing : Char) (depth : Nat) (line : α → List Char) (a : α)
    (as : List α) : List Char :=
  opening :: (newLine (depth + 1) ++ (line a
    ++ (as.flatMap (fun x => ',' :: (newLine (depth + 1) ++ line x)) ++ (newLine depth ++ [closing]))))

/-- A list that is not empty is a block of its items. -/
theorem chars_list (depth : Nat) (d : Document) (ds : List Document) :
    chars depth (.list (d :: ds)) = block '[' ']' depth (chars (depth + 1)) d ds := by
  rw [chars, itemChars_eq, block]
  simp only [List.append_assoc, List.cons_append]

/-- An object that is not empty is a block of its members. -/
theorem chars_object (depth : Nat) (m : String × Document) (ms : List (String × Document)) :
    chars depth (.object (m :: ms)) = block '\x7b' '\x7d' depth (memberText (depth + 1)) m ms := by
  rw [chars, memberChars_eq, block, memberText]
  simp only [List.append_assoc, List.cons_append, List.nil_append]

/-- A block is longer than each of its lines. -/
theorem length_lt_block {α : Type} {opening closing : Char} {depth : Nat} {line : α → List Char}
    {a : α} {as : List α} {x : α} (hx : x ∈ a :: as) :
    (line x).length < (block opening closing depth line a as).length := by
  unfold block
  rcases List.mem_cons.mp hx with rfl | hx
  · simp only [List.length_cons, List.length_append]
    omega
  · obtain ⟨before, after, rfl⟩ := List.append_of_mem hx
    simp only [List.flatMap_append, List.flatMap_cons, List.length_cons, List.length_append]
    omega

end Document

namespace DocumentReader

open Document

/-- What may stand behind a document: nothing, a separator or the end of the line. -/
def Ends (s : List Char) : Prop := ∀ c ∈ s.head?, c = ',' ∨ c = '\n'

variable {α : Type} {rest : List Char}

/-! ## White space -/

/-- White space before something is skipped. -/
theorem spaced_append {m : Scan α} {gap s : List Char} (hgap : ∀ c ∈ gap, isGap c = true)
    (h : ∀ c ∈ s.head?, isGap c = false) : spaced m (gap ++ s) = m s :=
  Scan.bind_of_some (Scan.takeWhile_append hgap h)

theorem isGap_newLine (depth : Nat) : ∀ c ∈ newLine depth, isGap c = true := by
  intro c hc
  rcases List.mem_cons.mp hc with rfl | hc
  · rfl
  · rw [(List.mem_replicate.mp hc).2]
    rfl

/-- White space before a mark is skipped too. -/
theorem mark_append {c d : Char} {gap : List Char} (hgap : ∀ c ∈ gap, isGap c = true)
    (hd : isGap d = false) : mark c (gap ++ d :: rest) = Scan.exactly [c] (d :: rest) :=
  spaced_append hgap (Scan.head?_cons hd)

theorem mark_cons {c : Char} (h : isGap c = false) : mark c (c :: rest) = some ((), rest) :=
  (mark_append (List.forall_mem_nil _) h).trans (Scan.exactly_append [c])

/-! ## Texts -/

theorem hexValue?_hexDigit : ∀ n < 16, Scan.hexValue? (hexDigit n) = some n := by decide

/-- Four hexadecimal digits are read as the number that they write. -/
theorem unit_control {n : Nat} (h : n < 256) :
    unit ('0' :: '0' :: hexDigit (n / 16) :: hexDigit (n % 16) :: rest) = some (n, rest) := by
  have hhigh := hexValue?_hexDigit (n / 16) (by omega)
  have hlow := hexValue?_hexDigit (n % 16) (by omega)
  have hzero : Scan.hexValue? '0' = some 0 := by decide
  have hdigits : ∀ c ∈ ['0', '0', hexDigit (n / 16), hexDigit (n % 16)],
      (Scan.hexValue? c).isSome = true := by
    simp [hhigh, hlow, hzero]
  have hnumber : Scan.hexNumber ['0', '0', hexDigit (n / 16), hexDigit (n % 16)] = n := by
    simp only [Scan.hexNumber, List.foldl_cons, List.foldl_nil, hhigh, hlow, hzero, Option.getD_some]
    omega
  refine (Scan.bind_of_some (Scan.count_append hdigits)).trans ?_
  rw [hnumber]
  rfl

/-- A control character is read from its number. -/
theorem numbered_control {c : Char} (h : c.toNat < 32) :
    numbered ('0' :: '0' :: hexDigit (c.toNat / 16) :: hexDigit (c.toNat % 16) :: rest) =
      some (c, rest) := by
  have hvalid : c.toNat.isValidChar := .inl (by omega)
  have hguard : (guard (decide c.toNat.isValidChar) : Scan Unit) rest = some ((), rest) := by
    unfold guard
    rw [if_pos (decide_eq_true hvalid)]
    rfl
  -- a control character is no surrogate, so one unit is all there is
  refine (Scan.bind_of_some (unit_control (by omega))).trans ?_
  rw [if_neg (by omega)]
  refine (Scan.bind_of_some hguard).trans ?_
  rw [Char.ofNat_toNat]
  rfl

/-- Every character is read from what it is written as. -/
theorem character_escaped (c : Char) : character (escaped c ++ rest) = some (c, rest) := by
  -- the short escapes are told apart by the numbers of their characters
  have hc {n : Nat} (h : c.toNat = n) : c = Char.ofNat n := by rw [← h, Char.ofNat_toNat]
  unfold escaped
  split
  · next h => rw [h]; rfl
  split
  · next h => rw [h]; rfl
  split
  · next h => rw [hc h]; rfl
  split
  · next h => rw [hc h]; rfl
  split
  · next h => rw [hc h]; rfl
  split
  · next h => rw [hc h]; rfl
  split
  · next h => rw [hc h]; rfl
  split
  · next h =>
    show escape ('u' :: '0' :: '0' :: hexDigit (c.toNat / 16) :: hexDigit (c.toNat % 16) :: rest) = _
    exact (Scan.bind_of_some (Scan.one_of_pos rfl)).trans (numbered_control h)
  · next hquote hbackslash _ _ _ _ _ h =>
    have hplain : isPlain c = true := by
      have hprinted : 32 ≤ c.toNat := by omega
      simp [isPlain, hquote, hbackslash, hprinted]
    exact Scan.orElse_of_some (Scan.one_of_pos hplain)

/-- A text is read from between its quotes, character by character. -/
theorem text_quoted (s : String) : text (quoted s.toList ++ rest) = some (s, rest) := by
  have hmany : Scan.many character (s.toList.flatMap escaped ++ '"' :: rest) =
      some (s.toList, '"' :: rest) := by
    -- characters are read until the closing quote, which is none
    refine Scan.many_flatMap (fun _ => True) (fun c _ _ _ => character_escaped c)
      (fun _ _ _ => trivial) (fun c _ => ?_) trivial rfl
    unfold escaped
    split_ifs <;> exact List.cons_ne_nil _ _
  have hclose : Scan.exactly ['"'] ('"' :: rest) = some ((), rest) := Scan.exactly_append ['"']
  have htext : quoted s.toList ++ rest = '"' :: (s.toList.flatMap escaped ++ '"' :: rest) := by
    simp [quoted]
  rw [htext, text]
  refine (Scan.bind_of_some (Scan.exactly_append ['"'])).trans ?_
  refine (Scan.bind_of_some hmany).trans ((Scan.bind_of_some hclose).trans ?_)
  rw [String.ofList_toList]
  rfl

/-! ## Numbers -/

theorem whole_of_ne {d : Char} {s : List Char} (h : d ≠ '0') :
    whole (d :: s) = Scan.takeSome Char.isDigit (d :: s) := by
  have hahead : Scan.ahead (d :: s) = some (some d, d :: s) := rfl
  simp [whole, Scan.bind_of_some hahead, h]

/-- The digits of a number are read as a whole. None has a zero in front, unless it is zero. -/
theorem whole_natText (n : Nat) (hrest : ∀ c ∈ rest.head?, c.isDigit = false) :
    whole (Text.natText n ++ rest) = some (Text.natText n, rest) := by
  have hdigits := Text.digits_natText n
  cases htext : Text.natText n with
  | nil => exact absurd htext hdigits.1
  | cons d ds =>
    rw [htext] at hdigits
    by_cases hd : d = '0'
    · subst hd
      rw [Text.natText_head_zero htext]
      rfl
    · exact (whole_of_ne hd).trans (Scan.takeSome_append hdigits.1 hdigits.2 hrest)

/-- Whatever neither the comma nor the end of the line satisfies, nothing behind a document does. -/
theorem Ends.head_ne {s : List Char} (h : Ends s) {p : Char → Bool} (hcomma : p ',' = false)
    (hline : p '\n' = false) : ∀ c ∈ s.head?, p c = false := by
  intro c hc
  rcases h c hc with rfl | rfl
  · exact hcomma
  · exact hline

/-- Digits are an integer with the sign before them, if neither a fraction nor an exponent follows. -/
theorem number_natText {sign : Option Char} {n : Nat} {s : List Char} (hrest : Ends rest)
    (hsign : Scan.optional (Scan.one (· == '-')) s = some (sign, Text.natText n ++ rest)) :
    number s = some (.integer (Text.signedValue sign.isSome (Text.natText n)), rest) := by
  have hwhole := whole_natText n (hrest.head_ne (p := Char.isDigit) rfl rfl)
  have hpoint : ∀ c ∈ rest.head?, c ≠ '.' := by
    intro c hc
    rcases hrest c hc with rfl | rfl <;> decide
  have hfraction : Scan.optional fraction rest = some (none, rest) :=
    Scan.optional_of_none (Scan.bind_of_none (Scan.exactly_of_ne hpoint))
  have hexponent : Scan.optional exponent rest = some (none, rest) :=
    Scan.optional_of_none (Scan.bind_of_none (Scan.one_of_neg (hrest.head_ne rfl rfl)))
  rw [number, Scan.bind_of_some hsign, Scan.bind_of_some hwhole, Scan.bind_of_some hfraction,
    Scan.bind_of_some hexponent]
  rfl

/-- An integer is read from its digits and its sign. -/
theorem number_integerChars (n : Int) (hrest : Ends rest) :
    number (Text.integerChars n ++ rest) = some (.integer n, rest) := by
  have hdigits := Text.digits_natText n.natAbs
  have hvalue := Text.digitsFrom_natText n.natAbs
  unfold Text.integerChars
  split
  · next hneg =>
    have hn : Text.signedValue true (Text.natText n.natAbs) = n := by
      show -((Text.digitsFrom 0 (Text.natText n.natAbs) : Nat) : Int) = n
      omega
    have hsign : Scan.optional (Scan.one (· == '-')) ('-' :: Text.natText n.natAbs ++ rest) =
        some (some '-', Text.natText n.natAbs ++ rest) :=
      Scan.optional_of_some (Scan.one_of_pos rfl)
    rw [number_natText hrest hsign, Option.isSome_some, hn]
  · next hneg =>
    have hn : Text.signedValue false (Text.natText n.natAbs) = n := by
      show ((Text.digitsFrom 0 (Text.natText n.natAbs) : Nat) : Int) = n
      omega
    -- the first digit is not taken for a sign
    have hminus : ∀ c ∈ (Text.natText n.natAbs ++ rest).head?, (c == '-') = false := by
      obtain ⟨d, ds, htext⟩ := List.exists_cons_of_ne_nil hdigits.1
      rw [htext] at hdigits ⊢
      exact Scan.head?_cons (beq_false_of_ne (hdigits.head_ne (by decide)))
    have hsign : Scan.optional (Scan.one (· == '-')) (Text.natText n.natAbs ++ rest) =
        some (none, Text.natText n.natAbs ++ rest) :=
      Scan.optional_of_none (Scan.one_of_neg hminus)
    rw [number_natText hrest hsign, Option.isSome_none, hn]

/-! ## Lists and objects -/

/-- Two marks with nothing between them enclose nothing. -/
theorem enclosed_nil {opening closing : Char} {m : Scan α} (hclosing : isGap closing = false)
    (hm : m (closing :: rest) = none) :
    enclosed opening closing m (opening :: closing :: rest) = some ([], rest) := by
  refine (Scan.bind_of_some (Scan.exactly_append [opening])).trans ?_
  refine (Scan.bind_of_some (Scan.separated_of_none hm)).trans ?_
  exact Scan.bind_of_some (mark_cons hclosing)

/-- The lines of a block are read one after another. -/
theorem enclosed_block {opening closing : Char} {m : Scan α} {line : α → List Char} {depth : Nat}
    (hclosing : isGap closing = false) (hcomma : closing ≠ ',') {a : α} {as : List α}
    (hread : ∀ x ∈ a :: as, ∀ s, Ends s → m (newLine (depth + 1) ++ (line x ++ s)) = some (x, s)) :
    enclosed opening closing m (block opening closing depth line a as ++ rest) =
      some (a :: as, rest) := by
  obtain ⟨hfirst, hmore⟩ := List.forall_mem_cons.mp hread
  let more := as.flatMap fun x => ',' :: (newLine (depth + 1) ++ line x)
  -- behind the first thing stands a comma or the end of its line
  have hbetween : Ends (more ++ (newLine depth ++ closing :: rest)) := by
    cases as with
    | nil => exact Scan.head?_cons (.inr rfl)
    | cons b as => exact Scan.head?_cons (.inl rfl)
  have hmany : Scan.many (do mark ','; m) (more ++ (newLine depth ++ closing :: rest)) =
      some (as, newLine depth ++ closing :: rest) := by
    refine Scan.many_flatMap Ends (fun x hx s hs => ?_) (fun _ _ _ => Scan.head?_cons (.inl rfl))
      (fun _ _ => List.cons_ne_nil _ _) (Scan.head?_cons (.inr rfl)) ?_
    · rw [List.cons_append, List.append_assoc]
      exact (Scan.bind_of_some (mark_cons rfl)).trans (hmore x hx s hs)
    · -- the closing mark is no comma, and the line break before it is left where it is
      have hstop : Scan.exactly [','] (closing :: rest) = none :=
        Scan.exactly_of_ne (Scan.head?_cons hcomma)
      exact Scan.bind_of_none ((mark_append (isGap_newLine depth) hclosing).trans hstop)
  have hclose : mark closing (newLine depth ++ closing :: rest) = some ((), rest) :=
    (mark_append (isGap_newLine depth) hclosing).trans (Scan.exactly_append [closing])
  have htext : block opening closing depth line a as ++ rest = opening ::
      (newLine (depth + 1) ++ (line a ++ (more ++ (newLine depth ++ closing :: rest)))) := by
    simp only [block, more, List.cons_append, List.append_assoc, List.nil_append]
  rw [htext]
  refine (Scan.bind_of_some (Scan.exactly_append [opening])).trans ?_
  refine (Scan.bind_of_some (Scan.separated_of_some (hfirst _ hbetween) hmany)).trans ?_
  exact Scan.bind_of_some hclose

/-! ## Documents -/

/-- Whether a character can start a number. -/
def startsNumber (c : Char) : Bool := c == '-' || c.isDigit

theorem ne_of_startsNumber {c d : Char} (hc : startsNumber c = true) (hd : startsNumber d = false) :
    c ≠ d := by
  rintro rfl
  rw [hd] at hc
  cases hc

/-- No number starts with white space. -/
theorem isGap_of_startsNumber {c : Char} (h : startsNumber c = true) : isGap c = false := by
  have hspace : c ≠ ' ' := ne_of_startsNumber h rfl
  have htab : c ≠ '\t' := ne_of_startsNumber h rfl
  have hline : c ≠ '\n' := ne_of_startsNumber h rfl
  have hreturn : c ≠ '\r' := ne_of_startsNumber h rfl
  simp [isGap, hspace, htab, hline, hreturn]

/-- An integer starts with a sign or a digit. -/
theorem exists_integerChars_eq_cons (n : Int) :
    ∃ c s, Text.integerChars n = c :: s ∧ startsNumber c = true := by
  unfold Text.integerChars
  split
  · exact ⟨_, _, rfl, rfl⟩
  · have hdigits := Text.digits_natText n.natAbs
    obtain ⟨d, ds, htext⟩ := List.exists_cons_of_ne_nil hdigits.1
    have hd := hdigits.2 d (by rw [htext]; exact List.mem_cons_self)
    exact ⟨d, ds, htext, by simp [startsNumber, hd]⟩

/-- Where a number starts, a number is read: no other kind of document starts so. -/
theorem value_of_startsNumber {c : Char} {s : List Char} (depth : Nat)
    (hc : startsNumber c = true) : value (depth + 1) (c :: s) = number (c :: s) := by
  have hahead : Scan.ahead (c :: s) = some (some c, c :: s) := rfl
  have hlist : c ≠ '[' := ne_of_startsNumber hc rfl
  have hobject : c ≠ '\x7b' := ne_of_startsNumber hc rfl
  have hquote : c ≠ '"' := ne_of_startsNumber hc rfl
  have hn : c ≠ 'n' := ne_of_startsNumber hc rfl
  have ht : c ≠ 't' := ne_of_startsNumber hc rfl
  have hf : c ≠ 'f' := ne_of_startsNumber hc rfl
  simp [value, Scan.bind_of_some hahead, hlist, hobject, hquote, hn, ht, hf]

theorem value_integerChars (depth : Nat) (n : Int) (hrest : Ends rest) :
    value (depth + 1) (Text.integerChars n ++ rest) = some (.integer n, rest) := by
  -- both sides read a number, from the same text
  rw [← number_integerChars n hrest]
  obtain ⟨c, s, htext, hc⟩ := exists_integerChars_eq_cons n
  rw [htext]
  exact value_of_startsNumber depth hc

/-- A document starts with no white space. -/
theorem exists_chars_eq_cons {d : Document} (h : d.Integral) (depth : Nat) :
    ∃ c s, chars depth d = c :: s ∧ isGap c = false := by
  cases h with
  | null | text => exact ⟨_, _, rfl, rfl⟩
  | @flag b => cases b <;> exact ⟨_, _, rfl, rfl⟩
  | @integer n =>
    obtain ⟨c, s, htext, hc⟩ := exists_integerChars_eq_cons n
    exact ⟨c, s, htext, isGap_of_startsNumber hc⟩
  | @list ds => cases ds <;> exact ⟨_, _, rfl, rfl⟩
  | @object ms => cases ms <;> exact ⟨_, _, rfl, rfl⟩

theorem head_chars {d : Document} (h : d.Integral) (depth : Nat) :
    ∀ c ∈ (chars depth d ++ rest).head?, isGap c = false := by
  obtain ⟨c, s, htext, hc⟩ := exists_chars_eq_cons h depth
  rw [htext]
  exact Scan.head?_cons hc

/-- No document starts with a closing bracket. -/
theorem value_bracket (fuel : Nat) : value fuel (']' :: rest) = none := by
  cases fuel <;> rfl

/-- The end of a line and what the next one is indented by are skipped. -/
theorem spaced_line {m : Scan Document} {d : Document} (hd : d.Integral) (depth k : Nat) :
    spaced m (newLine k ++ (chars depth d ++ rest)) = m (chars depth d ++ rest) :=
  spaced_append (isGap_newLine k) (head_chars hd depth)

/-- A member is read from its line if its document is read behind the name. -/
theorem member_line {m : Scan Document} {name : String} {d : Document} (hd : d.Integral)
    {depth k : Nat} (hread : m (chars depth d ++ rest) = some (d, rest)) :
    member m (newLine k ++ (memberText depth (name, d) ++ rest)) = some ((name, d), rest) := by
  have hname : spaced text (newLine k ++ (quoted name.toList ++ (':' :: ' ' :: chars depth d ++ rest))) =
      some (name, ':' :: ' ' :: chars depth d ++ rest) :=
    (spaced_append (isGap_newLine k) (Scan.head?_cons rfl)).trans (text_quoted name)
  have hvalue : spaced m ([' '] ++ (chars depth d ++ rest)) = some (d, rest) :=
    (spaced_append (List.forall_mem_singleton.mpr rfl) (head_chars hd depth)).trans hread
  rw [memberText, List.append_assoc]
  refine (Scan.bind_of_some hname).trans ?_
  refine (Scan.bind_of_some (mark_cons rfl)).trans ?_
  exact Scan.bind_of_some hvalue

theorem value_text (fuel : Nat) (s : List Char) :
    value (fuel + 1) ('"' :: s) = (do return .text (← text) : Scan Document) ('"' :: s) := rfl

theorem value_list (fuel : Nat) (s : List Char) :
    value (fuel + 1) ('[' :: s) =
      (do return .list (← enclosed '[' ']' (spaced (value fuel))) : Scan Document) ('[' :: s) := rfl

theorem value_object (fuel : Nat) (s : List Char) :
    value (fuel + 1) ('\x7b' :: s) =
      (do return .object (← enclosed '\x7b' '\x7d' (member (value fuel))) : Scan Document)
        ('\x7b' :: s) := rfl

/-- **A document is read from what is written for it.** The depth of the reading only has to reach the
length of the text: inside a list or an object every text is shorter. -/
theorem value_chars {fuel depth : Nat} {d : Document} (hd : d.Integral)
    (hfuel : (chars depth d).length ≤ fuel) (hrest : Ends rest) :
    value fuel (chars depth d ++ rest) = some (d, rest) := by
  induction fuel generalizing depth d rest with
  | zero =>
    obtain ⟨c, s, htext, -⟩ := exists_chars_eq_cons hd depth
    rw [htext] at hfuel
    cases hfuel
  | succ fuel ih =>
    cases hd with
    | null => rfl
    | @flag b => cases b <;> rfl
    | @integer n => exact value_integerChars fuel n hrest
    | @text s => exact (value_text fuel _).trans (Scan.bind_of_some (text_quoted s))
    | @list ds h =>
      cases ds with
      | nil =>
        exact (value_list fuel _).trans (Scan.bind_of_some (enclosed_nil rfl (value_bracket fuel)))
      | cons d ds =>
        rw [chars_list] at hfuel ⊢
        refine (value_list fuel _).trans (Scan.bind_of_some (enclosed_block rfl (by decide) ?_))
        intro x hx s hs
        have hshorter := Nat.lt_of_lt_of_le (length_lt_block hx) hfuel
        -- an item is shorter than the block, so the depth that is left reaches it
        rw [spaced_line (h x hx), ih (h x hx) (Nat.le_of_lt_succ hshorter) hs]
    | @object ms h =>
      cases ms with
      | nil => exact (value_object fuel _).trans (Scan.bind_of_some (enclosed_nil rfl rfl))
      | cons m ms =>
        rw [chars_object] at hfuel ⊢
        refine (value_object fuel _).trans (Scan.bind_of_some (enclosed_block rfl (by decide) ?_))
        intro x hx s hs
        have hshorter := Nat.lt_of_lt_of_le (length_lt_block hx) hfuel
        have hvalue : (chars (depth + 1) x.2).length ≤ fuel := by
          rw [memberText, List.length_append, List.length_cons, List.length_cons] at hshorter
          omega
        exact member_line (h x hx) (ih (h x hx) hvalue hs)

end DocumentReader

open DocumentReader in
/-- A written document is read as itself. -/
theorem Document.read?_write {d : Document} (h : d.Integral) : read? d.write = some d := by
  have hlength : (chars 0 d).length ≤ d.write.length := by
    rw [write, String.length_ofList]
  have hvalue : value d.write.length (chars 0 d ++ []) = some (d, []) :=
    value_chars h hlength nofun
  have hspaced : spaced (value d.write.length) (chars 0 d ++ []) = some (d, []) :=
    (spaced_append (List.forall_mem_nil _) (head_chars h 0)).trans hvalue
  have htext : d.write.toList = chars 0 d ++ [] := by
    rw [write, String.toList_ofList, List.append_nil]
  unfold read?
  rw [htext]
  exact Scan.whole?_of_some (Scan.bind_of_some hspaced)

end AssetRegister
