import AssetRegister.Text.Wildcard
import Mathlib.Data.List.Forall2
import Mathlib.Data.List.Infix
import Mathlib.Data.List.TakeWhile

/-!
# What patterns match

The matcher fills one flag for each suffix of the text. The flags of a suffix are the last of those of the
whole text (`suffixFlags_eq`), so each flag is the matcher's own answer for its suffix, and the matcher
satisfies the equations of a match sign by sign.

`Matches` says what a match is, with the characters that stand for one another as a parameter. The matcher
tells all characters apart but three, which it reads as the replacement character (`Alike`).

Main statements: `isLike_iff`, `matches_containing`.
-/

namespace AssetRegister

/-! ## Characters as patterns read them -/

/-- The characters that patterns read as the replacement character. -/
def strays : List Char := ['\uFFFD', '\uFFFE', '\uFFFF']

/-- Two characters are the same to a pattern. -/
def Alike (a c : Char) : Prop := a = c ∨ a ∈ strays ∧ c ∈ strays

namespace CodePoint

/-- No character is a half of a surrogate pair, so only the end of the first plane is replaced. -/
theorem ofChar_eq (c : Char) :
    ofChar c = if c.toNat = 0xFFFE ∨ c.toNat = 0xFFFF then replacement else c.toNat := by
  have hvalid : c.toNat < 0xD800 ∨ 0xDFFF < c.toNat ∧ c.toNat < 0x110000 := c.valid
  have hbarred : isBarred c.toNat = true ↔ c.toNat < 0x80 ∨ c.toNat = 0xFFFE ∨ c.toNat = 0xFFFF := by
    simp only [isBarred, Bool.or_eq_true, decide_eq_true_eq, beq_iff_eq]
    omega
  unfold ofChar settled
  split
  · rw [if_neg (by omega)]
  · simp only [hbarred, or_iff_right ‹¬c.toNat < 0x80›]

/-- The characters that patterns read as one, by their numbers. -/
theorem mem_strays {c : Char} :
    c ∈ strays ↔ c.toNat = 0xFFFD ∨ c.toNat = 0xFFFE ∨ c.toNat = 0xFFFF := by
  have hnumbers : ∀ d : Char, c = d ↔ c.toNat = d.toNat := fun d => Char.toNat_inj.symm
  simp only [strays, List.mem_cons, List.not_mem_nil, or_false, hnumbers]
  rfl

/-- Two characters are read as one code point exactly if they are the same to a pattern. -/
theorem ofChar_eq_iff {a c : Char} : ofChar a = ofChar c ↔ Alike a c := by
  have hnumbers : a = c ↔ a.toNat = c.toNat := Char.toNat_inj.symm
  unfold Alike
  rw [ofChar_eq, ofChar_eq, mem_strays, mem_strays, hnumbers]
  unfold replacement
  split <;> split <;> omega

theorem ofChar_eq_zero {c : Char} (h : ofChar c = 0) : c = '\x00' := by
  rw [ofChar_eq] at h
  unfold replacement at h
  split at h
  · omega
  · exact Char.toNat_inj.mp h

end CodePoint

namespace Wildcard

/-! ## The matcher's flags -/

theorem length_anySuffix (flags : List Bool) : (anySuffix flags).length = flags.length := by
  induction flags with
  | nil => rfl
  | cons b flags ih => exact congrArg (· + 1) ih

theorem length_stepFlags (pass : Nat → Bool) (s : List Nat) (flags : List Bool) :
    (stepFlags pass s flags).length = s.length + 1 := by
  induction s generalizing flags with
  | nil => cases flags <;> rfl
  | cons n s ih => exact congrArg (· + 1) (ih flags.tail)

/-- There is a flag for each suffix, the empty one included. -/
theorem length_suffixFlags (s pattern : List Nat) :
    (suffixFlags s pattern).length = s.length + 1 := by
  induction pattern with
  | nil => simp [suffixFlags]
  | cons p pattern ih =>
    unfold suffixFlags
    dsimp only
    split
    · rw [length_anySuffix, ih]
    · split <;> exact length_stepFlags _ _ _

/-- The flags after the first are those of the text after its first code point. Induction on the
pattern, since flags are filled from its end. -/
theorem tail_suffixFlags (n : Nat) (s pattern : List Nat) :
    (suffixFlags (n :: s) pattern).tail = suffixFlags s pattern := by
  have hany : ∀ flags, (anySuffix flags).tail = anySuffix flags.tail := by
    intro flags
    cases flags <;> rfl
  induction pattern with
  | nil => rfl
  | cons p pattern ih =>
    unfold suffixFlags
    dsimp only
    split
    · rw [hany, ih]
    · split <;> rw [stepFlags, List.tail_cons, ih]

/-- Each flag is the matcher's answer for its suffix. -/
theorem suffixFlags_eq (s pattern : List Nat) :
    suffixFlags s pattern = s.tails.map (accepts pattern) := by
  induction s with
  | nil =>
    obtain ⟨b, hflags⟩ := List.length_eq_one_iff.mp (length_suffixFlags [] pattern)
    rw [List.tails, List.map_singleton, accepts, hflags]
    rfl
  | cons n s ih =>
    have hne : suffixFlags (n :: s) pattern ≠ [] := by
      rw [← List.length_pos_iff, length_suffixFlags]
      exact Nat.succ_pos _
    obtain ⟨b, flags, hflags⟩ := List.exists_cons_of_ne_nil hne
    -- the first flag is the matcher's answer by definition, and the others are those of the rest
    have htail := tail_suffixFlags n s pattern
    rw [hflags, List.tail_cons] at htail
    rw [List.tails_cons, List.map_cons, ← ih, accepts, hflags, htail]
    rfl

/-- The empty pattern matches the empty text only. -/
theorem accepts_nil {s : List Nat} : accepts [] s = true ↔ s = [] := by
  cases s <;> simp [accepts, suffixFlags]

/-- The sign for any run takes a part off the front, and the rest of the pattern what is left. -/
theorem accepts_anyRun {pattern s : List Nat} :
    accepts (anyRun :: pattern) s = true ↔ ∃ m t, s = m ++ t ∧ accepts pattern t = true := by
  -- the first flag is set if any flag is
  have hany : ∀ flags, (anySuffix flags).headD false = true ↔ true ∈ flags := by
    intro flags
    induction flags with
    | nil => simp [anySuffix]
    | cons b flags ih =>
      show (b || (anySuffix flags).headD false) = true ↔ _
      rw [Bool.or_eq_true, ih, List.mem_cons, eq_comm]
  have hflags : accepts (anyRun :: pattern) s = (anySuffix (suffixFlags s pattern)).headD false := rfl
  rw [hflags, hany, suffixFlags_eq, List.mem_map]
  constructor
  · rintro ⟨t, ht, haccepts⟩
    obtain ⟨m, hs⟩ := (List.mem_tails _ _).mp ht
    exact ⟨m, t, hs.symm, haccepts⟩
  · rintro ⟨m, t, rfl, haccepts⟩
    exact ⟨t, (List.mem_tails _ _).mpr (List.suffix_append m t), haccepts⟩

/-- A sign for one code point takes the first one, if that passes. -/
theorem headD_stepFlags {pass : Nat → Bool} {pattern s : List Nat} :
    (stepFlags pass s (suffixFlags s pattern)).headD false = true ↔
      ∃ n t, s = n :: t ∧ pass n = true ∧ accepts pattern t = true := by
  cases s with
  | nil => simp [stepFlags]
  | cons n s =>
    have hhead : (stepFlags pass (n :: s) (suffixFlags (n :: s) pattern)).headD false =
        (pass n && accepts pattern s) := by
      rw [stepFlags, tail_suffixFlags]
      rfl
    rw [hhead, Bool.and_eq_true]
    constructor
    · rintro ⟨hpass, haccepts⟩
      exact ⟨n, s, rfl, hpass, haccepts⟩
    · rintro ⟨_, _, ⟨⟩, hpass, haccepts⟩
      exact ⟨hpass, haccepts⟩

theorem accepts_anyOne {pattern s : List Nat} :
    accepts (anyOne :: pattern) s = true ↔ ∃ n t, s = n :: t ∧ accepts pattern t = true := by
  have hflags : accepts (anyOne :: pattern) s =
      (stepFlags (fun _ => true) s (suffixFlags s pattern)).headD false := rfl
  rw [hflags, headD_stepFlags]
  simp only [true_and]

theorem accepts_self {p : Nat} (hrun : p ≠ anyRun) (hone : p ≠ anyOne) {pattern s : List Nat} :
    accepts (p :: pattern) s = true ↔ ∃ t, s = p :: t ∧ accepts pattern t = true := by
  have hflags : accepts (p :: pattern) s =
      (stepFlags (· == p) s (suffixFlags s pattern)).headD false := by
    rw [accepts, suffixFlags, if_neg hrun, if_neg hone]
  rw [hflags, headD_stepFlags]
  constructor
  · rintro ⟨n, t, hs, hpass, haccepts⟩
    exact ⟨t, beq_iff_eq.mp hpass ▸ hs, haccepts⟩
  · rintro ⟨t, hs, haccepts⟩
    exact ⟨p, t, hs, beq_self_eq_true p, haccepts⟩

/-! ## Matches -/

/-- A text matches a pattern: `%` stands for any run of characters, `_` for one and every other character
for those that are the same to it. -/
inductive Matches (same : Char → Char → Prop) : List Char → List Char → Prop where
  | nil : Matches same [] []
  | anyRun (m : List Char) {pattern s : List Char} (rest : Matches same pattern s) :
      Matches same ('%' :: pattern) (m ++ s)
  | anyOne (c : Char) {pattern s : List Char} (rest : Matches same pattern s) :
      Matches same ('_' :: pattern) (c :: s)
  | self {a c : Char} {pattern s : List Char} (hrun : a ≠ '%') (hone : a ≠ '_') (hsame : same a c)
      (rest : Matches same pattern s) : Matches same (a :: pattern) (c :: s)

/-- Some part of a text matches a pattern. -/
def MatchesIn (same : Char → Char → Prop) (pattern s : List Char) : Prop :=
  ∃ m, m <:+: s ∧ Matches same pattern m

/-- The matcher decides matches. Induction on the pattern with the text left open. -/
theorem accepts_iff {pattern s : List Char} :
    accepts (pattern.map CodePoint.ofChar) (s.map CodePoint.ofChar) = true ↔
      Matches Alike pattern s := by
  induction pattern generalizing s with
  | nil =>
    rw [List.map_nil, accepts_nil, List.map_eq_nil_iff]
    constructor
    · rintro rfl
      exact .nil
    · rintro ⟨⟩
      rfl
  | cons a pattern ih =>
    rw [List.map_cons]
    rcases eq_or_ne a '%' with rfl | hrun
    · have hsign : CodePoint.ofChar '%' = anyRun := rfl
      rw [hsign, accepts_anyRun]
      constructor
      · rintro ⟨m', t', hs, haccepts⟩
        obtain ⟨m, t, rfl, -, rfl⟩ := List.map_eq_append_iff.mp hs
        exact .anyRun m (ih.mp haccepts)
      · intro h
        cases h with
        | anyRun m rest => exact ⟨_, _, List.map_append, ih.mpr rest⟩
        | self hrun => exact absurd rfl hrun
    rcases eq_or_ne a '_' with rfl | hone
    · have hsign : CodePoint.ofChar '_' = anyOne := rfl
      rw [hsign, accepts_anyOne]
      constructor
      · rintro ⟨n, t', hs, haccepts⟩
        obtain ⟨c, t, rfl, -, rfl⟩ := List.map_eq_cons_iff.mp hs
        exact .anyOne c (ih.mp haccepts)
      · intro h
        cases h with
        | anyOne c rest => exact ⟨_, _, List.map_cons, ih.mpr rest⟩
        | self _ hone => exact absurd rfl hone
    -- any other sign is no wildcard as a code point either
    have hkept : ∀ c ∉ strays, a ≠ c → CodePoint.ofChar a ≠ CodePoint.ofChar c := by
      intro c hc hne h
      rcases CodePoint.ofChar_eq_iff.mp h with h | ⟨-, h⟩
      · exact hne h
      · exact hc h
    rw [accepts_self (hkept '%' (by decide) hrun) (hkept '_' (by decide) hone)]
    constructor
    · rintro ⟨t', hs, haccepts⟩
      obtain ⟨c, t, rfl, hsame, rfl⟩ := List.map_eq_cons_iff.mp hs
      exact .self hrun hone (CodePoint.ofChar_eq_iff.mp hsame.symm) (ih.mp haccepts)
    · intro h
      cases h with
      | anyRun => exact absurd rfl hrun
      | anyOne => exact absurd rfl hone
      | self _ _ hsame rest =>
        refine ⟨_, ?_, ih.mpr rest⟩
        rw [List.map_cons, CodePoint.ofChar_eq_iff.mpr hsame]

/-- Of a text without nulls a pattern sees everything. -/
theorem visible_ofText {s : String} (h : '\x00' ∉ s.toList) :
    visible (CodePoint.ofText s) = s.toList.map CodePoint.ofChar := by
  unfold visible CodePoint.ofText
  refine List.takeWhile_eq_self_iff.mpr fun n hn => ?_
  obtain ⟨c, hc, rfl⟩ := List.mem_map.mp hn
  exact bne_iff_ne.mpr fun hzero => h (CodePoint.ofChar_eq_zero hzero ▸ hc)

/-- Texts without nulls are matched as a whole. -/
theorem isLike_iff {pattern s : String} (hpattern : '\x00' ∉ pattern.toList)
    (hs : '\x00' ∉ s.toList) :
    isLike pattern (CodePoint.ofText s) = true ↔ Matches Alike pattern.toList s.toList := by
  unfold isLike
  rw [visible_ofText hpattern, visible_ofText hs, accepts_iff]

/-! ## Matches of a part -/

section Part

variable {same : Char → Char → Prop}

/-- Two patterns in a row match two texts in a row. Induction on the first pattern with the text left
open. -/
theorem matches_append {p q s : List Char} :
    Matches same (p ++ q) s ↔ ∃ m t, s = m ++ t ∧ Matches same p m ∧ Matches same q t := by
  induction p generalizing s with
  | nil =>
    constructor
    · intro h
      exact ⟨[], s, rfl, .nil, h⟩
    · rintro ⟨_, t, rfl, ⟨⟩, ht⟩
      exact ht
  | cons a p ih =>
    constructor
    · rintro (_ | ⟨l, rest⟩ | ⟨c, rest⟩ | ⟨hrun, hone, hsame, rest⟩)
      -- in each case the rest of the first pattern matches a part, before which the sign's own part goes
      all_goals obtain ⟨m, t, rfl, hm, ht⟩ := ih.mp rest
      · exact ⟨l ++ m, t, (List.append_assoc _ _ _).symm, .anyRun l hm, ht⟩
      · exact ⟨c :: m, t, rfl, .anyOne c hm, ht⟩
      · exact ⟨_ :: m, t, rfl, .self hrun hone hsame hm, ht⟩
    · rintro ⟨_, t, rfl, _ | ⟨l, rest⟩ | ⟨c, rest⟩ | ⟨hrun, hone, hsame, rest⟩, ht⟩
      all_goals have hrest := ih.mpr ⟨_, t, rfl, rest, ht⟩
      · rw [List.append_assoc]
        exact .anyRun l hrest
      · exact .anyOne c hrest
      · exact .self hrun hone hsame hrest

/-- A pattern between two signs for any run matches a text of which the pattern matches a part. -/
theorem matches_containing {v s : List Char} :
    Matches same ('%' :: (v ++ ['%'])) s ↔ MatchesIn same v s := by
  constructor
  · intro h
    cases h with
    | anyRun l rest =>
      obtain ⟨m, t, rfl, hm, -⟩ := matches_append.mp rest
      exact ⟨m, ⟨l, t, List.append_assoc _ _ _⟩, hm⟩
    | self hrun => exact absurd rfl hrun
  · rintro ⟨m, ⟨l, t, rfl⟩, hm⟩
    have hend : Matches same ['%'] t := by
      have hany := Matches.anyRun t (.nil : Matches same [] [])
      rwa [List.append_nil] at hany
    rw [List.append_assoc]
    exact .anyRun l (matches_append.mpr ⟨m, t, rfl, hm, hend⟩)

/-- A pattern without wildcards matches character by character. -/
theorem matches_iff_forall₂ {v m : List Char} (hrun : '%' ∉ v) (hone : '_' ∉ v) :
    Matches same v m ↔ List.Forall₂ same v m := by
  constructor
  · intro h
    induction h with
    | nil => exact .nil
    | anyRun => exact absurd List.mem_cons_self hrun
    | anyOne => exact absurd List.mem_cons_self hone
    | self _ _ hsame _ ih =>
      exact .cons hsame (ih (List.not_mem_of_not_mem_cons hrun) (List.not_mem_of_not_mem_cons hone))
  · intro h
    induction h with
    | nil => exact .nil
    | cons hsame _ ih =>
      exact .self (List.ne_of_not_mem_cons hrun).symm (List.ne_of_not_mem_cons hone).symm hsame
        (ih (List.not_mem_of_not_mem_cons hrun) (List.not_mem_of_not_mem_cons hone))

/-- A pattern without wildcards matches a part character by character. -/
theorem matchesIn_iff_forall₂ {v s : List Char} (hrun : '%' ∉ v) (hone : '_' ∉ v) :
    MatchesIn same v s ↔ ∃ m, m <:+: s ∧ List.Forall₂ same v m := by
  unfold MatchesIn
  simp only [matches_iff_forall₂ hrun hone]

theorem matchesIn_nil (s : List Char) : MatchesIn same [] s :=
  ⟨[], List.nil_infix, .nil⟩

/-- A match stays one where more characters are the same, if only on those that occur. -/
theorem Matches.imp {same' : Char → Char → Prop} {v m : List Char}
    (h : ∀ a ∈ v, ∀ c ∈ m, same a c → same' a c) (hm : Matches same v m) : Matches same' v m := by
  induction hm with
  | nil => exact .nil
  | anyRun l _ ih =>
    exact .anyRun l (ih fun a ha c hc => h a (.tail _ ha) c (List.mem_append_right _ hc))
  | anyOne c _ ih => exact .anyOne c (ih fun a ha c hc => h a (.tail _ ha) c (.tail _ hc))
  | self hrun hone hsame _ ih =>
    exact .self hrun hone (h _ List.mem_cons_self _ List.mem_cons_self hsame)
      (ih fun a ha c hc => h a (.tail _ ha) c (.tail _ hc))

end Part

/-- Texts whose characters are all told apart match as they are. -/
theorem matchesIn_alike_iff {v s : List Char} (h : ∀ c ∈ v ++ s, c ≠ '\uFFFE' ∧ c ≠ '\uFFFF') :
    MatchesIn Alike v s ↔ MatchesIn Eq v s := by
  obtain ⟨hv, hs⟩ := List.forall_mem_append.mp h
  have heq : ∀ a ∈ v, ∀ c ∈ s, Alike a c → a = c := by
    rintro a ha c hc (hac | ⟨hastray, hcstray⟩)
    · exact hac
    · have honly : ∀ d ∈ strays, d ≠ '\uFFFE' ∧ d ≠ '\uFFFF' → d = '\uFFFD' :=
        List.forall_iff_forall_mem.mp (by decide)
      exact (honly a hastray (hv a ha)).trans (honly c hcstray (hs c hc)).symm
  constructor
  · rintro ⟨m, hms, hm⟩
    exact ⟨m, hms, hm.imp fun a ha c hc => heq a ha c (hms.subset hc)⟩
  · rintro ⟨m, hms, hm⟩
    exact ⟨m, hms, hm.imp fun a _ c _ hac => .inl hac⟩

/-- If all characters are told apart, a pattern without wildcards matches exactly where it occurs. -/
theorem matchesIn_eq_iff {v s : List Char} (hrun : '%' ∉ v) (hone : '_' ∉ v) :
    MatchesIn Eq v s ↔ v <:+: s := by
  rw [matchesIn_iff_forall₂ hrun hone]
  simp

end Wildcard

end AssetRegister
