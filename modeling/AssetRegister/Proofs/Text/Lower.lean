import AssetRegister.Proofs.Text.Wildcard
import AssetRegister.Text.Lower

/-!
# Lowercase of a part

A text's lowercase is made character by character. A capital sigma alone looks at the characters around
it, so the lowercase of a part is a part of the lowercase unless a capital sigma in it looks beyond its
ends (`SettledSigmas.lowerBetween_eq`). If one does, an alpha on one side gives it another form than it
has on its own (`exists_other_form`), and the longer text has fewer sigmas of that form.

Main statement: `settledSigmas_iff`.
-/

namespace AssetRegister

namespace Text

/-! ## Characters of the lowercase -/

/-- Mappings lead to characters, and to none below the small letters or at the end of the first plane. -/
theorem lowerRuns_images : ∀ r ∈ lowerRuns,
    0x5F < r.first + r.shift ∧
      (r.last + r.shift < 0xD800 ∨
        0xDFFF < r.first + r.shift ∧ r.last + r.shift < 0xFFFE ∨
        0xFFFF < r.first + r.shift ∧ r.last + r.shift < 0x110000) := by
  decide +kernel

/-- A character that a mapping can lead to. -/
def IsImage (d : Char) : Prop := 0x5F < d.toNat ∧ d.toNat ≠ 0xFFFE ∧ d.toNat ≠ 0xFFFF

instance (d : Char) : Decidable (IsImage d) := inferInstanceAs (Decidable (_ ∧ _))

/-- A character of the lowercase of another is that character or one that a mapping leads to. -/
theorem mem_lowerChar {c d : Char} (h : d ∈ lowerChar c) : d = c ∨ IsImage d := by
  unfold lowerChar at h
  split at h
  · have hdotted : ∀ d ∈ ['i', '\u0307'], IsImage d := List.forall_iff_forall_mem.mp (by decide)
    exact .inr (hdotted d h)
  · split at h
    · next r hr =>
      have himages := lowerRuns_images r (List.mem_of_find?_eq_some hr)
      have hcontains := List.find?_some hr
      simp only [CaseRun.contains, Bool.and_eq_true, decide_eq_true_eq] at hcontains
      -- no mapping leads into the surrogates, so the number is that of a character
      have hvalid : Nat.isValidChar (c.toNat + r.shift).toNat := by
        unfold Nat.isValidChar
        omega
      have hnumber : d.toNat = (c.toNat + r.shift).toNat := by
        rw [List.mem_singleton.mp h, Char.ofNat, dif_pos hvalid]
        rfl
      unfold IsImage
      right
      omega
    · exact .inl (List.mem_singleton.mp h)

/-- A lowercase has the characters of its text and those that mappings lead to. -/
theorem mem_lowerAfter {before s : List Char} {d : Char} (h : d ∈ lowerAfter before s) :
    d ∈ s ∨ IsImage d := by
  induction s generalizing before with
  | nil => cases h
  | cons c s ih =>
    unfold lowerAfter at h
    rcases List.mem_append.mp h with h | h
    · split at h
      -- both forms of sigma are images
      · have hsigma : d = '\u03C2' ∨ d = '\u03C3' := by
          rw [List.mem_singleton.mp h]
          unfold sigmaForm
          split
          · exact .inl rfl
          · exact .inr rfl
        rcases hsigma with rfl | rfl <;> exact .inr (by decide)
      · rcases mem_lowerChar h with rfl | himage
        · exact .inl List.mem_cons_self
        · exact .inr himage
    · rcases ih h with hs | himage
      · exact .inl (.tail _ hs)
      · exact .inr himage

/-- Nulls, wildcards and the characters that patterns confuse are in a lowercase only if they are in the
text. -/
theorem notMem_lower {c : Char} (hc : c ∈ ['\x00', '%', '_', '\uFFFE', '\uFFFF']) {s : String}
    (h : c ∉ s.toList) : c ∉ (lower s).toList := by
  have hnoImage : ∀ c ∈ ['\x00', '%', '_', '\uFFFE', '\uFFFF'], ¬IsImage c :=
    List.forall_iff_forall_mem.mp (by decide)
  unfold lower
  rw [String.toList_ofList]
  intro hlower
  rcases mem_lowerAfter hlower with hs | himage
  · exact h hs
  · exact hnoImage c hc himage

/-! ## What casing meets -/

theorem meetsCased_cons (c : Char) (s : List Char) :
    meetsCased (c :: s) = if isCaseIgnorable c then meetsCased s else isCased c := by
  unfold meetsCased
  rw [List.dropWhile_cons]
  cases isCaseIgnorable c <;> rfl

/-- What casing meets first is in the second text only if it looks through all of the first. -/
theorem meetsCased_append (s t : List Char) :
    meetsCased (s ++ t) = if s.all isCaseIgnorable then meetsCased t else meetsCased s := by
  induction s with
  | nil => rfl
  | cons c s ih =>
    rw [List.cons_append, meetsCased_cons, meetsCased_cons, List.all_cons, ih]
    cases isCaseIgnorable c <;> rfl

theorem meetsCased_of_all {s : List Char} (h : s.all isCaseIgnorable = true) :
    meetsCased s = false := by
  have hend := meetsCased_append s []
  rwa [List.append_nil, if_pos h] at hend

theorem not_isCaseIgnorable_capitalSigma : isCaseIgnorable capitalSigma = false := by
  decide +kernel

/-- Casing does not look through a capital sigma. -/
theorem meetsCased_capitalSigma (s : List Char) : meetsCased (capitalSigma :: s) = true := by
  have hcased : isCased capitalSigma = true := by decide +kernel
  rw [meetsCased_cons, not_isCaseIgnorable_capitalSigma, hcased]
  rfl

/-- A text that casing looks through has no capital sigma. -/
theorem notMem_of_all {s : List Char} (h : s.all isCaseIgnorable = true) : capitalSigma ∉ s := by
  intro hmem
  have hignorable := List.all_eq_true.mp h _ hmem
  rw [not_isCaseIgnorable_capitalSigma] at hignorable
  cases hignorable

/-! ## The lowercase between two texts -/

/-- The lowercase of a text that stands between two others. The one before is given with its nearest
character first. -/
def lowerBetween (before : List Char) : List Char → List Char → List Char
  | [], _ => []
  | c :: s, after =>
    (if c = capitalSigma then [sigmaForm before (s ++ after)] else lowerChar c) ++
      lowerBetween (c :: before) s after

/-- A text with nothing behind it. -/
theorem lowerAfter_eq (before s : List Char) : lowerAfter before s = lowerBetween before s [] := by
  induction s generalizing before with
  | nil => rfl
  | cons c s ih => rw [lowerAfter, lowerBetween, ih, List.append_nil]

/-- The lowercase of two texts in a row, each of which stands beside the other. -/
theorem lowerBetween_append (before s t after : List Char) :
    lowerBetween before (s ++ t) after =
      lowerBetween before s (t ++ after) ++ lowerBetween (s.reverse ++ before) t after := by
  induction s generalizing before with
  | nil => rfl
  | cons c s ih =>
    rw [List.cons_append, lowerBetween, lowerBetween, ih, List.append_assoc, List.append_assoc,
      List.reverse_cons, List.append_assoc]
    rfl

/-- The lowercase of a text around one of its parts. -/
theorem lowerChars_around (x v y : List Char) :
    lowerChars (x ++ (v ++ y)) =
      lowerBetween [] x (v ++ y) ++
        (lowerBetween x.reverse v y ++ lowerBetween (v.reverse ++ x.reverse) y []) := by
  unfold lowerChars
  rw [lowerAfter_eq, lowerBetween_append, lowerBetween_append]
  simp only [List.append_nil]

/-- A text between two others, around one of its capital sigmas. -/
theorem lowerBetween_around (before s t after : List Char) :
    lowerBetween before (s ++ capitalSigma :: t) after =
      lowerBetween before s (capitalSigma :: (t ++ after)) ++
        sigmaForm (s.reverse ++ before) (t ++ after) ::
          lowerBetween (capitalSigma :: (s.reverse ++ before)) t after := by
  rw [lowerBetween_append, lowerBetween, if_pos rfl]
  rfl

/-- Without a capital sigma nothing depends on the surroundings. -/
theorem lowerBetween_of_notMem {s : List Char} (h : capitalSigma ∉ s) (before after : List Char) :
    lowerBetween before s after = s.flatMap lowerChar := by
  induction s generalizing before with
  | nil => rfl
  | cons c s ih =>
    rw [lowerBetween, if_neg (List.ne_of_not_mem_cons h).symm, ih (List.not_mem_of_not_mem_cons h),
      List.flatMap_cons]

/-! ### Characters that casing treats alike -/

/-- A relation of characters that have the same part in casing, and whose lowercases are so related. -/
structure RespectsCase (same : Char → Char → Prop) : Prop where
  refl (c : Char) : same c c
  isCased {a c : Char} (h : same a c) : isCased a = isCased c
  isCaseIgnorable {a c : Char} (h : same a c) : isCaseIgnorable a = isCaseIgnorable c
  capitalSigma {a c : Char} (h : same a c) : a = capitalSigma ↔ c = capitalSigma
  lowerChar {a c : Char} (h : same a c) : List.Forall₂ same (lowerChar a) (lowerChar c)

theorem respectsCase_eq : RespectsCase Eq where
  refl _ := rfl
  isCased := by rintro _ _ rfl; rfl
  isCaseIgnorable := by rintro _ _ rfl; rfl
  capitalSigma := by rintro _ _ rfl; rfl
  lowerChar := by rintro _ _ rfl; exact List.forall₂_refl _

/-- Casing leaves alone what patterns confuse. -/
theorem respectsCase_alike : RespectsCase Alike := by
  have hstrays : ∀ a ∈ strays, isCased a = false ∧ isCaseIgnorable a = false ∧ a ≠ capitalSigma ∧
      lowerChar a = [a] := List.forall_iff_forall_mem.mp (by decide +kernel)
  refine ⟨fun c => .inl rfl, ?_, ?_, ?_, ?_⟩
  all_goals
    rintro a c (rfl | ⟨ha, hc⟩)
  · rfl
  · rw [(hstrays a ha).1, (hstrays c hc).1]
  · rfl
  · rw [(hstrays a ha).2.1, (hstrays c hc).2.1]
  · exact Iff.rfl
  · exact iff_of_false (hstrays a ha).2.2.1 (hstrays c hc).2.2.1
  · exact List.forall₂_same.mpr fun d _ => .inl rfl
  · rw [(hstrays a ha).2.2.2, (hstrays c hc).2.2.2]
    exact .cons (.inr ⟨ha, hc⟩) .nil

/-- Texts of characters that casing treats alike meet it alike, if what comes after them does. -/
theorem RespectsCase.meetsCased {same : Char → Char → Prop} (hsame : RespectsCase same)
    {s t after after' : List Char} (h : List.Forall₂ same s t)
    (hafter : meetsCased after = meetsCased after') :
    meetsCased (s ++ after) = meetsCased (t ++ after') := by
  induction h with
  | nil => exact hafter
  | cons hac _ ih =>
    rw [List.cons_append, List.cons_append, meetsCased_cons, meetsCased_cons,
      hsame.isCaseIgnorable hac, hsame.isCased hac, ih]

/-- Texts that casing treats alike have such lowercases, in surroundings that meet it alike. Induction on
the pairs of characters with the texts before them left open. -/
theorem RespectsCase.lowerBetween {same : Char → Char → Prop} (hsame : RespectsCase same)
    {before before' s t after after' : List Char} (h : List.Forall₂ same s t)
    (hbefore : Text.meetsCased before = Text.meetsCased before')
    (hafter : Text.meetsCased after = Text.meetsCased after') :
    List.Forall₂ same (Text.lowerBetween before s after) (Text.lowerBetween before' t after') := by
  induction h generalizing before before' with
  | nil => exact .nil
  | @cons a c s t hac hst ih =>
    -- the characters just read join what stands before the next ones
    have hnext : Text.meetsCased (a :: before) = Text.meetsCased (c :: before') := by
      rw [meetsCased_cons, meetsCased_cons, hsame.isCaseIgnorable hac, hsame.isCased hac, hbefore]
    have hform : sigmaForm before (s ++ after) = sigmaForm before' (t ++ after') := by
      unfold sigmaForm
      rw [hbefore, hsame.meetsCased hst hafter]
    refine List.rel_append ?_ (ih hnext)
    by_cases hsigma : c = Text.capitalSigma
    · rw [if_pos hsigma, if_pos ((hsame.capitalSigma hac).mpr hsigma), hform]
      exact .cons (hsame.refl _) .nil
    · rw [if_neg hsigma, if_neg fun ha => hsigma ((hsame.capitalSigma hac).mp ha)]
      exact hsame.lowerChar hac

/-- Surroundings count only by what they meet casing with. -/
theorem lowerBetween_congr {before before' after after' : List Char} (s : List Char)
    (hbefore : meetsCased before = meetsCased before')
    (hafter : meetsCased after = meetsCased after') :
    lowerBetween before s after = lowerBetween before' s after' :=
  List.forall₂_eq_eq_eq ▸ respectsCase_eq.lowerBetween (List.forall₂_refl s) hbefore hafter

/-! ## Settled sigmas -/

/-- No capital sigma of a text looks beyond its ends where it matters: neither can a letter before the
text make one final nor can a letter after it keep one from being so. -/
def SettledSigmas (v : List Char) : Prop :=
  ∀ before after, v = before ++ capitalSigma :: after →
    ¬(before.all isCaseIgnorable = true ∧ meetsCased after = false) ∧
    ¬(meetsCased before.reverse = true ∧ after.all isCaseIgnorable = true)

/-- Without a capital sigma there is nothing to settle. -/
theorem settledSigmas_of_notMem {v : List Char} (h : capitalSigma ∉ v) : SettledSigmas v := by
  rintro before after rfl
  exact absurd (List.mem_append_right _ List.mem_cons_self) h

/-- A settled capital sigma has the same form in all surroundings. -/
theorem SettledSigmas.sigmaForm_eq {s t : List Char} (h : SettledSigmas (s ++ capitalSigma :: t))
    (before after : List Char) :
    sigmaForm (s.reverse ++ before) (t ++ after) = sigmaForm s.reverse t := by
  obtain ⟨hfirst, hlast⟩ := h s t rfl
  unfold sigmaForm
  rw [meetsCased_append, meetsCased_append, List.all_reverse]
  by_cases hs : s.all isCaseIgnorable = true
  · -- nothing before it is cased, so what comes after has to keep it from being final
    have ht : meetsCased t = true := by
      by_contra hmeets
      exact hfirst ⟨hs, Bool.eq_false_iff.mpr hmeets⟩
    have hall : t.all isCaseIgnorable ≠ true := by
      intro hall
      rw [meetsCased_of_all hall] at ht
      cases ht
    rw [if_neg hall, ht, Bool.not_true, Bool.and_false, Bool.and_false]
  · rw [if_neg hs]
    cases hmeets : meetsCased s.reverse with
    | false => rfl
    | true => rw [if_neg fun hall => hlast ⟨hmeets, hall⟩]

/-- Settled sigmas: the lowercase of a part is what it is on its own. Induction on what is left of the
text. -/
theorem SettledSigmas.lowerBetween_eq {v : List Char} (h : SettledSigmas v)
    (before after : List Char) : lowerBetween before v after = lowerChars v := by
  have hrest : ∀ s t, v = s ++ t →
      lowerBetween (s.reverse ++ before) t after = lowerBetween s.reverse t [] := by
    intro s t hv
    induction t generalizing s with
    | nil => rfl
    | cons c t ih =>
      have hnext := ih (s ++ [c]) (by rw [hv, List.append_assoc]; rfl)
      rw [List.reverse_append] at hnext
      rw [lowerBetween, lowerBetween, List.append_nil]
      refine congrArg₂ (· ++ ·) ?_ hnext
      split
      -- only a capital sigma looks at its surroundings
      · next hsigma =>
        subst hsigma
        rw [(hv ▸ h : SettledSigmas (s ++ capitalSigma :: t)).sigmaForm_eq]
      · rfl
  unfold lowerChars
  rw [lowerAfter_eq]
  exact hrest [] v rfl

theorem meetsCased_append_alpha {s : List Char} (h : s.all isCaseIgnorable = true) :
    meetsCased (s ++ ['\u0391']) = true := by
  have hcased : meetsCased ['\u0391'] = true := by decide +kernel
  rw [meetsCased_append, if_pos h, hcased]

/-- A text on its own, around one of its capital sigmas. -/
theorem lowerChars_around_sigma (s t : List Char) :
    lowerChars (s ++ capitalSigma :: t) =
      lowerBetween [] s (capitalSigma :: t) ++
        sigmaForm s.reverse t :: lowerBetween (capitalSigma :: s.reverse) t [] := by
  unfold lowerChars
  rw [lowerAfter_eq, lowerBetween_around, List.append_nil, List.append_nil]

/-- A sigma with nothing cased on either side becomes final behind an alpha. Nothing else changes: before
the sigma there is only what casing looks through, and the sigma hides the alpha from the rest. -/
theorem lowerBetween_behind_alpha {s t : List Char} (hs : s.all isCaseIgnorable = true)
    (ht : meetsCased t = false) :
    ∃ l m, lowerChars (s ++ capitalSigma :: t) = l ++ '\u03C3' :: m ∧
      lowerBetween ['\u0391'] (s ++ capitalSigma :: t) [] = l ++ '\u03C2' :: m := by
  have hreverse : s.reverse.all isCaseIgnorable = true := by rwa [List.all_reverse]
  have halone : sigmaForm s.reverse t = '\u03C3' := by
    rw [sigmaForm, meetsCased_of_all hreverse]
    rfl
  have hother : sigmaForm (s.reverse ++ ['\u0391']) t = '\u03C2' := by
    rw [sigmaForm, meetsCased_append_alpha hreverse, ht]
    rfl
  rw [lowerChars_around_sigma, lowerBetween_around, List.append_nil, halone, hother]
  refine ⟨_, _, rfl, ?_⟩
  rw [lowerBetween_of_notMem (notMem_of_all hs), lowerBetween_of_notMem (notMem_of_all hs)]
  refine congrArg _ (congrArg _ (lowerBetween_congr t ?_ rfl))
  rw [meetsCased_capitalSigma, meetsCased_capitalSigma]

/-- A final sigma with nothing behind it but what casing looks through is not final before an alpha. -/
theorem lowerBetween_before_alpha {s t : List Char} (hs : meetsCased s.reverse = true)
    (ht : t.all isCaseIgnorable = true) :
    ∃ l m, lowerChars (s ++ capitalSigma :: t) = l ++ '\u03C2' :: m ∧
      lowerBetween [] (s ++ capitalSigma :: t) ['\u0391'] = l ++ '\u03C3' :: m := by
  have halone : sigmaForm s.reverse t = '\u03C2' := by
    rw [sigmaForm, hs, meetsCased_of_all ht]
    rfl
  have hother : sigmaForm s.reverse (t ++ ['\u0391']) = '\u03C3' := by
    rw [sigmaForm, meetsCased_append_alpha ht, Bool.not_true, Bool.and_false]
    rfl
  rw [lowerChars_around_sigma, lowerBetween_around, List.append_nil, halone, hother]
  refine ⟨_, _, rfl, ?_⟩
  rw [lowerBetween_of_notMem (notMem_of_all ht), lowerBetween_of_notMem (notMem_of_all ht)]
  refine congrArg (· ++ _) (lowerBetween_congr s rfl ?_)
  rw [meetsCased_capitalSigma, meetsCased_capitalSigma]

/-- A sigma that is not settled has another form than on its own behind an alpha or before one. -/
theorem exists_other_form {v : List Char} (h : ¬SettledSigmas v) :
    ∃ x ∈ [[], ['\u0391']], ∃ y ∈ [[], ['\u0391']], ∃ f ∈ ['\u03C2', '\u03C3'], ∃ g ≠ f,
      ∃ l m, lowerChars v = l ++ f :: m ∧ lowerBetween x v y = l ++ g :: m := by
  unfold SettledSigmas at h
  push Not at h
  obtain ⟨s, t, rfl, h⟩ := h
  by_cases hfirst : s.all isCaseIgnorable = true ∧ meetsCased t = false
  · exact ⟨['\u0391'], by decide, [], by decide, '\u03C3', by decide, '\u03C2', by decide,
      lowerBetween_behind_alpha hfirst.1 hfirst.2⟩
  · obtain ⟨hs, ht⟩ := h fun hs => by simpa [hs] using hfirst
    exact ⟨[], by decide, ['\u0391'], by decide, '\u03C2', by decide, '\u03C3', by decide,
      lowerBetween_before_alpha hs ht⟩

/-- A text with an unsettled sigma is part of one in whose lowercase some form of the sigma is less often
than in its own. -/
theorem exists_count_lt {v : List Char} (h : ¬SettledSigmas v) :
    ∃ x y f, '\x00' ∉ x ++ y ∧ f ∉ strays ∧
      (lowerChars (x ++ (v ++ y))).count f < (lowerChars v).count f := by
  obtain ⟨x, hx, y, hy, f, hf, g, hg, l, m, halone, hbetween⟩ := exists_other_form h
  have hsurroundings : ∀ x ∈ [[], ['\u0391']], x.reverse = x ∧ '\x00' ∉ x ∧ capitalSigma ∉ x ∧
      List.Forall (fun f => (x.flatMap lowerChar).count f = 0) ['\u03C2', '\u03C3'] := by
    decide +kernel
  have hforms : ∀ f ∈ ['\u03C2', '\u03C3'], f ∉ strays := List.forall_iff_forall_mem.mp (by decide)
  obtain ⟨hpalindrome, hxnull, hxsigma, hxcount⟩ := hsurroundings x hx
  obtain ⟨-, hynull, hysigma, hycount⟩ := hsurroundings y hy
  rw [List.forall_iff_forall_mem] at hxcount hycount
  refine ⟨x, y, f, ?_, hforms f hf, ?_⟩
  · exact fun h => (List.mem_append.mp h).elim hxnull hynull
  · rw [lowerChars_around, hpalindrome, hbetween, halone, lowerBetween_of_notMem hxsigma,
      lowerBetween_of_notMem hysigma]
    simp only [List.count_append, hxcount f hf, hycount f hf, List.count_cons_of_ne hg,
      List.count_cons_self]
    omega

/-! ## Parts and their lowercases -/

/-- A character that patterns tell apart is as often in texts that are the same to them. -/
theorem count_eq_of_alike {f : Char} (hf : f ∉ strays) {v m : List Char}
    (h : List.Forall₂ Alike v m) : v.count f = m.count f := by
  induction h with
  | nil => rfl
  | @cons a c v m hac _ ih =>
    have hsame : (a == f) = (c == f) := by
      rcases hac with rfl | ⟨ha, hc⟩
      · rfl
      · rw [beq_false_of_ne (ne_of_mem_of_not_mem ha hf), beq_false_of_ne (ne_of_mem_of_not_mem hc hf)]
    rw [List.count_cons, List.count_cons, ih, hsame]

/-- A text has settled sigmas exactly if, wherever a part of a text is the text to a pattern, a part of the
lowercase is its lowercase. -/
theorem settledSigmas_iff {v : List Char} (hv : '\x00' ∉ v) :
    SettledSigmas v ↔
      ∀ s, '\x00' ∉ s → (∃ m, m <:+: s ∧ List.Forall₂ Alike v m) →
        ∃ m, m <:+: lowerChars s ∧ List.Forall₂ Alike (lowerChars v) m := by
  constructor
  · rintro hsettled s - ⟨m, ⟨x, y, rfl⟩, hm⟩
    refine ⟨lowerBetween x.reverse m y, ?_, ?_⟩
    · rw [List.append_assoc x m y, lowerChars_around, ← List.append_assoc]
      exact ⟨_, _, rfl⟩
    · rw [← hsettled.lowerBetween_eq x.reverse y]
      exact respectsCase_alike.lowerBetween hm rfl rfl
  · intro hlower
    by_contra hunsettled
    obtain ⟨x, y, f, hnull, hf, hcount⟩ := exists_count_lt hunsettled
    have hall : '\x00' ∉ x ++ (v ++ y) := by
      simp only [List.mem_append, not_or] at hnull ⊢
      exact ⟨hnull.1, hv, hnull.2⟩
    have hpart : v <:+: x ++ (v ++ y) := ⟨x, y, List.append_assoc _ _ _⟩
    obtain ⟨m, hm, halike⟩ := hlower _ hall
      ⟨v, hpart, List.forall₂_same.mpr fun c _ => .inl rfl⟩
    -- the part would have to have that form as often as the lowercase of the text
    have hle := hm.sublist.count_le f
    rw [← count_eq_of_alike hf halike] at hle
    omega

end Text

end AssetRegister
