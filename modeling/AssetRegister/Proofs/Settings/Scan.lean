import AssetRegister.Proofs.Text.Longest
import AssetRegister.Settings.Scan

/-!
# What a scan reads of a written text

A scan reads a part from the front of a text and leaves the rest. The lemmas here go through a scan from
left to right: what was written for a part is read as the part, whatever stands behind it. Where a scan
goes on as long as it can, the rest must not go on with the part. What holds of all that a scan can give is
said by `Yields`, whatever the text is.
-/

namespace AssetRegister.Scan

variable {α β : Type} {s rest : List Char} {p : Char → Bool}

/-! ## One scan after another, or instead of another -/

/-- A scan after one that gives something goes on with the rest. -/
theorem bind_of_some {m : Scan α} {f : α → Scan β} {a : α} (h : m s = some (a, rest)) :
    (m >>= f) s = f a rest := by
  show (m s).bind _ = f a rest
  rw [h]
  rfl

theorem bind_of_none {m : Scan α} {f : α → Scan β} (h : m s = none) : (m >>= f) s = none := by
  show (m s).bind _ = none
  rw [h]
  rfl

theorem orElse_of_some {m other : Scan α} {r : α × List Char} (h : m s = some r) :
    (m <|> other) s = some r := by
  show (m s <|> other s) = some r
  rw [h]
  rfl

/-- An alternative starts where the scan before it did. -/
theorem orElse_of_none {m other : Scan α} (h : m s = none) : (m <|> other) s = other s := by
  show (m s <|> other s) = other s
  rw [h]
  rfl

theorem optional_of_some {m : Scan α} {a : α} (h : m s = some (a, rest)) :
    optional m s = some (some a, rest) :=
  orElse_of_some (bind_of_some h)

theorem optional_of_none {m : Scan α} (h : m s = none) : optional m s = some (none, s) :=
  orElse_of_none (bind_of_none h)

/-! ## Characters

What a text starts with is said of its head, if it has one. -/

/-- What is asked of a text's head, if it has one, is asked of its first character. -/
theorem head?_cons {P : Char → Prop} {d : Char} (h : P d) : ∀ c ∈ (d :: s).head?, P c := by
  intro c hc
  cases hc
  exact h

theorem one_of_pos {c : Char} (h : p c = true) : one p (c :: s) = some (c, s) := if_pos h

theorem one_of_neg (h : ∀ c ∈ s.head?, p c = false) : one p s = none := by
  cases s with
  | nil => rfl
  | cons c s =>
    have hc : ¬p c = true := by simp [h c rfl]
    exact if_neg hc

/-- Characters are read where they are written. -/
theorem exactly_append (ws : List Char) : exactly ws (ws ++ s) = some ((), s) := by
  induction ws with
  | nil => rfl
  | cons w ws ih =>
    have hw : one (· == w) (w :: (ws ++ s)) = some (w, ws ++ s) := one_of_pos (beq_self_eq_true w)
    rw [List.cons_append, exactly, bind_of_some hw, ih]

/-- Characters are not read if the first one differs. -/
theorem exactly_of_ne {w : Char} {ws : List Char} (h : ∀ c ∈ s.head?, c ≠ w) :
    exactly (w :: ws) s = none :=
  bind_of_none (one_of_neg fun c hc => beq_false_of_ne (h c hc))

/-- A run of characters is read up to where the rest goes on with others. -/
theorem takeWhile_append {cs : List Char} (hcs : ∀ c ∈ cs, p c = true)
    (hrest : ∀ c ∈ rest.head?, p c = false) : takeWhile p (cs ++ rest) = some (cs, rest) := by
  unfold takeWhile
  rw [Text.takeWhile_append hcs hrest, Text.dropWhile_append hcs hrest]

theorem takeSome_append {cs : List Char} (hne : cs ≠ []) (hcs : ∀ c ∈ cs, p c = true)
    (hrest : ∀ c ∈ rest.head?, p c = false) : takeSome p (cs ++ rest) = some (cs, rest) := by
  obtain ⟨c, cs, rfl⟩ := List.exists_cons_of_ne_nil hne
  obtain ⟨hc, hcs⟩ := List.forall_mem_cons.mp hcs
  rw [List.cons_append, takeSome, bind_of_some (one_of_pos hc), bind_of_some (takeWhile_append hcs hrest)]
  rfl

theorem count_append {cs : List Char} (hcs : ∀ c ∈ cs, p c = true) :
    count p cs.length (cs ++ s) = some (cs, s) := by
  induction cs with
  | nil => rfl
  | cons c cs ih =>
    obtain ⟨hc, hcs⟩ := List.forall_mem_cons.mp hcs
    rw [List.cons_append, List.length_cons, count, bind_of_some (one_of_pos hc), bind_of_some (ih hcs)]
    rfl

/-! ## Repetition -/

/-- A text has at least as many characters as it has parts, if no part is empty. -/
theorem length_le_length_flatMap {text : α → List Char} {as : List α}
    (h : ∀ a ∈ as, text a ≠ []) : as.length ≤ (as.flatMap text).length := by
  induction as with
  | nil => exact Nat.le_refl _
  | cons a as ih =>
    obtain ⟨ha, has⟩ := List.forall_mem_cons.mp h
    have hpos := List.length_pos_iff.mpr ha
    have hle := ih has
    rw [List.flatMap_cons, List.length_append, List.length_cons]
    omega

/-- Things that were written one after another are read in their order, up to a rest at which none
begins. `Follows` says what may stand behind a thing, such as the next one. -/
theorem many_flatMap (Follows : List Char → Prop) {m : Scan α} {text : α → List Char} {as : List α}
    (hread : ∀ a ∈ as, ∀ s, Follows s → m (text a ++ s) = some (a, s))
    (hfollows : ∀ a ∈ as, ∀ s, Follows (text a ++ s)) (hne : ∀ a ∈ as, text a ≠ [])
    (hrest : Follows rest) (hend : m rest = none) :
    many m (as.flatMap text ++ rest) = some (as, rest) := by
  -- each thing takes a character at least
  have hfuel : as.length ≤ (as.flatMap text ++ rest).length := by
    have hle := length_le_length_flatMap hne
    rw [List.length_append]
    omega
  unfold many
  generalize (as.flatMap text ++ rest).length = fuel at hfuel
  congr 1
  induction as generalizing fuel with
  | nil => cases fuel <;> simp [manyUpTo, hend]
  | cons a as ih =>
    obtain ⟨fuel, rfl⟩ := Nat.exists_eq_add_one_of_ne_zero
      (Nat.ne_of_gt (Nat.lt_of_lt_of_le (Nat.succ_pos as.length) hfuel))
    obtain ⟨hreadA, hread⟩ := List.forall_mem_cons.mp hread
    obtain ⟨-, hfollowsAll⟩ := List.forall_mem_cons.mp hfollows
    -- behind the first thing stands the next one, or the rest
    have hnext : Follows (as.flatMap text ++ rest) := by
      cases as with
      | nil => exact hrest
      | cons b as =>
        rw [List.flatMap_cons, List.append_assoc]
        exact hfollowsAll b List.mem_cons_self _
    have hlast := ih hread hfollowsAll (List.forall_mem_cons.mp hne).2 fuel
      (Nat.le_of_succ_le_succ hfuel)
    rw [List.flatMap_cons, List.append_assoc, manyUpTo, hreadA _ hnext]
    simp only [hlast]

/-- Things with separators between them: the first one, and then each one after its separator. -/
theorem separated_of_some {separator : Scan Unit} {m : Scan α} {a : α} {as : List α}
    {between : List Char} (hfirst : m s = some (a, between))
    (hmore : many (do separator; m) between = some (as, rest)) :
    separated separator m s = some (a :: as, rest) := by
  refine orElse_of_some ?_
  rw [separatedSome, bind_of_some hfirst, bind_of_some hmore]
  rfl

theorem separated_of_none {separator : Scan Unit} {m : Scan α} (h : m s = none) :
    separated separator m s = some ([], s) :=
  orElse_of_none (bind_of_none h)

theorem whole?_of_some {m : Scan α} {a : α} (h : m s = some (a, [])) : whole? m s = some a := by
  unfold whole?
  rw [h]

/-! ## What a scan gives, whatever it reads -/

/-- Whatever a scan gives satisfies `P`. -/
def Yields (m : Scan α) (P : α → Prop) : Prop := ∀ s a rest, m s = some (a, rest) → P a

variable {P : α → Prop} {Q : β → Prop} {m : Scan α}

theorem Yields.any : Yields m fun _ => True := fun _ _ _ _ => trivial

theorem Yields.pure {a : α} (h : P a) : Yields (Pure.pure a) P := by
  rintro s b rest ⟨⟩
  exact h

theorem Yields.failure : Yields (Alternative.failure : Scan α) P := nofun

/-- A scan gives what it should if it does so after whatever the scan before it gives. -/
theorem Yields.bind {f : α → Scan β} (hm : Yields m P) (hf : ∀ a, P a → Yields (f a) Q) :
    Yields (m >>= f) Q := by
  intro s b rest h
  obtain ⟨⟨a, between⟩, ha, hb⟩ := Option.bind_eq_some_iff.mp h
  exact hf a (hm s a between ha) between b rest hb

/-- A scan after another one, of which nothing is known. -/
theorem Yields.after {f : α → Scan β} (hf : ∀ a, Yields (f a) Q) : Yields (m >>= f) Q :=
  Yields.any.bind fun a _ => hf a

theorem Yields.orElse {other : Scan α} (hm : Yields m P) (hother : Yields other P) :
    Yields (m <|> other) P := by
  intro s a rest h
  cases hs : m s with
  | some r =>
    rw [orElse_of_some hs] at h
    exact hm s a rest (hs.trans h)
  | none =>
    rw [orElse_of_none hs] at h
    exact hother s a rest h

/-- What holds of each thing holds of all of them, whatever the fuel is. -/
theorem Yields.many (h : Yields m P) : Yields (many m) fun as => ∀ a ∈ as, P a := by
  -- the fuel is the length of the text, so it cannot be left out of the induction
  have hfuel : ∀ fuel s, ∀ a ∈ (manyUpTo m fuel s).1, P a := by
    intro fuel
    induction fuel with
    | zero => exact fun s => List.forall_mem_nil _
    | succ fuel ih =>
      intro s
      rw [manyUpTo]
      split
      · exact List.forall_mem_nil _
      · next a rest ha => exact List.forall_mem_cons.mpr ⟨h s a rest ha, ih rest⟩
  intro s as rest has
  have hlist := hfuel s.length s
  rwa [Option.some.inj has] at hlist

/-- What holds of each thing holds of all things between separators. -/
theorem Yields.separated {separator : Scan Unit} (h : Yields m P) :
    Yields (separated separator m) fun as => ∀ a ∈ as, P a := by
  refine .orElse (h.bind fun a ha => ?_) (.pure (List.forall_mem_nil _))
  exact Yields.bind (Yields.many (.after fun _ => h)) fun as has =>
    .pure (List.forall_mem_cons.mpr ⟨ha, has⟩)

theorem Yields.whole? {a : α} (h : Yields m P) (ha : whole? m s = some a) : P a := by
  unfold Scan.whole? at ha
  split at ha
  · next b hb =>
    cases ha
    exact h s a [] hb
  · cases ha

end AssetRegister.Scan
