import AssetRegister.Text.Utf8
import Mathlib.Data.List.TakeWhile

/-!
# Bytes are a text's, or garbled

Reading bytes as UTF-8 finds no fault exactly if they are the bytes of a text. So what is stored as text is
the one or the other: `Garbled.exists_iff`.
-/

namespace AssetRegister

namespace Utf8

theorem isContinuation_iff {b : UInt8} :
    CodePoint.isContinuation b = true ↔ 0x80 ≤ b.toNat ∧ b.toNat < 0xC0 := by
  have := b.toNat_lt
  simp only [CodePoint.isContinuation, beq_iff_eq]
  omega

/-! ## One character -/

/-- The ranges of lead bytes. -/
theorem following?_eq_some {lead n : Nat} :
    following? lead = some n ↔
      lead < 0x80 ∧ n = 0 ∨ 0xC2 ≤ lead ∧ lead < 0xE0 ∧ n = 1 ∨
        0xE0 ≤ lead ∧ lead < 0xF0 ∧ n = 2 ∨ 0xF0 ≤ lead ∧ lead < 0xF5 ∧ n = 3 := by
  unfold following?
  split_ifs <;> simp <;> omega

/-- A lead byte carries what is left of it without the mark that says how many bytes follow. -/
theorem leadValue_add {lead n : Nat} (h : following? lead = some (n + 1)) :
    n = 0 ∧ CodePoint.leadValue lead + 0xC0 = lead ∨ n = 1 ∧ CodePoint.leadValue lead + 0xE0 = lead ∨
      n = 2 ∧ CodePoint.leadValue lead + 0xF0 = lead := by
  have hlead := following?_eq_some.mp h
  unfold CodePoint.leadValue
  split_ifs <;> omega

/-- The bytes that can come next are continuation bytes, and fewer of them after four lead bytes. -/
theorem comesNext_iff {lead : Nat} {b : UInt8} :
    comesNext lead b = true ↔ 0x80 ≤ b.toNat ∧ b.toNat < 0xC0 ∧
      (lead = 0xE0 → 0xA0 ≤ b.toNat) ∧ (lead = 0xED → b.toNat < 0xA0) ∧
      (lead = 0xF0 → 0x90 ≤ b.toNat) ∧ (lead = 0xF4 → b.toNat < 0x90) := by
  unfold comesNext
  rw [Bool.and_eq_true, isContinuation_iff]
  split_ifs <;> simp <;> omega

/-- A lead byte is continued by the bytes that have to follow it, if these can. -/
theorem continued_append {lead : Nat} {b : UInt8} {more : List UInt8}
    (hlead : following? lead = some (more.length + 1)) (hb : comesNext lead b = true)
    (hmore : ∀ x ∈ more, CodePoint.isContinuation x = true) (rest : List UInt8) :
    continued lead (b :: (more ++ rest)) = b :: more := by
  unfold continued
  rw [hlead]
  dsimp only
  rw [if_pos hb, List.take_left, List.takeWhile_eq_self_iff.mpr hmore]

/-- What continues a lead byte are the first of the bytes behind it. -/
theorem continued_isPrefix (lead : Nat) (s : List UInt8) : continued lead s <+: s := by
  cases s with
  | nil => exact List.prefix_refl _
  | cons b s =>
    rw [continued]
    split
    · exact List.nil_prefix
    · exact List.nil_prefix
    · split
      · exact (List.prefix_cons_inj b).mpr
          ((List.takeWhile_prefix _).trans (List.take_prefix _ s))
      · exact List.nil_prefix

/-- What continues a lead byte begins with a byte that can come next. -/
theorem continued_eq_cons {lead : Nat} {s : List UInt8} {b : UInt8} {more : List UInt8}
    (h : continued lead s = b :: more) :
    comesNext lead b = true ∧ ∀ x ∈ more, CodePoint.isContinuation x = true := by
  cases s with
  | nil => cases h
  | cons a s =>
    rw [continued] at h
    split at h
    · cases h
    · cases h
    · split at h
      · next hnext =>
        cases h
        exact ⟨hnext, fun x hx => List.mem_takeWhile_imp hx⟩
      · cases h

/-- A lead byte makes a character if all that has to follow it does. -/
theorem char?_eq_some {lead : Nat} {s : List UInt8} {c : Char} :
    char? lead s = some c ↔ following? lead = some (continued lead s).length ∧
      c = Char.ofNat (if lead < 0x80 then lead
        else (continued lead s).foldl CodePoint.extend (CodePoint.leadValue lead)) := by
  unfold char?
  split <;> simp_all [eq_comm]

/-! ## The bytes of a character -/

/-- A lead byte that nothing has to follow. -/
theorem char?_single {n : Nat} (h : n < 0x80) (s : List UInt8) :
    continued n s = [] ∧ char? n s = some (Char.ofNat n) := by
  have hnone : following? n = some 0 := following?_eq_some.mpr (.inl ⟨h, rfl⟩)
  have hcontinued : continued n s = [] := by
    cases s with
    | nil => rfl
    | cons b s =>
      rw [continued, hnone]
  refine ⟨hcontinued, char?_eq_some.mpr ⟨by rw [hcontinued, hnone]; rfl, ?_⟩⟩
  rw [if_pos h]

/-- A lead byte that others follow. -/
theorem char?_several (lead : Nat) (b : UInt8) (more : List UInt8)
    (hlead : following? lead = some (more.length + 1)) (hb : comesNext lead b = true)
    (hmore : ∀ x ∈ more, CodePoint.isContinuation x = true) (rest : List UInt8) :
    continued lead (b :: (more ++ rest)) = b :: more ∧
      char? lead (b :: (more ++ rest)) =
        some (Char.ofNat (more.foldl CodePoint.extend (CodePoint.extend (CodePoint.leadValue lead) b))) := by
  have hcontinued := continued_append hlead hb hmore rest
  have hnot : ¬lead < 0x80 := by
    rcases following?_eq_some.mp hlead with h | h | h | h <;> omega
  refine ⟨hcontinued, char?_eq_some.mpr ⟨by rw [hcontinued, hlead]; rfl, ?_⟩⟩
  rw [if_neg hnot, hcontinued, List.foldl_cons]

theorem toNat_ofNat_of_lt {n : Nat} (h : n < 256) : (UInt8.ofNat n).toNat = n := by
  rw [UInt8.toNat_ofNat']
  omega

theorem toNat_continuation (n : Nat) : (UInt8.ofNat (n % 64 + 128)).toNat = n % 64 + 128 :=
  toNat_ofNat_of_lt (by omega)

theorem isContinuation_continuation (n : Nat) :
    CodePoint.isContinuation (UInt8.ofNat (n % 64 + 128)) = true := by
  rw [isContinuation_iff, toNat_continuation]
  omega

/-- A continuation byte adds the six bits that it was made of. -/
theorem extend_continuation {m : Nat} (h : m < 0x8000) (n : Nat) :
    CodePoint.extend m (UInt8.ofNat (n % 64 + 128)) = m * 64 + n % 64 := by
  unfold CodePoint.extend CodePoint.wordBound
  rw [toNat_continuation]
  omega

/-- The bytes of a character are a lead byte and what continues it. -/
theorem char?_encoded (c : Char) : ∃ b more, String.utf8EncodeChar c = b :: more ∧
    ∀ rest, continued b.toNat (more ++ rest) = more ∧ char? b.toNat (more ++ rest) = some c := by
  have hc : Char.ofNat c.val.toNat = c := Char.ofNat_toNat c
  have hvalid : c.val.toNat < 0xD800 ∨ 0xDFFF < c.val.toNat ∧ c.val.toNat < 0x110000 := c.valid
  rw [String.utf8EncodeChar]
  generalize c.val.toNat = n at hc hvalid
  -- one case for each number of bytes
  split_ifs with hone htwo hthree
  · refine ⟨_, [], rfl, fun rest => ?_⟩
    rw [toNat_ofNat_of_lt (by omega), ← hc]
    exact char?_single (by omega) rest
  · refine ⟨_, [_], rfl, fun rest => ?_⟩
    rw [toNat_ofNat_of_lt (by omega)]
    have hlead : following? (n / 64 % 32 + 192) = some 1 := following?_eq_some.mpr (by omega)
    have hnext : comesNext (n / 64 % 32 + 192) (UInt8.ofNat (n % 64 + 128)) = true :=
      comesNext_iff.mpr (by rw [toNat_continuation]; omega)
    have hvalue : CodePoint.leadValue (n / 64 % 32 + 192) = n / 64 := by
      have := leadValue_add hlead
      omega
    have hn : n / 64 * 64 + n % 64 = n := by omega
    have hchar := char?_several _ _ [] hlead hnext (List.forall_mem_nil _) rest
    simp (disch := omega) only [List.foldl_nil, hvalue, extend_continuation, hn, hc] at hchar
    exact hchar
  · refine ⟨_, [_, _], rfl, fun rest => ?_⟩
    rw [toNat_ofNat_of_lt (by omega)]
    have hlead : following? (n / 4096 % 16 + 224) = some 2 := following?_eq_some.mpr (by omega)
    have hnext : comesNext (n / 4096 % 16 + 224) (UInt8.ofNat (n / 64 % 64 + 128)) = true :=
      comesNext_iff.mpr (by rw [toNat_continuation]; omega)
    have hvalue : CodePoint.leadValue (n / 4096 % 16 + 224) = n / 4096 := by
      have := leadValue_add hlead
      omega
    have hn : (n / 4096 * 64 + n / 64 % 64) * 64 + n % 64 = n := by omega
    have hchar := char?_several _ _ [UInt8.ofNat (n % 64 + 128)] hlead hnext
      (List.forall_mem_singleton.mpr (isContinuation_continuation n)) rest
    simp (disch := omega) only [List.foldl_cons, List.foldl_nil, hvalue, extend_continuation, hn,
      hc] at hchar
    exact hchar
  · refine ⟨_, [_, _, _], rfl, fun rest => ?_⟩
    rw [toNat_ofNat_of_lt (by omega)]
    have hlead : following? (n / 262144 % 8 + 240) = some 3 := following?_eq_some.mpr (by omega)
    have hnext : comesNext (n / 262144 % 8 + 240) (UInt8.ofNat (n / 4096 % 64 + 128)) = true :=
      comesNext_iff.mpr (by rw [toNat_continuation]; omega)
    have hvalue : CodePoint.leadValue (n / 262144 % 8 + 240) = n / 262144 := by
      have := leadValue_add hlead
      omega
    have hn : ((n / 262144 * 64 + n / 4096 % 64) * 64 + n / 64 % 64) * 64 + n % 64 = n := by omega
    have hchar := char?_several _ _ [UInt8.ofNat (n / 64 % 64 + 128), UInt8.ofNat (n % 64 + 128)] hlead
      hnext (List.forall_mem_cons.mpr ⟨isContinuation_continuation _,
        List.forall_mem_singleton.mpr (isContinuation_continuation n)⟩) rest
    simp (disch := omega) only [List.foldl_cons, List.foldl_nil, hvalue, extend_continuation, hn,
      hc] at hchar
    exact hchar

/-- The bytes of a character by its number. -/
theorem encoded_ofNat {n : Nat} (h : n.isValidChar) : String.utf8EncodeChar (Char.ofNat n) =
    if n ≤ 0x7F then [UInt8.ofNat n]
    else if n ≤ 0x7FF then [UInt8.ofNat (n / 64 % 32 + 192), UInt8.ofNat (n % 64 + 128)]
    else if n ≤ 0xFFFF then
      [UInt8.ofNat (n / 4096 % 16 + 224), UInt8.ofNat (n / 64 % 64 + 128), UInt8.ofNat (n % 64 + 128)]
    else
      [UInt8.ofNat (n / 262144 % 8 + 240), UInt8.ofNat (n / 4096 % 64 + 128),
        UInt8.ofNat (n / 64 % 64 + 128), UInt8.ofNat (n % 64 + 128)] := by
  have hn : (Char.ofNat n).val.toNat = n := by
    unfold Char.ofNat
    rw [dif_pos h]
    rfl
  rw [String.utf8EncodeChar, hn]

theorem ofNat_eq {n : Nat} {b : UInt8} (h : n = b.toNat) : UInt8.ofNat n = b := by
  rw [h, UInt8.ofNat_toNat]

/-- The other way round, a continuation byte adds its last six bits. -/
theorem extend_of_isContinuation {m : Nat} {b : UInt8} (hm : m < 0x8000)
    (hb : CodePoint.isContinuation b = true) : CodePoint.extend m b = m * 64 + (b.toNat - 128) := by
  have hbound := isContinuation_iff.mp hb
  unfold CodePoint.extend CodePoint.wordBound
  omega

/-- The other way round, what makes a character are its bytes. -/
theorem encoded_of_char? {b : UInt8} {s : List UInt8} {c : Char} (h : char? b.toNat s = some c) :
    String.utf8EncodeChar c = b :: continued b.toNat s := by
  obtain ⟨hfollowing, rfl⟩ := char?_eq_some.mp h
  have hlead := following?_eq_some.mp hfollowing
  cases hcontinued : continued b.toNat s with
  | nil =>
    rw [hcontinued, List.length_nil] at hlead
    rw [if_pos (by omega), encoded_ofNat (.inl (by omega)), if_pos (by omega), UInt8.ofNat_toNat]
  | cons x more =>
    rw [hcontinued, List.length_cons] at hfollowing hlead
    obtain ⟨hnext, hmore⟩ := continued_eq_cons hcontinued
    have hadd := leadValue_add hfollowing
    have hx := comesNext_iff.mp hnext
    have hx' : CodePoint.isContinuation x = true := isContinuation_iff.mpr ⟨hx.1, hx.2.1⟩
    rw [if_neg (by omega), List.foldl_cons]
    -- one case for each number of bytes
    match more with
    | [] =>
      rw [List.length_nil] at hlead
      have hvalue : CodePoint.leadValue b.toNat = b.toNat - 192 := by
        rw [List.length_nil] at hadd
        omega
      rw [List.foldl_nil, hvalue, extend_of_isContinuation (by omega) hx']
      rw [encoded_ofNat (.inl (by omega)), if_neg (by omega), if_pos (by omega)]
      rw [ofNat_eq (b := b) (by omega), ofNat_eq (b := x) (by omega)]
    | [y] =>
      simp only [List.length_cons, List.length_nil] at hlead
      have hy := hmore y (by simp)
      have hy' := isContinuation_iff.mp hy
      have hvalue : CodePoint.leadValue b.toNat = b.toNat - 224 := by
        rw [List.length_singleton] at hadd
        omega
      rw [List.foldl_cons, List.foldl_nil, hvalue, extend_of_isContinuation (by omega) hx',
        extend_of_isContinuation (by omega) hy]
      rw [encoded_ofNat (by unfold Nat.isValidChar; omega), if_neg (by omega), if_neg (by omega),
        if_pos (by omega)]
      rw [ofNat_eq (b := b) (by omega), ofNat_eq (b := x) (by omega), ofNat_eq (b := y) (by omega)]
    | [y, z] =>
      simp only [List.length_cons, List.length_nil] at hlead
      have hy := hmore y (by simp)
      have hz := hmore z (by simp)
      have hy' := isContinuation_iff.mp hy
      have hz' := isContinuation_iff.mp hz
      have hvalue : CodePoint.leadValue b.toNat = b.toNat - 240 := by
        rw [List.length_cons, List.length_singleton] at hadd
        omega
      rw [List.foldl_cons, List.foldl_cons, List.foldl_nil, hvalue,
        extend_of_isContinuation (by omega) hx', extend_of_isContinuation (by omega) hy,
        extend_of_isContinuation (by omega) hz]
      rw [encoded_ofNat (by unfold Nat.isValidChar; omega), if_neg (by omega), if_neg (by omega),
        if_neg (by omega)]
      rw [ofNat_eq (b := b) (by omega), ofNat_eq (b := x) (by omega), ofNat_eq (b := y) (by omega),
        ofNat_eq (b := z) (by omega)]
    | y :: z :: w :: more => simp only [List.length_cons] at hlead; omega

/-! ## Texts -/

/-- A byte at the start of characters begins the first of them, and those of the others come behind it. -/
theorem char?_of_cons_eq {b : UInt8} {s : List UInt8} {cs : List Char}
    (h : b :: s = cs.flatMap String.utf8EncodeChar) :
    ∃ (c : Char) (cs' : List Char), char? b.toNat s = some c ∧
      s.drop (continued b.toNat s).length = cs'.flatMap String.utf8EncodeChar := by
  cases cs with
  | nil => cases h
  | cons c cs =>
    obtain ⟨b', more, hc, hmore⟩ := char?_encoded c
    rw [List.flatMap_cons, hc, List.cons_append] at h
    obtain ⟨rfl, rfl⟩ := List.cons.inj h
    obtain ⟨hcontinued, hchar⟩ := hmore (cs.flatMap String.utf8EncodeChar)
    refine ⟨c, cs, hchar, ?_⟩
    rw [hcontinued, List.drop_left]

/-- Bytes have no fault exactly if they are those of characters. Induction along the reading: it goes on
behind each character. -/
theorem fault?_eq_none {index : Nat} {s : List UInt8} :
    fault? index s = none ↔ ∃ cs : List Char, s = cs.flatMap String.utf8EncodeChar := by
  induction index, s using fault?.induct with
  | case1 index =>
    rw [fault?]
    exact iff_of_true rfl ⟨[], rfl⟩
  | case2 index b s run c hc ih =>
    -- the reading goes on behind the character
    have hrest : s = continued b.toNat s ++ s.drop (continued b.toNat s).length :=
      (List.prefix_iff_eq_append.mp (continued_isPrefix b.toNat s)).symm
    rw [fault?, hc]
    dsimp only
    rw [ih]
    constructor
    · rintro ⟨cs, hcs⟩
      refine ⟨c :: cs, ?_⟩
      rw [List.flatMap_cons, ← hcs, encoded_of_char? hc, List.cons_append, ← hrest]
    · rintro ⟨cs, hcs⟩
      obtain ⟨-, cs', -, hbehind⟩ := char?_of_cons_eq hcs
      exact ⟨cs', hbehind⟩
  -- a fault is reported, and no text has one there
  | case3 index b s hc =>
    rw [fault?, hc]
    refine iff_of_false nofun ?_
    rintro ⟨cs, hcs⟩
    obtain ⟨c, -, hchar, -⟩ := char?_of_cons_eq hcs
    cases hc.symm.trans hchar

/-- Characters come back from their bytes. -/
theorem lossy_encoded (cs : List Char) : lossy (cs.flatMap String.utf8EncodeChar) = cs := by
  induction cs with
  | nil => rw [List.flatMap_nil, lossy]
  | cons c cs ih =>
    obtain ⟨b, more, hc, hmore⟩ := char?_encoded c
    obtain ⟨hcontinued, hchar⟩ := hmore (cs.flatMap String.utf8EncodeChar)
    rw [List.flatMap_cons, hc, List.cons_append, lossy, hcontinued, hchar, List.drop_left, ih]
    rfl

end Utf8

namespace Garbled

/-- Garbled bytes are those of no text. -/
theorem bytes_ne (g : Garbled) (s : String) : g.bytes ≠ Utf8.bytes s := by
  intro h
  have hnone : Utf8.fault? 0 g.bytes = none := Utf8.fault?_eq_none.mpr ⟨s.toList, h⟩
  have hgarbled := g.isGarbled
  rw [hnone] at hgarbled
  cases hgarbled

/-- **All bytes are either those of a text or garbled.** -/
theorem exists_iff (bytes : List UInt8) :
    (∃ g : Garbled, g.bytes = bytes) ↔ ¬∃ s, Utf8.bytes s = bytes := by
  constructor
  · rintro ⟨g, rfl⟩ ⟨s, hs⟩
    exact g.bytes_ne s hs.symm
  · intro h
    cases hfault : Utf8.fault? 0 bytes with
    | some fault => exact ⟨⟨bytes, by rw [hfault]; rfl⟩, rfl⟩
    | none =>
      obtain ⟨cs, hcs⟩ := Utf8.fault?_eq_none.mp hfault
      refine absurd ⟨String.ofList cs, ?_⟩ h
      rw [Utf8.bytes, String.toList_ofList, hcs]

end Garbled

end AssetRegister
