import AssetRegister.Filter.Operator
import AssetRegister.Text.Blank

/-!
# Clauses of a filter text

A filter text is a sequence of clauses separated by the lowercase word `and` with white space on
both sides. The separator is looked for before anything else, quotes included, and each one takes
all the white space around its word. A clause's comparison is the leftmost place where a field, an
operator and a value stand one after another; the text before and after it is ignored.
-/

namespace AssetRegister.Filter

open Text (isSpace)

/-- The characters of a field: ASCII letters, ASCII digits and the underscore. -/
def isWord (c : Char) : Bool := c.isAlphanum || c == '_'

/-! ## Separators -/

def afterWord? : List Char → List Char → Option (List Char)
  | [], s => some s
  | w :: ws, c :: s => if w = c then afterWord? ws s else none
  | _ :: _, [] => none

/-- What follows the white space at the start of `s`, which there has to be. -/
def afterSpace? (s : List Char) : Option (List Char) :=
  match s with
  | c :: rest => if isSpace c then some (rest.dropWhile isSpace) else none
  | [] => none

def afterSeparator? (s : List Char) : Option (List Char) :=
  (afterSpace? s).bind fun s => (afterWord? ['a', 'n', 'd'] s).bind afterSpace?

theorem length_dropWhile_le (p : Char → Bool) (s : List Char) :
    (s.dropWhile p).length ≤ s.length :=
  (List.dropWhile_sublist p).length_le

theorem length_of_afterSpace? {s r : List Char} (h : afterSpace? s = some r) :
    r.length < s.length := by
  match s with
  | [] => simp [afterSpace?] at h
  | c :: rest =>
    simp only [afterSpace?] at h
    split at h
    · cases h
      have := length_dropWhile_le isSpace rest
      simp only [List.length_cons]
      omega
    · cases h

theorem length_of_afterWord? {w s r : List Char} (h : afterWord? w s = some r) :
    r.length ≤ s.length := by
  induction w generalizing s with
  | nil => simp only [afterWord?, Option.some.injEq] at h; exact Nat.le_of_eq (by rw [h])
  | cons a w ih =>
    match s with
    | [] => simp [afterWord?] at h
    | c :: s =>
      simp only [afterWord?] at h
      split at h
      · have := ih h; simp only [List.length_cons]; omega
      · cases h

theorem length_of_afterSeparator? {s r : List Char} (h : afterSeparator? s = some r) :
    r.length < s.length := by
  simp only [afterSeparator?, Option.bind_eq_some_iff] at h
  obtain ⟨t, ht, u, hu, hr⟩ := h
  have h1 := length_of_afterSpace? ht
  have h2 := length_of_afterWord? hu
  have h3 := length_of_afterSpace? hr
  omega

/-- The text up to the first separator, and what follows that separator if there is one. -/
def firstClause : List Char → List Char × Option (List Char)
  | [] => ([], none)
  | c :: s =>
    match afterSeparator? (c :: s) with
    | some rest => ([], some rest)
    | none =>
      let (clause, rest) := firstClause s
      (c :: clause, rest)

theorem length_of_firstClause {s r : List Char} (h : (firstClause s).2 = some r) :
    r.length < s.length := by
  induction s with
  | nil => simp [firstClause] at h
  | cons c s ih =>
    simp only [firstClause] at h
    split at h
    · next rest hs => cases h; exact length_of_afterSeparator? hs
    · have := ih h; simp only [List.length_cons]; omega

/-- The clauses of a filter text, in order. There is always at least one. -/
def clauses (s : List Char) : List (List Char) :=
  match h : firstClause s with
  | (clause, none) => [clause]
  | (clause, some rest) =>
    have : rest.length < s.length := length_of_firstClause (by rw [h])
    clause :: clauses rest
termination_by s.length

/-! ## The comparison in a clause -/

/-- The operators in the order in which they are tried: a longer symbol before its own start. -/
def operatorOrder : List Operator :=
  [.comparison .ge, .comparison .le, .comparison .ne, .comparison .eq, .comparison .gt,
    .comparison .lt, .ilike, .like]

def operatorAt? (s : List Char) : Option (Operator × List Char) :=
  operatorOrder.findSome? fun op => (afterWord? op.symbol.toList s).map (op, ·)

/-- The text from a quote to the next one, both included. -/
def quotedAt? : List Char → Option (List Char)
  | '\x27' :: s =>
    if s.contains '\x27' then some ('\x27' :: (s.takeWhile (· != '\x27') ++ ['\x27'])) else none
  | _ => none

/-- The literal at the start of `s`: a quoted text, or else all up to the next white space. -/
def literalAt? (s : List Char) : Option (List Char) :=
  match quotedAt? s with
  | some q => some q
  | none =>
    -- a quote that is not closed is a character like any other
    let bare := s.takeWhile (!isSpace ·)
    if bare.isEmpty then none else some bare

/-- A field, an operator and a literal as they stand in a clause. -/
structure Written where
  field : List Char
  operator : Operator
  literal : List Char
  deriving DecidableEq, Repr

def comparisonAt? (s : List Char) : Option Written :=
  let field := s.takeWhile isWord
  if field.isEmpty then none
  else
    (afterSpace? (s.dropWhile isWord)).bind fun s =>
      (operatorAt? s).bind fun (op, s) =>
        (afterSpace? s).bind fun s =>
          (literalAt? s).map fun literal => ⟨field, op, literal⟩

/-- The leftmost comparison in a clause. -/
def comparison? : List Char → Option Written
  | [] => none
  | c :: s =>
    match comparisonAt? (c :: s) with
    | some w => some w
    | none => comparison? s

/-! ## The value of a literal -/

def withoutLeadingPercent : List Char → List Char
  | '%' :: s => s
  | s => s

def withoutTrailingPercent (s : List Char) : List Char :=
  (withoutLeadingPercent s.reverse).reverse

/-- The value a literal stands for: one percent sign is dropped at either end, then all quotes. -/
def literalValue (s : List Char) : List Char :=
  (withoutTrailingPercent (withoutLeadingPercent s)).filter (· != '\x27')

end AssetRegister.Filter
