import Mathlib.Data.List.TakeWhile

/-!
# The longest start of one kind

White space, digits, a field's characters and a bare literal are all read as far as a text goes on with
them. What was written as one such run is read as that run if the text behind it goes on with something
else, or ends; and behind what is read it does.
-/

namespace AssetRegister.Text

variable {p : Char → Bool} {run rest : List Char}

/-- Nothing is read where nothing of the kind comes first. -/
theorem takeWhile_eq_nil (h : ∀ c ∈ rest.head?, p c = false) : rest.takeWhile p = [] := by
  cases rest with
  | nil => rfl
  | cons c rest => exact List.takeWhile_cons_of_neg (by simp [h c rfl])

theorem dropWhile_eq_self (h : ∀ c ∈ rest.head?, p c = false) : rest.dropWhile p = rest := by
  cases rest with
  | nil => rfl
  | cons c rest => exact List.dropWhile_cons_of_neg (by simp [h c rfl])

/-- A run is the longest one if the rest does not go on with it. -/
theorem takeWhile_append (hrun : ∀ c ∈ run, p c = true) (hrest : ∀ c ∈ rest.head?, p c = false) :
    (run ++ rest).takeWhile p = run := by
  rw [List.takeWhile_append_of_pos hrun, takeWhile_eq_nil hrest, List.append_nil]

theorem dropWhile_append (hrun : ∀ c ∈ run, p c = true) (hrest : ∀ c ∈ rest.head?, p c = false) :
    (run ++ rest).dropWhile p = rest := by
  rw [List.dropWhile_append_of_pos hrun, dropWhile_eq_self hrest]

theorem bne_of_not_mem {c : Char} (h : c ∉ run) : ∀ d ∈ run, (d != c) = true :=
  fun _ hd => bne_iff_ne.mpr (ne_of_mem_of_not_mem hd h)

/-- A text up to the first time that a character comes. -/
theorem takeWhile_bne_append {c : Char} (h : c ∉ run) :
    (run ++ c :: rest).takeWhile (· != c) = run :=
  takeWhile_append (bne_of_not_mem h) fun _ hd => by cases hd; exact bne_self_eq_false c

theorem dropWhile_bne_append {c : Char} (h : c ∉ run) :
    (run ++ c :: rest).dropWhile (· != c) = c :: rest :=
  dropWhile_append (bne_of_not_mem h) fun _ hd => by cases hd; exact bne_self_eq_false c

/-- Behind the longest run a text goes on with something else. -/
theorem head?_dropWhile (p : Char → Bool) (s : List Char) :
    ∀ c ∈ (s.dropWhile p).head?, p c = false := by
  intro c hc
  have hnot := List.head?_dropWhile_not p s
  rw [Option.mem_def.mp hc] at hnot
  exact hnot

end AssetRegister.Text
