/-!
# Settings as a tree

What a settings file or a variable says, before anything is known of the settings there are.
`Setting.merge` puts one layer over another.
-/

namespace AssetRegister

/-- A value that a setting is given. The value of a `real` is not kept, since no setting is one. -/
inductive Setting where
  | flag (b : Bool)
  | integer (n : Int)
  | real
  | text (s : String)
  | list (items : List Setting)
  | table (members : List (String × Setting))
  deriving Repr, Inhabited

def setMember {α : Type} (name : String) (a : α) : List (String × α) → List (String × α)
  | [] => [(name, a)]
  | (n, b) :: members =>
    if n = name then (name, a) :: members else (n, b) :: setMember name a members

namespace Setting

mutual

/-- `new` over `old`: tables are merged member by member, all else is replaced. -/
def merge (old : Setting) : Setting → Setting
  | .table ms =>
    match old with
    | .table olds => .table (mergeMembers olds ms)
    | _ => .table ms
  | new => new

/-- Takes the members of a table in from first to last. -/
def mergeMembers (olds : List (String × Setting)) :
    List (String × Setting) → List (String × Setting)
  | [] => olds
  | (name, new) :: ms =>
    let merged := match olds.lookup name with
      | some old => merge old new
      | none => new
    mergeMembers (setMember name merged olds) ms

end

/-! ## Equality

It is decidable, but cannot be derived for values that hold lists of values.
-/

mutual

/-- Whether two values are the same, the members of tables in the same order. -/
def same : Setting → Setting → Bool
  | .flag b, .flag c => b == c
  | .integer m, .integer n => m == n
  | .real, .real => true
  | .text s, .text t => s == t
  | .list xs, .list ys => sameItems xs ys
  | .table ms, .table ns => sameMembers ms ns
  | _, _ => false

def sameItems : List Setting → List Setting → Bool
  | [], [] => true
  | x :: xs, y :: ys => same x y && sameItems xs ys
  | _, _ => false

def sameMembers : List (String × Setting) → List (String × Setting) → Bool
  | [], [] => true
  | (name, v) :: ms, (name', v') :: ns => name == name' && same v v' && sameMembers ms ns
  | _, _ => false

end

mutual

theorem eq_of_same : ∀ {s t : Setting}, same s t = true → s = t
  | .flag _, t, h | .integer _, t, h | .text _, t, h | .real, t, h => by
    cases t <;> simp_all [same]
  | .list xs, t, h => by
    cases t with
    | list ys => exact congrArg list (eq_of_sameItems h)
    | flag | integer | real | text | table => cases h
  | .table ms, t, h => by
    cases t with
    | table ns => exact congrArg table (eq_of_sameMembers h)
    | flag | integer | real | text | list => cases h

theorem eq_of_sameItems : ∀ {xs ys : List Setting}, sameItems xs ys = true → xs = ys
  | [], [], _ => rfl
  | x :: xs, y :: ys, h => by
    obtain ⟨hhead, htail⟩ := Bool.and_eq_true_iff.mp h
    rw [eq_of_same hhead, eq_of_sameItems htail]

theorem eq_of_sameMembers :
    ∀ {ms ns : List (String × Setting)}, sameMembers ms ns = true → ms = ns
  | [], [], _ => rfl
  | (name, v) :: ms, (name', v') :: ns, h => by
    obtain ⟨hhead, htail⟩ := Bool.and_eq_true_iff.mp h
    obtain ⟨hname, hvalue⟩ := Bool.and_eq_true_iff.mp hhead
    rw [beq_iff_eq.mp hname, eq_of_same hvalue, eq_of_sameMembers htail]

end

mutual

theorem same_self : ∀ s : Setting, same s s = true
  | .flag _ | .integer _ | .text _ | .real => by simp [same]
  | .list xs => sameItems_self xs
  | .table ms => sameMembers_self ms

theorem sameItems_self : ∀ xs : List Setting, sameItems xs xs = true
  | [] => rfl
  | x :: xs => Bool.and_eq_true_iff.mpr ⟨same_self x, sameItems_self xs⟩

theorem sameMembers_self : ∀ ms : List (String × Setting), sameMembers ms ms = true
  | [] => rfl
  | (name, v) :: ms => by simp [sameMembers, same_self v, sameMembers_self ms]

end

instance : DecidableEq Setting := fun s t =>
  decidable_of_iff (same s t = true) ⟨eq_of_same, fun h => h ▸ same_self s⟩

/-! ## Nesting -/

def nested (v : Setting) : List String → Setting
  | [] => v
  | name :: names => .table [(name, nested v names)]

end Setting

end AssetRegister
