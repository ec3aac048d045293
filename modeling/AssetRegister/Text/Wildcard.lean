import AssetRegister.Text.CodePoint

/-!
# Wildcard patterns

In a pattern `%` stands for any run of code points, `_` for one and every other code point for
itself. `accepts` decides a match by filling, from the end of the pattern to its start, one flag for
each suffix of the text.
-/

namespace AssetRegister.Wildcard

/-- The sign that stands for any run of code points, `%`. -/
def anyRun : Nat := 0x25

/-- The sign that stands for any one code point, `_`. -/
def anyOne : Nat := 0x5F

/-- Each suffix of the text replaced by whether some later-or-equal flag is set. -/
def anySuffix : List Bool → List Bool
  | [] => []
  | b :: flags =>
    let rest := anySuffix flags
    (b || rest.headD false) :: rest

/-- The flags of a pattern that starts with one code point: a suffix matches if its first code point
passes and the suffix after it matches the rest of the pattern. -/
def stepFlags (pass : Nat → Bool) : List Nat → List Bool → List Bool
  | n :: s, flags => (pass n && flags.tail.headD false) :: stepFlags pass s flags.tail
  | [], _ => [false]

/-- For each suffix of `s`, longest first, whether it matches the pattern. -/
def suffixFlags (s : List Nat) : List Nat → List Bool
  -- the empty pattern matches no suffix but the empty one
  | [] => s.map (fun _ => false) ++ [true]
  | p :: pattern =>
    let flags := suffixFlags s pattern
    if p = anyRun then anySuffix flags
    else if p = anyOne then stepFlags (fun _ => true) s flags
    else stepFlags (· == p) s flags

/-- Whether all of `s` matches the pattern. -/
def accepts (pattern s : List Nat) : Bool :=
  (suffixFlags s pattern).headD false

/-- The part that patterns see: all before the first null. -/
def visible (s : List Nat) : List Nat :=
  s.takeWhile (· != 0)

/-- Whether code points match a pattern, both read up to their first null. -/
def isLike (pattern : String) (s : List Nat) : Bool :=
  accepts (visible (CodePoint.ofText pattern)) (visible s)

end AssetRegister.Wildcard
