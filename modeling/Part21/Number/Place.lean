set_option autoImplicit false

/-!
# Places counted from either end

The places of a row count from zero, and negative numbers count from its end,
where the last place is -1.  As a cut between two places a number may lie beyond
either end, and stands for that end then.  As the place of an element it may not,
nor may it be beyond a word of 64 bits.

Elements are taken so of a `ParamList`, and a text is cut so by `line_and_column`.
-/

namespace Part21

/-- Why a row has no element of a number. -/
inductive PlaceFault where
  | outOfRange
  /-- the number does not fit into a word -/
  | outOfWord
  deriving DecidableEq

namespace PlaceFault

/-- The text of the fault for a row of the given name. -/
def message (row : String) : PlaceFault → String
  | outOfRange => row ++ " index out of range"
  | outOfWord => "cannot fit 'int' into an index-sized integer"

end PlaceFault

namespace Place

/-- How many elements of a row of a given size stand before a cut. -/
def cut (size : Nat) (position : Int) : Nat :=
  if position < 0 then (position + size).toNat else min position.toNat size

/-- The element of a row at a place. -/
def element {α : Type} (row : List α) (place : Int) : Except PlaceFault α :=
  if place < -9223372036854775808 || 9223372036854775807 < place then .error .outOfWord
  else
    let index := if place < 0 then place + row.length else place
    match if index < 0 then none else row[index.toNat]? with
    | some a => .ok a
    | none => .error .outOfRange

theorem cut_ofNat (size n : Nat) : cut size n = min n size := by
  unfold cut
  split <;> omega

example : cut 5 (-2) = 3 := rfl

example : element ['a', 'b'] (-1) = .ok 'b' := rfl

end Place

end Part21
