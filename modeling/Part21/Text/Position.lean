import Part21.Number.Place
import Part21.Text.CodePoint

set_option autoImplicit false

/-!
# Lines, columns and locations

An offset counts code points from the start of a text.  Lines end at line
feeds, and lines and columns count from one.  An offset beyond the end of the
text is a column of the last line.  A negative offset finds its line from the end
of the text; its column still counts from the start of that line to the offset,
and so is not positive.

A location is what is known of the place of a fault: offset, line and column, each
if known.  A message names those that are known, from the line to the offset.

Offsets, lines and columns are in section B.4 of `SPEC_FULL.md`; `Text.lineAndColumn` is
`line_and_column`.
-/

namespace Part21

namespace Text

/-- The line feed, which ends a line. -/
def lineFeed : CodePoint := '\n'

/-- How many lines end within the text. -/
def lineFeeds (t : Text) : Nat := t.count lineFeed

/-- How many code points stand behind the last line feed. -/
def lastLineLength (t : Text) : Nat := (t.reverse.takeWhile (· ≠ lineFeed)).length

/-- The line that holds an offset. -/
def lineAt (t : Text) (offset : Nat) : Nat := lineFeeds (t.take offset) + 1

/-- The column of an offset in its line. -/
def columnAt (t : Text) (offset : Nat) : Nat :=
  lastLineLength (t.take offset) + (offset - t.length) + 1

/-- Line and column of an offset of either sign. -/
def lineAndColumn (t : Text) (offset : Int) : Nat × Int :=
  let before := t.take (Place.cut t.length offset)
  (lineFeeds before + 1, lastLineLength before + (offset - before.length) + 1)

theorem take_cut_ofNat (t : Text) (offset : Nat) :
    t.take (Place.cut t.length offset) = t.take offset := by
  rw [Place.cut_ofNat]
  rcases Nat.le_total offset t.length with h | h
  · rw [Nat.min_eq_left h]
  · rw [Nat.min_eq_right h, List.take_length, List.take_of_length_le h]

/-- An offset that is not negative has the line and the column that errors name. -/
theorem lineAndColumn_ofNat (t : Text) (offset : Nat) :
    t.lineAndColumn offset = (t.lineAt offset, (t.columnAt offset : Int)) := by
  simp only [lineAndColumn, take_cut_ofNat, lineAt, columnAt, List.length_take]
  rw [Prod.mk.injEq]
  exact ⟨rfl, by omega⟩

end Text

/-! ## Locations -/

/-- The place of a fault as far as it is known. -/
structure Location where
  offset : Option Nat
  line : Option Nat
  column : Option Nat
  deriving DecidableEq

namespace Location

/-- Nothing is known. -/
def unknown : Location := ⟨none, none, none⟩

/-- The place of an offset in a text. -/
def ofOffset (t : Text) (offset : Nat) : Location :=
  ⟨some offset, some (t.lineAt offset), some (t.columnAt offset)⟩

/-- The known parts of a location in words. -/
def parts (l : Location) : List Text :=
  let part (word : Text) (value : Option Nat) : List Text :=
    match value with
    | some n => [word ++ Text.ofNat n]
    | none => []
  part "line " l.line ++ part "column " l.column ++ part "offset " l.offset

/-- A message with the location behind it, if any of it is known. -/
def annotate (l : Location) (message : Text) : Text :=
  match l.parts with
  | [] => message
  | parts => message ++ " (" ++ Text.join ", " parts ++ ")"

end Location

end Part21
