import Part21.Text.CodePoint

set_option autoImplicit false

/-!
# Fields

Values under names.  A name keeps the place at which it was first given a value;
a later value takes the place of the earlier one.

The attributes of an `Entity` (`SPEC_FULL.md`, section B.7) are such fields.
-/

namespace Part21

/-- Values under names, in the order in which the names were first assigned. -/
abbrev Fields (α : Type) := List (Text × α)

namespace Fields

variable {α : Type}

/-- Give a name a value. -/
def assign : Fields α → Text → α → Fields α
  | [], name, value => [(name, value)]
  | (other, old) :: rest, name, value =>
    if other = name then (name, value) :: rest else (other, old) :: assign rest name value

/-- The value of a name. -/
def find? (fields : Fields α) (name : Text) : Option α :=
  (List.find? (fun field => field.1 = name) fields).map Prod.snd

/-- Assign all fields of the second row to the first. -/
def merge (fields more : Fields α) : Fields α :=
  more.foldl (fun done field => assign done field.1 field.2) fields

/-- The values without their names. -/
def values (fields : Fields α) : List α := fields.map Prod.snd

theorem find?_assign_self (fields : Fields α) (name : Text) (value : α) :
    (fields.assign name value).find? name = some value := by
  induction fields with
  | nil => simp [assign, find?]
  | cons field rest ih =>
    by_cases h : field.1 = name
    · simp [assign, find?, h]
    · simp only [find?] at ih
      simp [assign, find?, h, ih]

theorem find?_assign_other (fields : Fields α) {name other : Text} (value : α)
    (different : other ≠ name) :
    (fields.assign name value).find? other = fields.find? other := by
  induction fields with
  | nil => simp [assign, find?, Ne.symm different]
  | cons field rest ih =>
    by_cases h : field.1 = name
    · simp [assign, find?, h, Ne.symm different]
    · simp only [find?] at ih
      by_cases same : field.1 = other
      · have apart : ¬ other = name := different
        simp [assign, find?, same, apart]
      · simp [assign, find?, h, same, ih]

end Fields

end Part21
