import Part21.Exchange.Reading

set_option autoImplicit false

/-!
# Spellings

Every parameter, record, section and exchange structure is spelled by one row of lexemes.  What
the row does not tell is left out of account by `unplaced`: where in a text a record stands.  And
some values are spelled by no row: names of instances are not negative, for example.  `IsSpellable`
says which values are.

A row of tokens spells a record if its lexemes do and the record has the place of the first of
them (`Record.SpelledBy`).
-/

namespace Part21

/-! ## Parameters -/

namespace Parameter

mutual

/-- The lexemes of a parameter. -/
def lexemes : Parameter → List Lexeme
  | integer value => [.integer value]
  | real value => [.real value]
  | string value => [.string value]
  | enumeration item => [.enumeration item]
  | binary unusedBits digits => [.binary unusedBits.toNat digits]
  | reference id => [.entityName id.toNat]
  | unset => [.dollar]
  | inapplicable => [.star]
  | list items => .leftParen :: rowLexemes items ++ [.rightParen]
  | typed keyword value => .keyword keyword :: .leftParen :: lexemes value ++ [.rightParen]

/-- The lexemes of a row of parameters, with commas between them. -/
def rowLexemes : List Parameter → List Lexeme
  | [] => []
  | first :: rest => lexemes first ++ restLexemes rest

/-- The lexemes of the parameters behind another one, each behind a comma. -/
def restLexemes : List Parameter → List Lexeme
  | [] => []
  | next :: rest => .comma :: lexemes next ++ restLexemes rest

end

mutual

/-- Lexemes spell the parameter: no number in it is negative that has no sign. -/
def IsSpellable : Parameter → Prop
  | binary unusedBits _ => 0 ≤ unusedBits
  | reference id => 0 ≤ id
  | list items => AllSpellable items
  | typed _ value => IsSpellable value
  | _ => True

/-- Lexemes spell all parameters of a row. -/
def AllSpellable : List Parameter → Prop
  | [] => True
  | item :: rest => IsSpellable item ∧ AllSpellable rest

end

theorem allSpellable_iff {items : List Parameter} :
    AllSpellable items ↔ ∀ item ∈ items, item.IsSpellable := by
  induction items with
  | nil => simp [AllSpellable]
  | cons item rest ih => simp [AllSpellable, ih]

theorem restLexemes_eq_cons {items : List Parameter} (h : items ≠ []) :
    restLexemes items = .comma :: rowLexemes items := by
  cases items with
  | nil => exact absurd rfl h
  | cons next rest => rw [restLexemes, rowLexemes, List.cons_append]

/-- A row that ends with a parameter: each of the others comes with a comma behind it. -/
theorem rowLexemes_concat (items : List Parameter) (last : Parameter) :
    rowLexemes (items ++ [last]) =
      (items.flatMap fun item => item.lexemes ++ [.comma]) ++ last.lexemes := by
  induction items with
  | nil => simp [rowLexemes, restLexemes]
  | cons item rest ih =>
    rw [List.cons_append, rowLexemes, restLexemes_eq_cons (by simp), ih]
    simp

end Parameter

/-! ## Records -/

namespace Group

/-- The lexemes of a group. -/
def lexemes (g : Group) : List Lexeme :=
  .keyword g.keyword :: .leftParen :: Parameter.rowLexemes g.parameters ++ [.rightParen]

/-- Lexemes spell the parameters of the group. -/
def IsSpellable (g : Group) : Prop := Parameter.AllSpellable g.parameters

end Group

namespace Body

/-- The lexemes of what a record holds. -/
def lexemes : Body → List Lexeme
  | simple group => group.lexemes
  | complex first others _ =>
    .leftParen :: (first :: others).flatMap Group.lexemes ++ [.rightParen]

/-- Lexemes spell the groups, and there are no parameters beside the parts. -/
def IsSpellable : Body → Prop
  | simple group => group.IsSpellable
  | complex first others loose => (∀ part ∈ first :: others, part.IsSpellable) ∧ loose = []

end Body

namespace Record

/-- The lexemes of the name of a record, if it has one. -/
def nameLexemes : Option Int → List Lexeme
  | some id => [.entityName id.toNat, .equals]
  | none => []

/-- The lexemes of a record. -/
def lexemes (r : Record) : List Lexeme :=
  nameLexemes r.id ++ r.body.lexemes ++ [.semicolon]

/-- Lexemes spell the record, which has a name or is simple. -/
structure IsSpellable (r : Record) : Prop where
  name : ∀ id ∈ r.id, 0 ≤ id
  body : r.body.IsSpellable
  named : r.body.isComplex = true → r.id.isSome = true

/-- The record, wherever it stands. -/
def unplaced (r : Record) : Record := { r with offset := none, line := none }

/-- Tokens spell a record, which stands at the place of the first one. -/
structure SpelledBy (r : Record) (ts : List Token) : Prop where
  spellable : r.IsSpellable
  lexemes : ts.map Token.lexeme = r.lexemes
  placed : ∀ first ∈ ts.head?, r.offset = some first.offset ∧ r.line = some first.line

/-- Tokens spell records one after another. -/
inductive SpelledInTurn : List Record → List Token → Prop
  | nil : SpelledInTurn [] []
  | cons {r : Record} {rest : List Record} {ts more : List Token} (hr : r.SpelledBy ts)
      (hrest : SpelledInTurn rest more) : SpelledInTurn (r :: rest) (ts ++ more)

end Record

/-! ## Sections and exchange structures -/

namespace DataSection

/-- The lexemes of the parameters of a section, if it has some. -/
def parameterLexemes : List Parameter → List Lexeme
  | [] => []
  | first :: rest => .leftParen :: Parameter.rowLexemes (first :: rest) ++ [.rightParen]

/-- The lexemes of a data section. -/
def lexemes (s : DataSection) : List Lexeme :=
  .data :: parameterLexemes s.parameters ++ .semicolon :: s.records.flatMap Record.lexemes ++
    [.endSection, .semicolon]

/-- Lexemes spell the parameters and the records, all of which have names. -/
structure IsSpellable (s : DataSection) : Prop where
  parameters : Parameter.AllSpellable s.parameters
  records : ∀ r ∈ s.records, r.IsSpellable
  named : ∀ r ∈ s.records, r.id.isSome = true

end DataSection

namespace Header

/-- The lexemes of a header. -/
def lexemes (h : Header) : List Lexeme :=
  .header :: .semicolon :: h.records.flatMap Record.lexemes ++ [.endSection, .semicolon]

/-- Lexemes spell the records, none of which has a name. -/
structure IsSpellable (h : Header) : Prop where
  records : ∀ r ∈ h.records, r.IsSpellable
  unnamed : ∀ r ∈ h.records, r.id = none

/-- The header, wherever its records stand. -/
def unplaced (h : Header) : Header := ⟨h.records.map Record.unplaced⟩

end Header

namespace DataSection

/-- The section, wherever its records and those of its header stand. -/
def unplaced (s : DataSection) : DataSection :=
  ⟨s.records.map Record.unplaced, s.parameters, s.header.unplaced⟩

end DataSection

namespace ExchangeFile

/-- The lexemes of an exchange structure. -/
def lexemes (f : ExchangeFile) : List Lexeme :=
  .opening :: .semicolon :: f.header.lexemes ++ f.sections.flatMap DataSection.lexemes ++
    [.closing, .semicolon]

/-- Lexemes spell the header and the sections, which all stand under that header. -/
structure IsSpellable (f : ExchangeFile) : Prop where
  header : f.header.IsSpellable
  sections : ∀ s ∈ f.sections, s.IsSpellable
  shared : ∀ s ∈ f.sections, s.header.unplaced = f.header.unplaced

/-- The exchange structure, wherever its records stand. -/
def unplaced (f : ExchangeFile) : ExchangeFile :=
  ⟨f.header.unplaced, f.sections.map DataSection.unplaced⟩

end ExchangeFile

end Part21
