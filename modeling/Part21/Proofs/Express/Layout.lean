import Part21.Express.Token
import Part21.Proofs.Exchange.Layout

set_option autoImplicit false

/-!
# Layouts of schema texts

A schema text is a row of lexemes, each in one of its spellings, with blanks, line ends and comments
between them or nothing at all.  `Lexeme.Written` gives the spellings of a lexeme, `Separates` what
may stand between two of them, and `Laid` puts the two together.

Letter case does not matter in reserved words, so a row of lexemes holds them in capitals.  Two words
without anything between them would be read as one; `Lexeme.Ends` excludes such neighbours.
-/

namespace Part21

namespace Express

/-- A letter, and then letters, digits and low lines. -/
inductive IsIdentifier : Text → Prop
  | mk {c : CodePoint} {rest : Text} (hc : c.isLetter = true)
      (hrest : ∀ d ∈ rest, CodePoint.continuesName d = true) : IsIdentifier (c :: rest)

theorem Word.mem_all (w : Word) : w ∈ Word.all := by cases w <;> decide

namespace Lexeme

/-- A reserved word in capitals. -/
def reserved (w : Word) : Lexeme := .word w w.name

/-- The lexeme, in capitals if it is a reserved word. -/
def inCapitals : Lexeme → Lexeme
  | .word w _ => reserved w
  | l => l

/-- The spellings of a lexeme.  Numbers have at most `limit` digits. -/
inductive Written (limit : Nat) : Lexeme → Text → Prop
  | reserved {w : Word} {spelling : Text} (hspelling : IsIdentifier spelling)
      (hword : spelling.upper = w.name) : Written limit (.reserved w) spelling
  | identifier {name : Text} (hname : IsIdentifier name) (hplain : ∀ w : Word, name.upper ≠ w.name) :
      Written limit (.identifier name) name
  | number {digits : Text} (hdigits : digits.IsNumeral) (hlimit : digits.length ≤ limit) :
      Written limit (.number digits.digitsValue) digits
  | expression {body : Text} (hbody : CodePoint.ofChar ';' ∉ body) :
      Written limit (.expression (Text.trim CodePoint.isBlank body)) (":=" ++ (body ++ ";"))
  | sign {s : Sign} : Written limit (.sign s) [s.spelling]

/-- The code point right behind the lexeme would belong to it or change what it is. -/
def goesOn : Lexeme → CodePoint → Bool
  | .word _ _, c => c.continuesName
  | .identifier _, c => c.continuesName
  | .number _, c => c.isDigit
  | .sign .leftParen, c => decide (c = '*')
  | .sign .colon, c => decide (c = '=')
  | _, _ => false

/-- The lexeme ends in front of the text. -/
def Ends (l : Lexeme) (behind : Text) : Prop := ∀ c ∈ behind.head?, l.goesOn c = false

theorem Ends.cons {l : Lexeme} {c : CodePoint} {rest : Text} (h : l.goesOn c = false) :
    l.Ends (c :: rest) := fun _ hd => Option.some.inj hd ▸ h

theorem written_identifier {limit : Nat} {name : Text} (hname : IsIdentifier name)
    (hplain : ∀ w ∈ Word.all, name.upper ≠ w.name) : Written limit (.identifier name) name :=
  .identifier hname fun w => hplain w w.mem_all

/-- A reserved word may be written in capitals. -/
theorem written_word {limit : Nat} (w : Word) : Written limit (.reserved w) w.name := by
  cases w <;> exact .reserved (.mk (by decide) (by decide)) (by decide)

end Lexeme

/-- Blanks, line ends and comments, in any number and order.  A comment in parentheses ends at the
first mark that closes one. -/
inductive Separates : Text → Prop
  | nil : Separates []
  | blank {c : CodePoint} {t : Text} (hc : Cut.isSeparator c = true) (ht : Separates t) :
      Separates (c :: t)
  | comment {body t : Text} (hbody : ¬ Text.ofString "*)" <:+: body) (ht : Separates t) :
      Separates ("(*" ++ (body ++ ("*)" ++ t)))
  | lineComment {body t : Text} (hbody : Text.lineFeed ∉ body) (ht : Separates t) :
      Separates ("--" ++ (body ++ (Text.lineFeed :: t)))

/-- A text that holds lexemes one after another, each in one of its spellings and with separators
behind it.  A last comment may end with the text. -/
inductive Laid (limit : Nat) : List Lexeme → Text → Prop
  | nil : Laid limit [] []
  | lineComment {body : Text} (hbody : Text.lineFeed ∉ body) : Laid limit [] ("--" ++ body)
  | cons {l : Lexeme} {rest : List Lexeme} {word gap t : Text} (hword : l.Written limit word)
      (hgap : Separates gap) (hends : l.Ends (gap ++ t)) (hrest : Laid limit rest t) :
      Laid limit (l :: rest) (word ++ (gap ++ t))

/-- Nothing need stand behind a lexeme. -/
theorem Laid.next {limit : Nat} {l : Lexeme} {rest : List Lexeme} {word t : Text}
    (hword : l.Written limit word) (hends : l.Ends t) (hrest : Laid limit rest t) :
    Laid limit (l :: rest) (word ++ t) := .cons hword .nil hends hrest

end Express

end Part21
