import Part21.Exchange.Lexeme
import Part21.Text.Position

set_option autoImplicit false

/-!
# Tokens

A token is a lexeme with its place.  A text is cut into tokens from left to
right until its end or until no lexeme can be cut; the tokens before a fault
are kept, since a reader may fail or finish before it gets there.

Section 4.1 of `SPEC_FULL.md`: the tokens of a `StepLexer`, from any place of a text on.
-/

namespace Part21

/-- A lexeme with the offset and the line of its first code point. -/
structure Token where
  lexeme : Lexeme
  offset : Nat
  line : Nat
  deriving DecidableEq

/-- A lexical fault with the offset where it arose. -/
structure LexError where
  fault : LexFault
  offset : Nat
  deriving DecidableEq

/-- The tokens of a text, up to its end or its first lexical fault. -/
structure TokenRun where
  tokens : List Token
  stop : Option LexError

namespace Token

/-- The class of a token. -/
def kind (t : Token) : LexemeKind := t.lexeme.kind

/-- The tokens of `t`, which stands at the given offset and line. -/
def run (t : Text) (offset line : Nat) : TokenRun :=
  match t with
  | [] => ⟨[], none⟩
  | c :: rest =>
    match Cut.first c rest with
    | .error fault => ⟨[], some ⟨fault, offset⟩⟩
    | .ok cut =>
      let more :=
        run (rest.drop (cut.length - 1)) (offset + cut.length)
          (line + Text.lineFeeds ((c :: rest).take cut.length))
      match cut.lexeme with
      | none => more
      | some lexeme => { more with tokens := ⟨lexeme, offset, line⟩ :: more.tokens }
termination_by t.length
decreasing_by simp only [List.length_drop, List.length_cons]; omega

/-- The tokens of a text from an offset on. -/
def runFrom (t : Text) (start : Nat) : TokenRun := run (t.drop start) start (t.lineAt start)

/-- The tokens of a text. -/
def ofText (t : Text) : TokenRun := run t 0 1

end Token

end Part21
