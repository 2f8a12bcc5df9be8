import Part21.Express.Reader
import Part21.Schema.Validation

set_option autoImplicit false

/-!
# Registries from schema texts

The registry of a schema text holds its declarations in the order of the text,
and it is valid.

This is `SchemaRegistry.from_express` (`SPEC_FULL.md`, section B.6).
-/

namespace Part21

namespace Express

/-- Why there is no registry of a text. -/
inductive Fault where
  | schema (error : SchemaError)
  /-- a number with more digits than are read -/
  | tooManyDigits (count : Nat)
  deriving DecidableEq

/-- The fault of a lexeme in the wrong place. -/
def misplaced (lexeme : Lexeme) : SchemaFault :=
  match lexeme with
  | .word w spelling => if w.isUnsupported then .unsupported spelling else .misplaced spelling
  | other => .misplaced other.toText

/-- A lexical fault of a text at an offset. -/
def lexical (t : Text) (fault : LexFault) (offset : Nat) : Fault :=
  match fault with
  | .illegal c => .schema ⟨.illegalCharacter c, .ofOffset t offset⟩
  | .tooManyDigits count => .tooManyDigits count

/-- The fault of a reader that stopped in front of the given tokens: a lexical
one if the tokens ran out at one. -/
def faultOf (t : Text) (run : TokenRun) (rest : List Token) : Fault :=
  match rest, run.stop with
  | token :: _, _ => .schema ⟨misplaced token.lexeme, .ofOffset t token.offset⟩
  | [], some (fault, offset) => lexical t fault offset
  | [], none =>
    .schema ⟨.endOfText, ⟨none, some (t.lineAt t.length), some (t.columnAt t.length)⟩⟩

/-- The name of the schema that a text holds, and its declarations. -/
def declarations (t : Text) : Except Fault (Text × List TypeDef) :=
  let run := Token.ofText t
  match Reader.schema run.tokens with
  | .error rest => .error (faultOf t run rest)
  | .ok (declared, []) =>
    match run.stop with
    | some (fault, offset) => .error (lexical t fault offset)
    | none => .ok declared
  | .ok (_, token :: rest) => .error (faultOf t run (token :: rest))

end Express

namespace Registry

/-- Register types one after another. -/
def registerAll (r : Registry) : List TypeDef → Except SchemaFault Registry
  | [] => .ok r
  | t :: rest =>
    match r.register t false with
    | .error fault => .error fault
    | .ok more => registerAll more rest

/-- The valid registry of a schema text. -/
def ofExpress (t : Text) : Except Express.Fault Registry :=
  match Express.declarations t with
  | .error fault => .error fault
  | .ok (name, declared) =>
    match (initial name).registerAll declared with
    | .error fault => .error (.schema (.of fault))
    | .ok r =>
      match r.validate with
      | .error fault => .error (.schema (.of fault))
      | .ok () => .ok r

end Registry

end Part21
