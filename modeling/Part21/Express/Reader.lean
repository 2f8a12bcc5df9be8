import Part21.Express.Token
import Part21.Schema.TypeDef

set_option autoImplicit false

/-!
# Reading the declarations of a schema

Readers take a row of tokens, use up its start and return what it declares with
the rest.  A reader that cannot go on returns the tokens from the offending one
on.

Widths of strings, binaries and reals, modifiers of elements and constraints on
subtypes are read and forgotten: they do not change how instances are built.
Expressions are forgotten too, so a derived attribute leaves a trace only if it
redeclares the attribute of a supertype.

The part of the language that is read is that of section B.6 of `SPEC_FULL.md`: the
productions of `ExpressParser`.
-/

namespace Part21

namespace Express

/-- What a reader answers: a value with the rest of the tokens, or the tokens
from the offending one on. -/
abbrev Answer (α : Type) : Type := Except (List Token) (α × List Token)

namespace Reader

/-- The rest behind a sign. -/
def sign (s : Sign) : List Token → Except (List Token) (List Token)
  | [] => .error []
  | t :: rest => if t.lexeme = .sign s then .ok rest else .error (t :: rest)

/-- The token is a reserved word. -/
def isWord (w : Word) (t : Token) : Bool :=
  match t.lexeme with
  | .word v _ => decide (v = w)
  | _ => false

/-- The rest behind a reserved word. -/
def word (w : Word) : List Token → Except (List Token) (List Token)
  | [] => .error []
  | t :: rest => if isWord w t then .ok rest else .error (t :: rest)

/-- The rest behind a reserved word if it comes next, or everything. -/
def skipWord (w : Word) : List Token → List Token
  | [] => []
  | t :: rest => if isWord w t then rest else t :: rest

/-- An identifier. -/
def identifier : List Token → Answer Text
  | [] => .error []
  | t :: rest =>
    match t.lexeme with
    | .identifier name => .ok (name, rest)
    | _ => .error (t :: rest)

/-- A number. -/
def number : List Token → Answer Nat
  | [] => .error []
  | t :: rest =>
    match t.lexeme with
    | .number value => .ok (value, rest)
    | _ => .error (t :: rest)

/-- An expression. -/
def expression : List Token → Except (List Token) (List Token)
  | [] => .error []
  | t :: rest =>
    match t.lexeme with
    | .expression _ => .ok rest
    | _ => .error (t :: rest)

/-- Identifiers with commas between them. -/
def identifiers : List Token → Answer (List Text)
  | [] => .error []
  | t :: rest =>
    match t.lexeme with
    | .identifier name =>
      match rest with
      | ⟨.sign .comma, _, _⟩ :: more =>
        match identifiers more with
        | .error stop => .error stop
        | .ok (names, behind) => .ok (name :: names, behind)
      | _ => .ok ([name], rest)
    | _ => .error (t :: rest)

/-- Identifiers with commas between them, in parentheses. -/
def identifierList (ts : List Token) : Answer (List Text) :=
  match sign .leftParen ts with
  | .error stop => .error stop
  | .ok inside =>
    match identifiers inside with
    | .error stop => .error stop
    | .ok (names, behind) =>
      match sign .rightParen behind with
      | .error stop => .error stop
      | .ok rest => .ok (names, rest)

/-! ## Types -/

/-- A width in parentheses if one comes next; `fixable` says that the word for a
fixed width may follow it. -/
def width (fixable : Bool) (ts : List Token) : Except (List Token) (List Token) :=
  match ts with
  | ⟨.sign .leftParen, _, _⟩ :: inside =>
    match number inside with
    | .error stop => .error stop
    | .ok (_, behind) =>
      match sign .rightParen behind with
      | .error stop => .error stop
      | .ok rest => .ok (if fixable then skipWord .fixedWord rest else rest)
  | _ => .ok ts

/-- The bounds of an aggregate if they come next; without bounds it may be empty
and as large as it likes. -/
def bounds (ts : List Token) : Answer (Int × Option Int) :=
  match ts with
  | ⟨.sign .leftBracket, _, _⟩ :: inside =>
    match number inside with
    | .error stop => .error stop
    | .ok (lower, behind) =>
      match sign .colon behind with
      | .error stop => .error stop
      | .ok greatest =>
        match greatest with
        | ⟨.sign .question, _, _⟩ :: closing =>
          match sign .rightBracket closing with
          | .error stop => .error stop
          | .ok rest => .ok ((lower, none), rest)
        | _ =>
          match number greatest with
          | .error stop => .error stop
          | .ok (upper, closing) =>
            match sign .rightBracket closing with
            | .error stop => .error stop
            | .ok rest => .ok ((lower, some (upper : Int)), rest)
  | _ => .ok ((0, none), ts)

/-- The kind of aggregate that a reserved word names. -/
def aggregateKind? : Word → Option AggregateKind
  | .listWord => some .list
  | .setWord => some .set
  | .bagWord => some .bag
  | .arrayWord => some .array
  | _ => none

/-- The simple type that a reserved word names, and whether a width may follow
and be fixed. -/
def simpleType? : Word → Option (SimpleType × Option Bool)
  | .integerWord => some (.integer, none)
  | .realWord => some (.real, some false)
  | .numberWord => some (.number, none)
  | .stringWord => some (.string, some true)
  | .booleanWord => some (.boolean, none)
  | .logicalWord => some (.logical, none)
  | .binaryWord => some (.binary, some true)
  | _ => none

/-- What stands before the element type of an aggregate of some kind. -/
def aggregateHead (ts : List Token) : Answer (Int × Option Int) :=
  match bounds ts with
  | .error stop => .error stop
  | .ok (limits, behind) =>
    match word .ofWord behind with
    | .error stop => .error stop
    | .ok rest => .ok (limits, skipWord .uniqueWord (skipWord .optionalWord rest))

/-- A simple type, a name or an aggregate.  `enclosing` are the aggregates around
it, the innermost first; at most as many as `fuel` are opened. -/
def baseTypeIn (fuel : Nat) (enclosing : List (AggregateKind × Int × Option Int))
    (ts : List Token) : Answer TypeDef :=
  let close (t : TypeDef) : TypeDef :=
    enclosing.foldl (fun inner a => .unnamedAggregate inner a.1 a.2.1 a.2.2) t
  match fuel, ts with
  | _, [] => .error []
  | 0, _ => .error ts
  | fuel + 1, t :: rest =>
    match t.lexeme with
    | .identifier name => .ok (close (.ref name), rest)
    | .word w _ =>
      match aggregateKind? w, simpleType? w with
      | some kind, _ =>
        match aggregateHead rest with
        | .error stop => .error stop
        | .ok ((lower, upper), inside) =>
          baseTypeIn fuel ((kind, lower, upper) :: enclosing) inside
      | none, some (type, some fixable) =>
        match width fixable rest with
        | .error stop => .error stop
        | .ok behind => .ok (close (.simple type), behind)
      | none, some (type, none) => .ok (close (.simple type), rest)
      | none, none => .error (t :: rest)
    | _ => .error (t :: rest)

/-- A simple type, a name or an aggregate. -/
def baseType (ts : List Token) : Answer TypeDef := baseTypeIn (ts.length + 1) [] ts

/-- The type that a declaration gives a name. -/
def declaredType (name : Text) (ts : List Token) : Answer TypeDef :=
  match ts with
  | ⟨.word .enumerationWord _, _, _⟩ :: rest =>
    match word .ofWord rest with
    | .error stop => .error stop
    | .ok list =>
      match identifierList list with
      | .error stop => .error stop
      | .ok (items, behind) => .ok (.enumeration name items, behind)
  | ⟨.word .selectWord _, _, _⟩ :: rest =>
    match identifierList rest with
    | .error stop => .error stop
    | .ok (options, behind) => .ok (.select name options, behind)
  | _ =>
    match baseType ts with
    | .error stop => .error stop
    | .ok (underlying, behind) => .ok (.defined name underlying, behind)

/-- The declaration of a type, behind the word that opens it. -/
def typeDeclaration (ts : List Token) : Answer TypeDef :=
  match identifier ts with
  | .error stop => .error stop
  | .ok (name, behind) =>
    match sign .equals behind with
    | .error stop => .error stop
    | .ok body =>
      match declaredType name body with
      | .error stop => .error stop
      | .ok (declared, closing) =>
        match sign .semicolon closing with
        | .error stop => .error stop
        | .ok ending =>
          match word .endTypeWord ending with
          | .error stop => .error stop
          | .ok semicolon =>
            match sign .semicolon semicolon with
            | .error stop => .error stop
            | .ok rest => .ok (declared, rest)

/-! ## Supertypes and subtypes -/

/-- What is open inside a constraint on subtypes. -/
inductive Bracket where
  | group
  | oneOf
  deriving DecidableEq

/-- How far a constraint has come. -/
inductive Phase where
  /-- a term has to follow -/
  | term
  /-- the list of a choice has to follow -/
  | choice
  /-- a term was read -/
  | behindTerm

/-- A constraint on subtypes up to the parenthesis that closes it.  `brackets`
are what is open inside, the innermost first. -/
def constraint (brackets : List Bracket) (phase : Phase) :
    List Token → Except (List Token) (List Token)
  | [] => .error []
  | t :: rest =>
    match phase, t.lexeme with
    | .term, .identifier _ => constraint brackets .behindTerm rest
    | .term, .word .oneOfWord _ => constraint brackets .choice rest
    | .term, .sign .leftParen => constraint (.group :: brackets) .term rest
    | .choice, .sign .leftParen => constraint (.oneOf :: brackets) .term rest
    | .behindTerm, .word .andWord _ => constraint brackets .term rest
    | .behindTerm, .word .andOrWord _ => constraint brackets .term rest
    | .behindTerm, .sign .comma =>
      match brackets with
      | .oneOf :: _ => constraint brackets .term rest
      | _ => .error (t :: rest)
    | .behindTerm, .sign .rightParen =>
      match brackets with
      | [] => .ok rest
      | _ :: outer => constraint outer .behindTerm rest
    | _, _ => .error (t :: rest)

/-- A constraint in parentheses. -/
def subtypes (ts : List Token) : Except (List Token) (List Token) :=
  match sign .leftParen ts with
  | .error stop => .error stop
  | .ok inside => constraint [] .term inside

/-- Whether an entity type is abstract, with the constraint on its subtypes. -/
def supertypeClause (ts : List Token) : Answer Bool :=
  match ts with
  | ⟨.word .abstractWord _, _, _⟩ :: ⟨.word .supertypeWord _, _, _⟩ :: ⟨.word .ofWord _, _, _⟩ ::
      rest =>
    match subtypes rest with
    | .error stop => .error stop
    | .ok behind => .ok (true, behind)
  | ⟨.word .abstractWord _, _, _⟩ :: ⟨.word .supertypeWord _, _, _⟩ :: rest => .ok (true, rest)
  | ⟨.word .abstractWord _, _, _⟩ :: rest => .ok (true, rest)
  | ⟨.word .supertypeWord _, _, _⟩ :: rest =>
    match word .ofWord rest with
    | .error stop => .error stop
    | .ok list =>
      match subtypes list with
      | .error stop => .error stop
      | .ok behind => .ok (false, behind)
  | _ => .ok (false, ts)

/-- The supertypes of an entity type. -/
def subtypeClause (ts : List Token) : Answer (List Text) :=
  match ts with
  | ⟨.word .subtypeWord _, _, _⟩ :: rest =>
    match word .ofWord rest with
    | .error stop => .error stop
    | .ok list => identifierList list
  | _ => .ok ([], ts)

/-! ## Attributes -/

/-- The attributes that one declaration lists, all of one type. -/
def attributeGroup (ts : List Token) : Answer (List Attribute) :=
  match identifiers ts with
  | .error stop => .error stop
  | .ok (names, behind) =>
    match sign .colon behind with
    | .error stop => .error stop
    | .ok body =>
      let optional : Bool :=
        match body with
        | t :: _ => isWord .optionalWord t
        | [] => false
      match baseType (skipWord .optionalWord body) with
      | .error stop => .error stop
      | .ok (type, closing) =>
        match sign .semicolon closing with
        | .error stop => .error stop
        | .ok rest => .ok (names.map fun name => ⟨name, type, optional, false⟩, rest)

/-- Attributes up to a token that starts none; at most as many groups as `fuel`
are read. -/
def attributes (fuel : Nat) (before : List Attribute) (ts : List Token) :
    Answer (List Attribute) :=
  match fuel, ts with
  | fuel + 1, ⟨.identifier _, _, _⟩ :: _ =>
    match attributeGroup ts with
    | .error stop => .error stop
    | .ok (group, rest) => attributes fuel (before ++ group) rest
  | _, _ => .ok (before, ts)

/-- A derived attribute, behind its name: a type and an expression. -/
def derivation (ts : List Token) : Except (List Token) (List Token) :=
  match sign .colon ts with
  | .error stop => .error stop
  | .ok body =>
    match baseType body with
    | .error stop => .error stop
    | .ok (_, behind) => expression behind

/-- A derived attribute; if it redeclares one of a supertype, the names of both. -/
def derivedItem (ts : List Token) : Answer (Option (Text × Text)) :=
  match ts with
  | ⟨.word .selfWord _, _, _⟩ :: rest =>
    match sign .backslash rest with
    | .error stop => .error stop
    | .ok owned =>
      match identifier owned with
      | .error stop => .error stop
      | .ok (owner, behind) =>
        match sign .dot behind with
        | .error stop => .error stop
        | .ok named =>
          match identifier named with
          | .error stop => .error stop
          | .ok (name, body) =>
            match derivation body with
            | .error stop => .error stop
            | .ok more => .ok (some (owner, name), more)
  | _ =>
    match identifier ts with
    | .error stop => .error stop
    | .ok (_, body) =>
      match derivation body with
      | .error stop => .error stop
      | .ok more => .ok (none, more)

/-- Derived attributes up to the word that closes the entity type; at least one,
and at most as many as `fuel`. -/
def derivedItems (fuel : Nat) (before : List (Text × Text)) (ts : List Token) :
    Answer (List (Text × Text)) :=
  match fuel with
  | 0 => .error ts
  | fuel + 1 =>
    match derivedItem ts with
    | .error stop => .error stop
    | .ok (item, rest) =>
      match rest with
      | ⟨.word .endEntityWord _, _, _⟩ :: _ => .ok (before ++ item.toList, rest)
      | _ => derivedItems fuel (before ++ item.toList) rest

/-- The redeclarations of an entity type. -/
def deriveClause (ts : List Token) : Answer (List (Text × Text)) :=
  match ts with
  | ⟨.word .deriveWord _, _, _⟩ :: rest => derivedItems (rest.length + 1) [] rest
  | _ => .ok ([], ts)

/-- The declaration of an entity type, behind the word that opens it. -/
def entityDeclaration (ts : List Token) : Answer EntityType :=
  match identifier ts with
  | .error stop => .error stop
  | .ok (name, behind) =>
    match supertypeClause behind with
    | .error stop => .error stop
    | .ok (isAbstract, subtype) =>
      match subtypeClause subtype with
      | .error stop => .error stop
      | .ok (supertypes, semicolon) =>
        match sign .semicolon semicolon with
        | .error stop => .error stop
        | .ok body =>
          match attributes body.length [] body with
          | .error stop => .error stop
          | .ok (declared, derive) =>
            match deriveClause derive with
            | .error stop => .error stop
            | .ok (overrides, ending) =>
              match word .endEntityWord ending with
              | .error stop => .error stop
              | .ok closing =>
                match sign .semicolon closing with
                | .error stop => .error stop
                | .ok rest => .ok (⟨name, declared, supertypes, isAbstract, overrides⟩, rest)

/-! ## Schemas -/

/-- Declarations up to the word that closes the schema; at most as many as
`fuel`. -/
def declarations (fuel : Nat) (before : List TypeDef) (ts : List Token) :
    Answer (List TypeDef) :=
  match fuel, ts with
  | fuel + 1, ⟨.word .typeWord _, _, _⟩ :: rest =>
    match typeDeclaration rest with
    | .error stop => .error stop
    | .ok (declared, more) => declarations fuel (before ++ [declared]) more
  | fuel + 1, ⟨.word .entityWord _, _, _⟩ :: rest =>
    match entityDeclaration rest with
    | .error stop => .error stop
    | .ok (declared, more) => declarations fuel (before ++ [.entity declared]) more
  | _, _ =>
    match word .endSchemaWord ts with
    | .error stop => .error stop
    | .ok rest => .ok (before, rest)

/-- The name of a schema and its declarations. -/
def schema (ts : List Token) : Answer (Text × List TypeDef) :=
  match word .schemaWord ts with
  | .error stop => .error stop
  | .ok named =>
    match identifier named with
    | .error stop => .error stop
    | .ok (name, semicolon) =>
      match sign .semicolon semicolon with
      | .error stop => .error stop
      | .ok body =>
        match declarations body.length [] body with
        | .error stop => .error stop
        | .ok (declared, closing) =>
          match sign .semicolon closing with
          | .error stop => .error stop
          | .ok rest => .ok ((name, declared), rest)

end Reader

end Express

end Part21
