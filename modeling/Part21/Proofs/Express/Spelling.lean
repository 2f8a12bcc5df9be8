import Part21.Proofs.Express.Layout
import Part21.Schema.TypeDef

set_option autoImplicit false

/-!
# Schemas as rows of lexemes

What declarations look like in a schema text.  The relations follow the grammar of the language and
say nothing about how it is read: a declaration can be spelled in several ways, because widths,
modifiers of elements, constraints on subtypes and plain derived attributes leave no trace in it,
and because attributes of one type may share a row of names.

`SpellsSchema` is the relation for a whole schema.
-/

namespace Part21

namespace Express

/-- Identifiers with commas between them. -/
def row (names : List Text) : List Lexeme :=
  (names.map Lexeme.identifier).intersperse (.sign .comma)

/-- Lexemes in parentheses. -/
def inParens (ls : List Lexeme) : List Lexeme :=
  .sign .leftParen :: (ls ++ [.sign .rightParen])

/-! ## Types -/

/-- A width of a string, a binary or a real, if any; `fixable` says that it may be fixed. -/
inductive SpellsWidth : Bool → List Lexeme → Prop
  | absent {fixable : Bool} : SpellsWidth fixable []
  | varying {fixable : Bool} {n : Nat} : SpellsWidth fixable (inParens [.number n])
  | fixed {n : Nat} : SpellsWidth true (inParens [.number n] ++ [.reserved .fixedWord])

/-- The simple types. -/
inductive SpellsSimple : SimpleType → List Lexeme → Prop
  | integer : SpellsSimple .integer [.reserved .integerWord]
  | real {width : List Lexeme} (hwidth : SpellsWidth false width) :
      SpellsSimple .real (.reserved .realWord :: width)
  | number : SpellsSimple .number [.reserved .numberWord]
  | string {width : List Lexeme} (hwidth : SpellsWidth true width) :
      SpellsSimple .string (.reserved .stringWord :: width)
  | boolean : SpellsSimple .boolean [.reserved .booleanWord]
  | logical : SpellsSimple .logical [.reserved .logicalWord]
  | binary {width : List Lexeme} (hwidth : SpellsWidth true width) :
      SpellsSimple .binary (.reserved .binaryWord :: width)

/-- The least and the greatest number of elements of an aggregate. -/
inductive SpellsBounds : Int → Option Int → List Lexeme → Prop
  | absent : SpellsBounds 0 none []
  | closed {lower upper : Nat} : SpellsBounds lower (some upper)
      [.sign .leftBracket, .number lower, .sign .colon, .number upper, .sign .rightBracket]
  | unlimited {lower : Nat} : SpellsBounds lower none
      [.sign .leftBracket, .number lower, .sign .colon, .sign .question, .sign .rightBracket]

/-- The modifiers of the elements of an aggregate. -/
inductive SpellsModifiers : List Lexeme → Prop
  | absent : SpellsModifiers []
  | unique : SpellsModifiers [.reserved .uniqueWord]
  | optional : SpellsModifiers [.reserved .optionalWord]
  | both : SpellsModifiers [.reserved .optionalWord, .reserved .uniqueWord]

/-- The word for a kind of aggregate. -/
def kindWord : AggregateKind → Word
  | .list => .listWord
  | .set => .setWord
  | .bag => .bagWord
  | .array => .arrayWord

/-- Simple types, references to types by name, and aggregates of such types.  An aggregate is
written without a name. -/
inductive SpellsType : TypeDef → List Lexeme → Prop
  | simple {type : SimpleType} {ls : List Lexeme} (htype : SpellsSimple type ls) :
      SpellsType (.simple type) ls
  | named {name : Text} : SpellsType (.ref name) [.identifier name]
  | aggregate {kind : AggregateKind} {lower : Int} {upper : Option Int} {element : TypeDef}
      {bounds modifiers ls : List Lexeme} (hbounds : SpellsBounds lower upper bounds)
      (hmodifiers : SpellsModifiers modifiers) (helement : SpellsType element ls) :
      SpellsType (.unnamedAggregate element kind lower upper)
        (.reserved (kindWord kind) :: (bounds ++ .reserved .ofWord :: (modifiers ++ ls)))

/-! ## Supertypes and subtypes -/

/-- The parts of a constraint on subtypes. -/
inductive ConstraintPart where
  | term
  | expression
  | list

/-- A constraint on subtypes: terms joined by two words, where a term is a name, a choice from a
list of constraints, or a constraint in parentheses. -/
inductive SpellsConstraint : ConstraintPart → List Lexeme → Prop
  | name {name : Text} : SpellsConstraint .term [.identifier name]
  | choice {ls : List Lexeme} (hls : SpellsConstraint .list ls) :
      SpellsConstraint .term (.reserved .oneOfWord :: inParens ls)
  | group {ls : List Lexeme} (hls : SpellsConstraint .expression ls) :
      SpellsConstraint .term (inParens ls)
  | single {ls : List Lexeme} (hls : SpellsConstraint .term ls) : SpellsConstraint .expression ls
  | andAlso {ls ms : List Lexeme} (hls : SpellsConstraint .expression ls)
      (hms : SpellsConstraint .term ms) :
      SpellsConstraint .expression (ls ++ .reserved .andWord :: ms)
  | andOr {ls ms : List Lexeme} (hls : SpellsConstraint .expression ls)
      (hms : SpellsConstraint .term ms) :
      SpellsConstraint .expression (ls ++ .reserved .andOrWord :: ms)
  | last {ls : List Lexeme} (hls : SpellsConstraint .expression ls) : SpellsConstraint .list ls
  | more {ls ms : List Lexeme} (hls : SpellsConstraint .list ls)
      (hms : SpellsConstraint .expression ms) :
      SpellsConstraint .list (ls ++ .sign .comma :: ms)

/-- The clause that says whether an entity type is abstract and what holds of its subtypes. -/
inductive SpellsSupertype : Bool → List Lexeme → Prop
  | absent : SpellsSupertype false []
  | constrained {ls : List Lexeme} (hls : SpellsConstraint .expression ls) :
      SpellsSupertype false (.reserved .supertypeWord :: .reserved .ofWord :: inParens ls)
  | abstract : SpellsSupertype true [.reserved .abstractWord]
  | abstractSupertype :
      SpellsSupertype true [.reserved .abstractWord, .reserved .supertypeWord]
  | abstractConstrained {ls : List Lexeme} (hls : SpellsConstraint .expression ls) :
      SpellsSupertype true
        (.reserved .abstractWord :: .reserved .supertypeWord :: .reserved .ofWord :: inParens ls)

/-- The clause that names the supertypes of an entity type. -/
inductive SpellsSubtype : List Text → List Lexeme → Prop
  | absent : SpellsSubtype [] []
  | present {names : List Text} (hnames : names ≠ []) :
      SpellsSubtype names (.reserved .subtypeWord :: .reserved .ofWord :: inParens (row names))

/-! ## Attributes -/

/-- The word that makes attributes optional, if they are. -/
def optionalMark (optional : Bool) : List Lexeme :=
  if optional then [.reserved .optionalWord] else []

/-- Explicit attributes.  Neighbours of one type may share a declaration. -/
inductive SpellsAttributes : List Attribute → List Lexeme → Prop
  | nil : SpellsAttributes [] []
  | cons {names : List Text} {type : TypeDef} {optional : Bool} {rest : List Attribute}
      {ls more : List Lexeme} (hnames : names ≠ []) (htype : SpellsType type ls)
      (hrest : SpellsAttributes rest more) :
      SpellsAttributes ((names.map fun name => ⟨name, type, optional, false⟩) ++ rest)
        (row names ++ .sign .colon ::
          (optionalMark optional ++ (ls ++ .sign .semicolon :: more)))

/-- Derived attributes.  One that redeclares an attribute of a supertype names both. -/
inductive SpellsDerived : List (Text × Text) → List Lexeme → Prop
  | nil : SpellsDerived [] []
  | plain {name text : Text} {type : TypeDef} {rest : List (Text × Text)}
      {ls more : List Lexeme} (htype : SpellsType type ls) (hrest : SpellsDerived rest more) :
      SpellsDerived rest
        (.identifier name :: .sign .colon :: (ls ++ .expression text :: more))
  | redeclared {owner name text : Text} {type : TypeDef} {rest : List (Text × Text)}
      {ls more : List Lexeme} (htype : SpellsType type ls) (hrest : SpellsDerived rest more) :
      SpellsDerived ((owner, name) :: rest)
        (.reserved .selfWord :: .sign .backslash :: .identifier owner :: .sign .dot ::
          .identifier name :: .sign .colon :: (ls ++ .expression text :: more))

/-- The clause of derived attributes, one at least. -/
inductive SpellsDerive : List (Text × Text) → List Lexeme → Prop
  | absent : SpellsDerive [] []
  | present {overrides : List (Text × Text)} {ls : List Lexeme} (hsome : ls ≠ [])
      (hls : SpellsDerived overrides ls) : SpellsDerive overrides (.reserved .deriveWord :: ls)

/-! ## Declarations -/

/-- The type that a declaration gives a name. -/
inductive SpellsBody (name : Text) : TypeDef → List Lexeme → Prop
  | defined {underlying : TypeDef} {ls : List Lexeme} (htype : SpellsType underlying ls) :
      SpellsBody name (.defined name underlying) ls
  | enumeration {items : List Text} (hitems : items ≠ []) :
      SpellsBody name (.enumeration name items)
        (.reserved .enumerationWord :: .reserved .ofWord :: inParens (row items))
  | select {options : List Text} (hoptions : options ≠ []) :
      SpellsBody name (.select name options) (.reserved .selectWord :: inParens (row options))

/-- A declaration of a type or an entity type. -/
inductive SpellsDeclaration : TypeDef → List Lexeme → Prop
  | type {name : Text} {declared : TypeDef} {ls : List Lexeme}
      (hbody : SpellsBody name declared ls) :
      SpellsDeclaration declared
        (.reserved .typeWord :: .identifier name :: .sign .equals ::
          (ls ++ [.sign .semicolon, .reserved .endTypeWord, .sign .semicolon]))
  | entity {name : Text} {attributes : List Attribute} {supertypes : List Text}
      {isAbstract : Bool} {overrides : List (Text × Text)}
      {supertype subtype explicit derive : List Lexeme}
      (hsupertype : SpellsSupertype isAbstract supertype)
      (hsubtype : SpellsSubtype supertypes subtype)
      (hattributes : SpellsAttributes attributes explicit)
      (hderive : SpellsDerive overrides derive) :
      SpellsDeclaration (.entity ⟨name, attributes, supertypes, isAbstract, overrides⟩)
        (.reserved .entityWord :: .identifier name ::
          (supertype ++ (subtype ++ .sign .semicolon ::
            (explicit ++ (derive ++ [.reserved .endEntityWord, .sign .semicolon])))))

/-- Declarations one after another. -/
inductive SpellsDeclarations : List TypeDef → List Lexeme → Prop
  | nil : SpellsDeclarations [] []
  | cons {declared : TypeDef} {rest : List TypeDef} {ls more : List Lexeme}
      (hdeclared : SpellsDeclaration declared ls) (hrest : SpellsDeclarations rest more) :
      SpellsDeclarations (declared :: rest) (ls ++ more)

/-- A schema. -/
inductive SpellsSchema : Text → List TypeDef → List Lexeme → Prop
  | mk {name : Text} {declared : List TypeDef} {ls : List Lexeme}
      (hdeclared : SpellsDeclarations declared ls) :
      SpellsSchema name declared
        (.reserved .schemaWord :: .identifier name :: .sign .semicolon ::
          (ls ++ [.reserved .endSchemaWord, .sign .semicolon]))

end Express

end Part21
