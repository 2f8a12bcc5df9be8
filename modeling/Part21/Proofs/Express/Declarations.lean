import Part21.Proofs.Express.Types

set_option autoImplicit false

/-!
# Reading declarations

The readers of types, entity types and whole schemas get what their tokens spell.  Each clause has a
lemma of its own that names what may stand behind the clause.  Readers of rows carry what they have
read so far as an argument and use one unit of fuel for each member; a member has a lexeme at least,
so as many units as there are tokens are enough.

A constraint on subtypes is read by a machine that keeps the parentheses that are open.
`Reader.constraint_term` says that every part of a constraint takes the machine from where a term
has to follow to where one was read, with the same parentheses open.

The main statement is `Reader.reads_schema`.
-/

namespace Part21

namespace Express

open Part21.Express.Token (Carry)

namespace Reader

variable {behind : List Lexeme}

/-! ## Types with a name -/

theorem reads_declaredType {name : Text} {declared : TypeDef} {ls : List Lexeme}
    (h : SpellsBody name declared ls) (hbehind : EndsType behind) :
    Reads (declaredType name) ls declared behind := by
  intro ts hts
  cases h with
  | @defined underlying _ htype =>
    obtain ⟨rest, hread, hrest⟩ := reads_baseType htype hbehind ts hts
    refine ⟨rest, ?_, hrest⟩
    -- No type starts with a word that opens an enumeration or a select.
    obtain ⟨l, more, rfl, hl⟩ := spellsType_head htype
    obtain ⟨t, others, rfl, ht, -⟩ := Carry.cons hts
    unfold declaredType
    split
    · rename_i hsame
      cases hsame
      exact absurd ht.symm (hl .enumerationWord (by decide))
    · rename_i hsame
      cases hsame
      exact absurd ht.symm (hl .selectWord (by decide))
    · simp only [hread]
  | enumeration hitems =>
    obtain ⟨_, _, _, next, rfl, hnext⟩ := hts.reserved
    obtain ⟨list, hpass, hlist⟩ := passes_word hnext
    obtain ⟨rest, hread, hrest⟩ := reads_identifierList hitems list hlist
    exact ⟨rest, by simp only [declaredType, hpass, hread], hrest⟩
  | select hoptions =>
    obtain ⟨_, _, _, list, rfl, hlist⟩ := hts.reserved
    obtain ⟨rest, hread, hrest⟩ := reads_identifierList hoptions list hlist
    exact ⟨rest, by simp only [declaredType, hread], hrest⟩

theorem reads_typeDeclaration {name : Text} {declared : TypeDef} {ls : List Lexeme}
    (h : SpellsBody name declared ls) :
    Reads typeDeclaration
      (.identifier name :: .sign .equals ::
        (ls ++ [.sign .semicolon, .reserved .endTypeWord, .sign .semicolon]))
      declared behind := by
  intro ts hts
  simp only [List.cons_append, List.nil_append, List.append_assoc] at hts
  obtain ⟨equals, hname, hequals⟩ := reads_identifier hts
  obtain ⟨body, hopen, hbody⟩ := passes_sign hequals
  obtain ⟨closing, hread, hclosing⟩ := reads_declaredType h .semicolon body hbody
  obtain ⟨ending, hclose, hending⟩ := passes_sign hclosing
  obtain ⟨last, hend, hlast⟩ := passes_word hending
  obtain ⟨rest, hdone, hrest⟩ := passes_sign hlast
  exact ⟨rest, by simp only [typeDeclaration, hname, hopen, hread, hclose, hend, hdone], hrest⟩

/-! ## Supertypes and subtypes -/

/-- The innermost parenthesis that is open lets the part stand in it. -/
def Fits : ConstraintPart → List Bracket → Prop
  | .list, brackets => ∃ outer, brackets = .oneOf :: outer
  | _, _ => True

/-- Reading a part of a constraint leads from in front of a term to behind one. -/
theorem constraint_term {part : ConstraintPart} {ls : List Lexeme} (h : SpellsConstraint part ls)
    {brackets : List Bracket} (hfits : Fits part brackets) {ts : List Token}
    (hts : Carry ts (ls ++ behind)) :
    ∃ rest, constraint brackets .term ts = constraint brackets .behindTerm rest ∧
      Carry rest behind := by
  -- What a single token does to the machine holds by computation.
  induction h generalizing brackets behind ts with
  | name =>
    obtain ⟨_, _, rest, rfl, hrest⟩ := hts.identifier
    exact ⟨rest, rfl, hrest⟩
  | @choice ls _ ih =>
    simp only [inParens, List.cons_append, List.nil_append, List.append_assoc] at hts
    obtain ⟨_, _, _, list, rfl, hlist⟩ := hts.reserved
    obtain ⟨_, _, inside, rfl, hinside⟩ := hlist.sign
    obtain ⟨closing, hread, hclosing⟩ := @ih _ (.oneOf :: brackets) ⟨_, rfl⟩ _ hinside
    obtain ⟨_, _, rest, rfl, hrest⟩ := hclosing.sign
    exact ⟨rest, hread, hrest⟩
  | @group ls _ ih =>
    simp only [inParens, List.cons_append, List.nil_append, List.append_assoc] at hts
    obtain ⟨_, _, inside, rfl, hinside⟩ := hts.sign
    obtain ⟨closing, hread, hclosing⟩ := @ih _ (.group :: brackets) trivial _ hinside
    obtain ⟨_, _, rest, rfl, hrest⟩ := hclosing.sign
    exact ⟨rest, hread, hrest⟩
  | single _ ih => exact ih trivial hts
  | last _ ih => exact ih trivial hts
  | andAlso _ _ ihl ihm =>
    rw [List.append_assoc, List.cons_append] at hts
    obtain ⟨middle, hread, hmiddle⟩ := ihl trivial hts
    obtain ⟨_, _, _, next, rfl, hnext⟩ := hmiddle.reserved
    obtain ⟨rest, hmore, hrest⟩ := ihm trivial hnext
    exact ⟨rest, hread.trans hmore, hrest⟩
  | andOr _ _ ihl ihm =>
    rw [List.append_assoc, List.cons_append] at hts
    obtain ⟨middle, hread, hmiddle⟩ := ihl trivial hts
    obtain ⟨_, _, _, next, rfl, hnext⟩ := hmiddle.reserved
    obtain ⟨rest, hmore, hrest⟩ := ihm trivial hnext
    exact ⟨rest, hread.trans hmore, hrest⟩
  | more _ _ ihl ihm =>
    rw [List.append_assoc, List.cons_append] at hts
    obtain ⟨outer, rfl⟩ := hfits
    obtain ⟨middle, hread, hmiddle⟩ := ihl ⟨outer, rfl⟩ hts
    obtain ⟨_, _, next, rfl, hnext⟩ := hmiddle.sign
    obtain ⟨rest, hmore, hrest⟩ := ihm trivial hnext
    exact ⟨rest, hread.trans hmore, hrest⟩

theorem passes_subtypes {ls : List Lexeme} (h : SpellsConstraint .expression ls) :
    Passes subtypes (inParens ls) behind := by
  intro ts hts
  simp only [inParens, List.cons_append, List.nil_append, List.append_assoc] at hts
  obtain ⟨inside, hopen, hinside⟩ := passes_sign hts
  obtain ⟨closing, hread, hclosing⟩ := @constraint_term _ _ _ h [] trivial _ hinside
  obtain ⟨_, _, rest, rfl, hrest⟩ := hclosing.sign
  exact ⟨rest, by simp only [subtypes, hopen, hread, constraint], hrest⟩

/-- What comes behind the clause about subtypes. -/
inductive EndsSupertype : List Lexeme → Prop
  | subtype {more : List Lexeme} : EndsSupertype (.reserved .subtypeWord :: more)
  | semicolon {more : List Lexeme} : EndsSupertype (.sign .semicolon :: more)

theorem reads_supertypeClause {isAbstract : Bool} {ls : List Lexeme}
    (h : SpellsSupertype isAbstract ls) (hbehind : EndsSupertype behind) :
    Reads supertypeClause ls isAbstract behind := by
  intro ts hts
  -- What comes behind settles which of the forms of the clause it is.
  have hends : ∀ rest, Carry rest behind →
      (∃ spelling offset line more, rest = ⟨.word .subtypeWord spelling, offset, line⟩ :: more) ∨
        ∃ offset line more, rest = ⟨.sign .semicolon, offset, line⟩ :: more := by
    intro rest hrest
    cases hbehind with
    | subtype =>
      obtain ⟨spelling, offset, line, more, rfl, -⟩ := hrest.reserved
      exact .inl ⟨spelling, offset, line, more, rfl⟩
    | semicolon =>
      obtain ⟨offset, line, more, rfl, -⟩ := hrest.sign
      exact .inr ⟨offset, line, more, rfl⟩
  cases h with
  | absent =>
    refine ⟨ts, ?_, hts⟩
    rcases hends ts hts with ⟨_, _, _, _, rfl⟩ | ⟨_, _, _, rfl⟩ <;> rfl
  | constrained hls =>
    simp only [List.cons_append] at hts
    obtain ⟨_, _, _, next, rfl, hnext⟩ := hts.reserved
    obtain ⟨list, hpass, hlist⟩ := passes_word hnext
    obtain ⟨rest, hread, hrest⟩ := passes_subtypes hls list hlist
    exact ⟨rest, by simp only [supertypeClause, hpass, hread], hrest⟩
  | abstract =>
    obtain ⟨_, _, _, rest, rfl, hrest⟩ := Carry.reserved hts
    refine ⟨rest, ?_, hrest⟩
    rcases hends rest hrest with ⟨_, _, _, _, rfl⟩ | ⟨_, _, _, rfl⟩ <;> rfl
  | abstractSupertype =>
    obtain ⟨_, _, _, next, rfl, hnext⟩ := Carry.reserved hts
    obtain ⟨_, _, _, rest, rfl, hrest⟩ := Carry.reserved hnext
    refine ⟨rest, ?_, hrest⟩
    rcases hends rest hrest with ⟨_, _, _, _, rfl⟩ | ⟨_, _, _, rfl⟩ <;> rfl
  | abstractConstrained hls =>
    obtain ⟨_, _, _, next, rfl, hnext⟩ := Carry.reserved hts
    obtain ⟨_, _, _, last, rfl, hlast⟩ := Carry.reserved hnext
    obtain ⟨_, _, _, list, rfl, hlist⟩ := Carry.reserved hlast
    obtain ⟨rest, hread, hrest⟩ := passes_subtypes hls list hlist
    exact ⟨rest, by simp only [supertypeClause, hread], hrest⟩

theorem reads_subtypeClause {names : List Text} {ls : List Lexeme} (h : SpellsSubtype names ls) :
    Reads subtypeClause ls names (.sign .semicolon :: behind) := by
  intro ts hts
  cases h with
  | absent =>
    obtain ⟨_, _, rest, rfl, -⟩ := Carry.sign hts
    exact ⟨_, rfl, hts⟩
  | present hnames =>
    obtain ⟨_, _, _, next, rfl, hnext⟩ := hts.reserved
    obtain ⟨list, hpass, hlist⟩ := passes_word hnext
    obtain ⟨rest, hread, hrest⟩ := reads_identifierList hnames list hlist
    exact ⟨rest, by simp only [subtypeClause, hpass, hread], hrest⟩

/-! ## Attributes -/

theorem reads_attributeGroup {names : List Text} (hnames : names ≠ []) {type : TypeDef}
    (optional : Bool) {ls : List Lexeme} (htype : SpellsType type ls) :
    Reads attributeGroup
      (row names ++ .sign .colon :: (optionalMark optional ++ (ls ++ [.sign .semicolon])))
      (names.map fun name => ⟨name, type, optional, false⟩) behind := by
  intro ts hts
  simp only [List.cons_append, List.nil_append, List.append_assoc] at hts
  obtain ⟨colon, hrow, hcolon⟩ := reads_identifiers hnames (by simp) ts hts
  obtain ⟨body, hpass, hbody⟩ := passes_sign hcolon
  -- The word for optional attributes is told from the first lexeme of the type.
  obtain ⟨t, others, rfl, hoptional, htype'⟩ : ∃ t others, body = t :: others ∧
      isWord .optionalWord t = optional ∧
      Carry (skipWord .optionalWord (t :: others)) (ls ++ .sign .semicolon :: behind) := by
    cases optional with
    | true =>
      obtain ⟨spelling, offset, line, rest, rfl, hrest⟩ := Carry.reserved hbody
      refine ⟨_, rest, rfl, isWord_self _ _ _ _, ?_⟩
      rw [skipWord_self]
      exact hrest
    | false =>
      obtain ⟨l, more, rfl, hl⟩ := spellsType_head htype
      have hne : l ≠ .reserved .optionalWord := hl _ (by decide)
      obtain ⟨t, rest, rfl, rfl, -⟩ := Carry.cons hbody
      refine ⟨t, rest, rfl, isWord_of_ne hne, ?_⟩
      rw [skipWord_of_ne hbody fun m hm => by cases hm; exact hne]
      exact hbody
  obtain ⟨closing, hread, hclosing⟩ := reads_baseType htype .semicolon _ htype'
  obtain ⟨rest, hclose, hrest⟩ := passes_sign hclosing
  refine ⟨rest, ?_, hrest⟩
  simp only [attributeGroup, hrow, hpass, hread, hclose, hoptional]

/-- Attributes end at a reserved word. -/
theorem attributes_reserved {fuel : Nat} {before : List Attribute} {w : Word} {ts : List Token}
    (hts : Carry ts (.reserved w :: behind)) : attributes fuel before ts = .ok (before, ts) := by
  obtain ⟨_, _, _, rest, rfl, -⟩ := hts.reserved
  cases fuel <;> rfl

theorem reads_attributes {declared : List Attribute} {ls : List Lexeme}
    (h : SpellsAttributes declared ls) {fuel : Nat} (hfuel : ls.length ≤ fuel)
    (before : List Attribute) (w : Word) :
    Reads (attributes fuel before) ls (before ++ declared) (.reserved w :: behind) := by
  induction h generalizing fuel before with
  | nil =>
    intro ts hts
    exact ⟨ts, by rw [attributes_reserved hts, List.append_nil], hts⟩
  | @cons names type optional others ls more hnames htype _ ih =>
    intro ts hts
    have hgroup : Carry ts
        (row names ++ .sign .colon :: (optionalMark optional ++ (ls ++ [.sign .semicolon])) ++
          (more ++ .reserved w :: behind)) := by
      simpa only [List.cons_append, List.nil_append, List.append_assoc] using hts
    obtain ⟨next, hread, hnext⟩ := reads_attributeGroup hnames optional htype ts hgroup
    cases fuel with
    | zero => simp at hfuel
    | succ fuel =>
      have hmore : more.length ≤ fuel := by
        simp only [List.length_append, List.length_cons] at hfuel
        omega
      obtain ⟨rest, hothers, hrest⟩ :=
        ih hmore (before ++ names.map fun name => ⟨name, type, optional, false⟩) next hnext
      refine ⟨rest, ?_, hrest⟩
      obtain ⟨name, tail, hrow⟩ := row_head hnames
      rw [hrow] at hts
      obtain ⟨_, _, _, rfl, -⟩ := Carry.identifier hts
      simp only [attributes, hread, hothers, List.append_assoc]

/-! ## Derived attributes -/

theorem passes_derivation {type : TypeDef} {text : Text} {ls : List Lexeme}
    (htype : SpellsType type ls) :
    Passes derivation (.sign .colon :: (ls ++ [.expression text])) behind := by
  intro ts hts
  simp only [List.cons_append, List.nil_append, List.append_assoc] at hts
  obtain ⟨body, hpass, hbody⟩ := passes_sign hts
  obtain ⟨last, hread, hlast⟩ := reads_baseType htype .expression body hbody
  obtain ⟨rest, hend, hrest⟩ := passes_expression hlast
  exact ⟨rest, by simp only [derivation, hpass, hread, hend], hrest⟩

theorem reads_derivedItem_plain {name text : Text} {type : TypeDef} {ls : List Lexeme}
    (htype : SpellsType type ls) :
    Reads derivedItem (.identifier name :: .sign .colon :: (ls ++ [.expression text])) none
      behind := by
  intro ts hts
  rw [List.cons_append] at hts
  obtain ⟨_, _, body, rfl, hbody⟩ := hts.identifier
  obtain ⟨rest, hpass, hrest⟩ := passes_derivation htype body hbody
  exact ⟨rest, by simp only [derivedItem, identifier, hpass], hrest⟩

theorem reads_derivedItem_redeclared {owner name text : Text} {type : TypeDef} {ls : List Lexeme}
    (htype : SpellsType type ls) :
    Reads derivedItem
      (.reserved .selfWord :: .sign .backslash :: .identifier owner :: .sign .dot ::
        .identifier name :: .sign .colon :: (ls ++ [.expression text]))
      (some (owner, name)) behind := by
  intro ts hts
  simp only [List.cons_append] at hts
  obtain ⟨_, _, _, stroke, rfl, hstroke⟩ := hts.reserved
  obtain ⟨owned, hself, howned⟩ := passes_sign hstroke
  obtain ⟨dot, howner, hdot⟩ := reads_identifier howned
  obtain ⟨named, hpoint, hnamed⟩ := passes_sign hdot
  obtain ⟨body, hname, hbody⟩ := reads_identifier hnamed
  obtain ⟨rest, hpass, hrest⟩ := passes_derivation htype body hbody
  exact ⟨rest, by simp only [derivedItem, hself, howner, hpoint, hname, hpass], hrest⟩

/-- Derived attributes do not start with the word that closes an entity type. -/
theorem spellsDerived_head {overrides : List (Text × Text)} {ls : List Lexeme}
    (h : SpellsDerived overrides ls) :
    ∀ l ∈ ls.head?, l ≠ .reserved .endEntityWord := by
  intro l hl
  cases h with
  | nil => cases hl
  | plain =>
    cases hl
    nofun
  | redeclared =>
    cases hl
    decide

/-- After one derived attribute the row goes on unless it is at its end. -/
theorem derivedItems_step {item : Option (Text × Text)} {overrides : List (Text × Text)}
    {ls more : List Lexeme} (hitem : ∀ behind, Reads derivedItem ls item behind)
    (hmore : SpellsDerived overrides more) {fuel : Nat} (before : List (Text × Text))
    (hothers : more ≠ [] → Reads (derivedItems fuel (before ++ item.toList)) more
      (before ++ item.toList ++ overrides) (.reserved .endEntityWord :: behind)) :
    Reads (derivedItems (fuel + 1) before) (ls ++ more) (before ++ item.toList ++ overrides)
      (.reserved .endEntityWord :: behind) := by
  intro ts hts
  rw [List.append_assoc] at hts
  obtain ⟨next, hread, hnext⟩ := hitem _ ts hts
  rw [derivedItems, hread]
  dsimp only
  by_cases hlast : more = []
  · subst hlast
    cases hmore
    obtain ⟨_, _, _, rest, rfl, -⟩ := Carry.reserved hnext
    exact ⟨_, by rw [List.append_nil], hnext⟩
  · obtain ⟨rest, hread, hrest⟩ := hothers hlast next hnext
    refine ⟨rest, ?_, hrest⟩
    split
    · obtain ⟨l, tail, rfl⟩ := List.exists_cons_of_ne_nil hlast
      obtain ⟨_, _, hsame, rfl, -⟩ := Carry.cons hnext
      cases hsame
      exact absurd rfl (spellsDerived_head hmore _ rfl)
    · exact hread

theorem reads_derivedItems {overrides : List (Text × Text)} {ls : List Lexeme}
    (h : SpellsDerived overrides ls) (hsome : ls ≠ []) {fuel : Nat} (hfuel : ls.length ≤ fuel)
    (before : List (Text × Text)) :
    Reads (derivedItems fuel before) ls (before ++ overrides)
      (.reserved .endEntityWord :: behind) := by
  induction h generalizing fuel before with
  | nil => exact absurd rfl hsome
  | @plain name text type others ls more htype hmore ih =>
    cases fuel with
    | zero => cases hfuel
    | succ fuel =>
      have hfits : more.length ≤ fuel := by
        simp only [List.length_append, List.length_cons] at hfuel
        omega
      have hitem := fun behind => @reads_derivedItem_plain behind name text type ls htype
      have hstep := derivedItems_step hitem hmore before fun hlast => ih hlast hfits (before ++ [])
      simpa using hstep
  | @redeclared owner name text type others ls more htype hmore ih =>
    cases fuel with
    | zero => cases hfuel
    | succ fuel =>
      have hfits : more.length ≤ fuel := by
        simp only [List.length_append, List.length_cons] at hfuel
        omega
      have hitem := fun behind =>
        @reads_derivedItem_redeclared behind owner name text type ls htype
      have hstep := derivedItems_step hitem hmore before fun hlast =>
        ih hlast hfits (before ++ [(owner, name)])
      simpa using hstep

theorem reads_deriveClause {overrides : List (Text × Text)} {ls : List Lexeme}
    (h : SpellsDerive overrides ls) :
    Reads deriveClause ls overrides (.reserved .endEntityWord :: behind) := by
  intro ts hts
  cases h with
  | absent =>
    obtain ⟨_, _, _, rest, rfl, -⟩ := Carry.reserved hts
    exact ⟨_, rfl, hts⟩
  | @present _ ls hsome hls =>
    rw [List.cons_append] at hts
    obtain ⟨_, _, _, items, rfl, hitems⟩ := hts.reserved
    have hfuel : ls.length ≤ items.length + 1 := by
      rw [Token.Carry.length hitems, List.length_append]
      omega
    exact reads_derivedItems hls hsome hfuel [] items hitems

/-! ## Entity types -/

theorem endsSupertype_of_subtype {names : List Text} {ls : List Lexeme}
    (h : SpellsSubtype names ls) : EndsSupertype (ls ++ .sign .semicolon :: behind) := by
  cases h with
  | absent => exact .semicolon
  | present => exact .subtype

theorem derive_head {overrides : List (Text × Text)} {ls : List Lexeme}
    (h : SpellsDerive overrides ls) :
    ∃ w more, ls ++ .reserved .endEntityWord :: behind = .reserved w :: more := by
  cases h with
  | absent => exact ⟨_, _, rfl⟩
  | present => exact ⟨_, _, rfl⟩

theorem reads_entityDeclaration {name : Text} {attributes : List Attribute}
    {supertypes : List Text} {isAbstract : Bool} {overrides : List (Text × Text)}
    {supertype subtype explicit derive : List Lexeme}
    (hsupertype : SpellsSupertype isAbstract supertype)
    (hsubtype : SpellsSubtype supertypes subtype)
    (hattributes : SpellsAttributes attributes explicit)
    (hderive : SpellsDerive overrides derive) :
    Reads entityDeclaration
      (.identifier name :: (supertype ++ (subtype ++ .sign .semicolon ::
        (explicit ++ (derive ++ [.reserved .endEntityWord, .sign .semicolon])))))
      ⟨name, attributes, supertypes, isAbstract, overrides⟩ behind := by
  intro ts hts
  simp only [List.cons_append, List.nil_append, List.append_assoc] at hts
  obtain ⟨clauses, hname, hclauses⟩ := reads_identifier hts
  obtain ⟨second, hfirst, hsecond⟩ :=
    reads_supertypeClause hsupertype (endsSupertype_of_subtype hsubtype) clauses hclauses
  obtain ⟨semicolon, hnext, hsemicolon⟩ := reads_subtypeClause hsubtype second hsecond
  obtain ⟨body, hopen, hbody⟩ := passes_sign hsemicolon
  have hfuel : explicit.length ≤ body.length := by
    rw [Token.Carry.length hbody, List.length_append]
    omega
  obtain ⟨w, more, hhead⟩ := @derive_head (.sign .semicolon :: behind) _ _ hderive
  rw [hhead] at hbody
  obtain ⟨clause, hread, hclause⟩ := reads_attributes hattributes hfuel [] w body hbody
  rw [← hhead] at hclause
  obtain ⟨ending, hlast, hending⟩ := reads_deriveClause hderive clause hclause
  obtain ⟨closing, hend, hclosing⟩ := passes_word hending
  obtain ⟨rest, hdone, hrest⟩ := passes_sign hclosing
  refine ⟨rest, ?_, hrest⟩
  simp only [entityDeclaration, hname, hfirst, hnext, hopen, hread, hlast, hend, hdone,
    List.nil_append]

/-! ## Schemas -/

theorem spellsDeclaration_length {declared : TypeDef} {ls : List Lexeme}
    (h : SpellsDeclaration declared ls) : 0 < ls.length := by
  cases h <;> exact Nat.succ_pos _

/-- After one declaration the row goes on. -/
theorem declarations_step {declared : TypeDef} {all : List TypeDef} {ls more : List Lexeme}
    (h : SpellsDeclaration declared ls) {fuel : Nat} {before : List TypeDef}
    (hmore : Reads (declarations fuel (before ++ [declared])) more all behind) :
    Reads (declarations (fuel + 1) before) (ls ++ more) all behind := by
  intro ts hts
  rw [List.append_assoc] at hts
  cases h with
  | type hbody =>
    obtain ⟨_, _, _, next, rfl, hnext⟩ := hts.reserved
    obtain ⟨tail, hread, htail⟩ := reads_typeDeclaration hbody next hnext
    obtain ⟨rest, hothers, hrest⟩ := hmore tail htail
    exact ⟨rest, by simp only [declarations, hread, hothers], hrest⟩
  | entity hsupertype hsubtype hattributes hderive =>
    obtain ⟨_, _, _, next, rfl, hnext⟩ := hts.reserved
    obtain ⟨tail, hread, htail⟩ :=
      reads_entityDeclaration hsupertype hsubtype hattributes hderive next hnext
    obtain ⟨rest, hothers, hrest⟩ := hmore tail htail
    exact ⟨rest, by simp only [declarations, hread, hothers], hrest⟩

theorem reads_declarations {declared : List TypeDef} {ls : List Lexeme}
    (h : SpellsDeclarations declared ls) {fuel : Nat} (hfuel : ls.length ≤ fuel)
    (before : List TypeDef) :
    Reads (declarations fuel before) (ls ++ [.reserved .endSchemaWord]) (before ++ declared)
      behind := by
  induction h generalizing fuel before with
  | nil =>
    intro ts hts
    obtain ⟨_, _, _, rest, rfl, hrest⟩ := Carry.reserved hts
    refine ⟨rest, ?_, hrest⟩
    rw [List.append_nil]
    cases fuel <;> rfl
  | @cons declared others ls more hdeclared _ ih =>
    have hsome := spellsDeclaration_length hdeclared
    rw [List.length_append] at hfuel
    cases fuel with
    | zero => omega
    | succ fuel =>
      have hfits : more.length ≤ fuel := by omega
      have hstep := declarations_step hdeclared (ih hfits (before ++ [declared]))
      simpa only [List.append_assoc, List.singleton_append] using hstep

/-- A schema is read from its spellings. -/
theorem reads_schema {name : Text} {declared : List TypeDef} {ls : List Lexeme}
    (h : SpellsSchema name declared ls) : Reads schema ls (name, declared) behind := by
  intro ts hts
  cases h with
  | @mk ls hdeclared =>
    simp only [List.cons_append, List.nil_append, List.append_assoc] at hts
    obtain ⟨named, hopen, hnamed⟩ := passes_word hts
    obtain ⟨semicolon, hname, hsemicolon⟩ := reads_identifier hnamed
    obtain ⟨body, hpass, hbody⟩ := passes_sign hsemicolon
    have hfuel : ls.length ≤ body.length := by
      rw [Token.Carry.length hbody, List.length_append]
      omega
    obtain ⟨closing, hread, hclosing⟩ :=
      reads_declarations hdeclared hfuel [] body (by rw [List.append_assoc]; exact hbody)
    obtain ⟨rest, hend, hrest⟩ := passes_sign hclosing
    exact ⟨rest, by simp only [schema, hopen, hname, hpass, hread, hend, List.nil_append], hrest⟩

end Reader

end Express

end Part21
