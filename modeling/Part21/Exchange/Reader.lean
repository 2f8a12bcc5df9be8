import Part21.Exchange.Section
import Part21.Exchange.Token

set_option autoImplicit false

/-!
# Reading an exchange structure

Readers take a row of tokens, use up its start and return what it stands for
with the rest.  A reader that cannot go on returns the rest from the offending
token on, with the classes that could have come in its place.

Groups nest, so parameters are read with the unfinished lists and typed values
around them kept on a stack; the recursion is on the tokens.

The classes that a reader expects are those of its place in the grammar, with
two refinements.  Behind a parameter, a group or an instance it is first asked
whether the next token can follow one anywhere; only if it can, but not here,
are the classes of the place itself reported.

The grammar is that of section 6 of `SPEC_FULL.md`, with the additions of B.5; readers of
instances and of sections are its 4.2 and 4.3, and what a reader expects is the `expected`
of a `ParseError` (B.4).
-/

namespace Part21

/-- What can come next: a lexeme of a class, or nothing. -/
inductive Terminal where
  | lexeme (kind : LexemeKind)
  | endOfInput
  deriving DecidableEq

namespace Terminal

/-- The name of a terminal in messages. -/
def name : Terminal → Text
  | lexeme kind => kind.name
  | endOfInput => "end of input"

end Terminal

/-- Where and why a reader stops: the tokens from the offending one on, and what
could have come instead. -/
structure Stop where
  rest : List Token
  expected : List Terminal

/-- What a reader answers: a value with the rest of the tokens, or a stop. -/
abbrev Answer (α : Type) : Type := Except Stop (α × List Token)

namespace Reader

/-- The classes as terminals. -/
def kinds (ks : List LexemeKind) : List Terminal := ks.map Terminal.lexeme

/-- Stop in front of `ts`, where one of the classes should come. -/
def stop {α : Type} (ks : List LexemeKind) (ts : List Token) : Except Stop α :=
  .error ⟨ts, kinds ks⟩

/-- The rest behind a token of a class. -/
def require (k : LexemeKind) : List Token → Except Stop (List Token)
  | [] => stop [k] []
  | t :: rest => if t.kind = k then .ok rest else stop [k] (t :: rest)

/-- Check that the next token can follow: first that it is of one of the
classes `anywhere`, then that it is of one of the classes `here`. -/
def follow (anywhere here : List Terminal) (ts : List Token) : Except Stop Unit :=
  let next : Terminal :=
    match ts with
    | [] => .endOfInput
    | t :: _ => .lexeme t.kind
  if anywhere.contains next then
    if here.contains next then .ok () else .error ⟨ts, here⟩
  else .error ⟨ts, anywhere⟩

/-! ## Parameters -/

/-- The classes that start a parameter. -/
def parameterStarts : List LexemeKind :=
  [.binary, .dollar, .entityName, .enumeration, .integer, .keyword, .leftParen, .real, .star,
    .string]

/-- What is open around a parameter: a list with the items so far, the last one
first, or a typed value. -/
inductive Frame where
  | row (items : List Parameter)
  | typed (keyword : Text)

/-- How far the innermost open group has come. -/
inductive Phase where
  /-- it was just opened and may be empty -/
  | opened
  /-- a parameter has to follow -/
  | wanted
  /-- the keyword of a typed value was read -/
  | named (keyword : Text)
  /-- a parameter was read -/
  | filled (value : Parameter)

/-- The parameter that a single lexeme is. -/
def literal? : Lexeme → Option Parameter
  | .integer value => some (.integer value)
  | .real value => some (.real value)
  | .string value => some (.string value)
  | .enumeration item => some (.enumeration item)
  | .binary unusedBits digits => some (.binary unusedBits digits)
  | .entityName id => some (.reference id)
  | .dollar => some .unset
  | .star => some .inapplicable
  | _ => none

/-- What could come in a phase. -/
def Phase.expected : Phase → List LexemeKind
  | .opened => .rightParen :: parameterStarts
  | .wanted => parameterStarts
  | .named _ => [.leftParen]
  | .filled _ => [.comma, .rightParen]

/-- The parameters of a group up to its closing parenthesis.  `items` are those
read so far, the last one first, and `frames` what is open inside the group, the
innermost first. -/
def parameters (items : List Parameter) (frames : List Frame) (phase : Phase) :
    List Token → Answer (List Parameter)
  | [] => stop phase.expected []
  | t :: rest =>
    match phase with
    | .named keyword =>
      match t.lexeme with
      | .leftParen => parameters items (.typed keyword :: frames) .wanted rest
      | _ => stop phase.expected (t :: rest)
    | .filled value =>
      match t.lexeme with
      | .comma =>
        match frames with
        | [] => parameters (value :: items) [] .wanted rest
        | .row row :: outer => parameters items (.row (value :: row) :: outer) .wanted rest
        | .typed _ :: _ => stop [.rightParen] (t :: rest)
      | .rightParen =>
        match frames with
        | [] => .ok ((value :: items).reverse, rest)
        | .row row :: outer =>
          parameters items outer (.filled (.list (value :: row).reverse)) rest
        | .typed keyword :: outer => parameters items outer (.filled (.typed keyword value)) rest
      | _ => stop phase.expected (t :: rest)
    | .opened =>
      match t.lexeme with
      | .rightParen =>
        match frames with
        | [] => .ok (items.reverse, rest)
        | .row row :: outer => parameters items outer (.filled (.list row.reverse)) rest
        | .typed _ :: _ => stop phase.expected (t :: rest)
      | .leftParen => parameters items (.row [] :: frames) .opened rest
      | .keyword name => parameters items frames (.named name) rest
      | lexeme =>
        match literal? lexeme with
        | some value => parameters items frames (.filled value) rest
        | none => stop phase.expected (t :: rest)
    | .wanted =>
      match t.lexeme with
      | .leftParen => parameters items (.row [] :: frames) .opened rest
      | .keyword name => parameters items frames (.named name) rest
      | lexeme =>
        match literal? lexeme with
        | some value => parameters items frames (.filled value) rest
        | none => stop phase.expected (t :: rest)

/-- Reading parameters uses up tokens. -/
theorem parameters_length {items : List Parameter} {frames : List Frame} {phase : Phase}
    {ts : List Token} {value : List Parameter} {rest : List Token}
    (h : parameters items frames phase ts = .ok (value, rest)) : rest.length < ts.length := by
  fun_induction parameters items frames phase ts <;> grind [stop]

/-- The group whose keyword stands before the tokens. -/
def group (keyword : Text) (ts : List Token) : Answer Group :=
  match require .leftParen ts with
  | .error stop => .error stop
  | .ok inside =>
    match parameters [] [] .opened inside with
    | .error stop => .error stop
    | .ok (values, rest) => .ok (⟨keyword, values⟩, rest)

theorem require_length {k : LexemeKind} {ts rest : List Token} (h : require k ts = .ok rest) :
    rest.length < ts.length := by
  unfold require at h
  split at h
  · simp [stop] at h
  · split at h
    · cases h; simp
    · simp [stop] at h

/-- Reading a group uses up tokens. -/
theorem group_length {keyword : Text} {ts : List Token} {value : Group} {rest : List Token}
    (h : group keyword ts = .ok (value, rest)) : rest.length < ts.length := by
  unfold group at h
  split at h
  · simp at h
  · rename_i inside hreq
    split at h
    · simp at h
    · rename_i values more hpar
      cases h
      exact Nat.lt_trans (parameters_length hpar) (require_length hreq)

/-! ## Instances -/

/-- The classes that can follow a group somewhere. -/
def behindGroup : List Terminal := kinds [.keyword, .rightParen, .semicolon]

/-- The rest behind the semicolon that ends a record of one group. -/
def endOfSimple (ts : List Token) : Except Stop (List Token) :=
  match follow behindGroup (kinds [.semicolon]) ts with
  | .error stop => .error stop
  | .ok () => .ok (ts.drop 1)

/-- The parts of a complex record, behind its opening parenthesis and up to the
closing one.  `before` are the parts read so far, the last one first. -/
def parts (before : List Group) (ts : List Token) : Answer (List Group) :=
  match ts with
  | [] => stop [.keyword] []
  | t :: rest =>
    match t.lexeme with
    | .keyword name =>
      match _h : group name rest with
      | .error stop => .error stop
      | .ok (part, behind) =>
        match follow behindGroup (kinds [.keyword, .rightParen]) behind with
        | .error stop => .error stop
        | .ok () =>
          match behind with
          | [] => stop [.keyword, .rightParen] []
          | next :: more =>
            if next.kind = .rightParen then .ok ((part :: before).reverse, more)
            else parts (part :: before) (next :: more)
    | _ => stop [.keyword] (t :: rest)
termination_by ts.length
decreasing_by
  have := group_length _h
  simp only [List.length_cons] at *
  omega

/-- The record of an instance whose name, the token `name`, stands before the
tokens. -/
def namedRecord (id : Nat) (name : Token) (ts : List Token) : Answer Record :=
  match require .equals ts with
  | .error stop => .error stop
  | .ok [] => stop [.keyword, .leftParen] []
  | .ok (t :: rest) =>
    match t.lexeme with
    | .keyword keyword =>
      match group keyword rest with
      | .error stop => .error stop
      | .ok (value, behind) =>
        match endOfSimple behind with
        | .error stop => .error stop
        | .ok more => .ok (⟨some id, .simple value, some name.offset, some name.line⟩, more)
    | .leftParen =>
      match parts [] rest with
      | .error stop => .error stop
      | .ok ([], more) => stop [.keyword] more
      | .ok (first :: others, behind) =>
        match require .semicolon behind with
        | .error stop => .error stop
        | .ok more =>
          .ok (⟨some id, .complex first others [], some name.offset, some name.line⟩, more)
    | _ => stop [.keyword, .leftParen] (t :: rest)

/-- The record without name whose keyword, the token `start`, stands before the
tokens. -/
def unnamedRecord (keyword : Text) (start : Token) (ts : List Token) : Answer Record :=
  match group keyword ts with
  | .error stop => .error stop
  | .ok (value, behind) =>
    match endOfSimple behind with
    | .error stop => .error stop
    | .ok more => .ok (⟨none, .simple value, some start.offset, some start.line⟩, more)

theorem parts_length {before : List Group} {ts : List Token} {value : List Group}
    {rest : List Token} (h : parts before ts = .ok (value, rest)) : rest.length < ts.length := by
  fun_induction parts before ts <;> grind [stop, → group_length]

theorem endOfSimple_length {ts rest : List Token} (h : endOfSimple ts = .ok rest) :
    rest.length ≤ ts.length := by
  unfold endOfSimple at h
  split at h
  · simp at h
  · cases h; simp

/-- Reading a named record uses up tokens. -/
theorem namedRecord_length {id : Nat} {name : Token} {ts : List Token} {value : Record}
    {rest : List Token} (h : namedRecord id name ts = .ok (value, rest)) :
    rest.length < ts.length := by
  unfold namedRecord at h
  split at h
  · simp at h
  · simp [stop] at h
  · rename_i t more hreq
    have hlt := require_length hreq
    simp only [List.length_cons] at hlt
    split at h
    · split at h
      · simp at h
      · rename_i hgroup
        split at h
        · simp at h
        · rename_i hend
          cases h
          have := group_length hgroup
          have := endOfSimple_length hend
          omega
    · split at h
      · simp at h
      · simp [stop] at h
      · rename_i hparts
        split at h
        · simp at h
        · rename_i hsemi
          cases h
          have := parts_length hparts
          have := require_length hsemi
          omega
    · simp [stop] at h

/-- Reading a record without name uses up tokens. -/
theorem unnamedRecord_length {keyword : Text} {start : Token} {ts : List Token} {value : Record}
    {rest : List Token} (h : unnamedRecord keyword start ts = .ok (value, rest)) :
    rest.length < ts.length := by
  unfold unnamedRecord at h
  split at h
  · simp at h
  · rename_i hgroup
    split at h
    · simp at h
    · rename_i hend
      cases h
      have := group_length hgroup
      have := endOfSimple_length hend
      omega

/-! ## Sections -/

/-- The instances up to a token that starts none.  `before` are those read so
far, the last one first; `anywhere` and `here` are what can follow an instance. -/
def instances (anywhere here : List Terminal) (before : List Record) (ts : List Token) :
    Answer (List Record) :=
  match ts with
  | [] => .ok (before.reverse, [])
  | t :: rest =>
    match t.lexeme with
    | .entityName id =>
      match _h : namedRecord id t rest with
      | .error stop => .error stop
      | .ok (record, more) =>
        match follow anywhere here more with
        | .error stop => .error stop
        | .ok () => instances anywhere here (record :: before) more
    | _ => .ok (before.reverse, t :: rest)
termination_by ts.length
decreasing_by
  have := namedRecord_length _h
  simp only [List.length_cons]
  omega

/-- What can follow inside a section: another instance or its end. -/
def inSection : List Terminal := kinds [.endSection, .entityName]

/-- The parameters of a section, behind the word that opens it and up to the
semicolon. -/
def sectionParameters (ts : List Token) : Answer (List Parameter) :=
  match ts with
  | [] => stop [.leftParen, .semicolon] []
  | t :: rest =>
    match t.lexeme with
    | .semicolon => .ok ([], rest)
    | .leftParen =>
      match parameters [] [] .wanted rest with
      | .error stop => .error stop
      | .ok (values, behind) =>
        match require .semicolon behind with
        | .error stop => .error stop
        | .ok more => .ok (values, more)
    | _ => stop [.leftParen, .semicolon] (t :: rest)

/-- A section behind the word that opens it: its parameters and its records.
`anywhere` is what can follow an instance. -/
def dataSection (anywhere : List Terminal) (ts : List Token) :
    Answer (List Parameter × List Record) :=
  match sectionParameters ts with
  | .error stop => .error stop
  | .ok (values, inside) =>
    match follow inSection inSection inside with
    | .error stop => .error stop
    | .ok () =>
      match instances anywhere inSection [] inside with
      | .error stop => .error stop
      | .ok (records, behind) =>
        match require .endSection behind with
        | .error stop => .error stop
        | .ok closing =>
          match require .semicolon closing with
          | .error stop => .error stop
          | .ok more => .ok ((values, records), more)

theorem sectionParameters_length {ts : List Token} {values : List Parameter} {rest : List Token}
    (h : sectionParameters ts = .ok (values, rest)) : rest.length < ts.length := by
  unfold sectionParameters at h
  split at h
  · simp [stop] at h
  · split at h
    · cases h; simp
    · split at h
      · simp at h
      · rename_i hpar
        split at h
        · simp at h
        · rename_i hsemi
          cases h
          have := parameters_length hpar
          have := require_length hsemi
          simp only [List.length_cons]
          omega
    · simp [stop] at h

theorem instances_length {anywhere here : List Terminal} {before : List Record}
    {ts : List Token} {value : List Record} {rest : List Token}
    (h : instances anywhere here before ts = .ok (value, rest)) : rest.length ≤ ts.length := by
  fun_induction instances anywhere here before ts <;> grind [→ namedRecord_length]

/-- Reading a section uses up tokens. -/
theorem dataSection_length {anywhere : List Terminal} {ts : List Token}
    {value : List Parameter × List Record} {rest : List Token}
    (h : dataSection anywhere ts = .ok (value, rest)) : rest.length < ts.length := by
  unfold dataSection at h
  split at h
  · simp at h
  · rename_i hpar
    split at h
    · simp at h
    · split at h
      · simp at h
      · rename_i hinst
        split at h
        · simp at h
        · rename_i hend
          split at h
          · simp at h
          · rename_i hsemi
            cases h
            have := sectionParameters_length hpar
            have := instances_length hinst
            have := require_length hend
            have := require_length hsemi
            omega

/-! ## Headers -/

/-- The records of a header up to the word that closes it.  `before` are those
read so far, the last one first. -/
def headerRecords (before : List Record) (ts : List Token) : Answer (List Record) :=
  match ts with
  | [] => stop [.endSection, .keyword] []
  | t :: rest =>
    match t.lexeme with
    | .keyword keyword =>
      match _h : unnamedRecord keyword t rest with
      | .error stop => .error stop
      | .ok (record, more) => headerRecords (record :: before) more
    | .endSection => .ok (before.reverse, rest)
    | _ => stop [.endSection, .keyword] (t :: rest)
termination_by ts.length
decreasing_by
  have := unnamedRecord_length _h
  simp only [List.length_cons]
  omega

/-- A header with the words around it. -/
def header (ts : List Token) : Answer Header :=
  match require .header ts with
  | .error stop => .error stop
  | .ok opening =>
    match require .semicolon opening with
    | .error stop => .error stop
    | .ok inside =>
      match headerRecords [] inside with
      | .error stop => .error stop
      | .ok (records, closing) =>
        match require .semicolon closing with
        | .error stop => .error stop
        | .ok more => .ok (⟨records⟩, more)

end Reader

end Part21
