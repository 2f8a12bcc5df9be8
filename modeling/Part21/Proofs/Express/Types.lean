import Part21.Express.Reader
import Part21.Proofs.Express.Cutting
import Part21.Proofs.Express.Spelling

set_option autoImplicit false

/-!
# Reading types

From tokens that carry the spelling of a type the reader gets that type, and it stops behind them.
`Reads` says this of any reader; what may come behind a type decides whether a width, a bound or a
modifier is still to follow, so the lemmas name what stands there.

Aggregates are opened one after another and closed around the innermost element type, with one unit
of fuel for each.  The main statement is `Reader.reads_baseType`.
-/

namespace Part21

namespace Express

/-! ## Tokens that carry lexemes -/

namespace Token

theorem Carry.length {ts : List Token} {ls : List Lexeme} (h : Carry ts ls) :
    ts.length = ls.length := by
  rw [← h, List.length_map]

theorem Carry.cons {ts : List Token} {l : Lexeme} {ls : List Lexeme} (h : Carry ts (l :: ls)) :
    ∃ t rest, ts = t :: rest ∧ t.lexeme.inCapitals = l ∧ Carry rest ls :=
  List.map_eq_cons_iff.mp h

/-- Only a reserved word may differ from the lexeme that is carried. -/
theorem Carry.plain {ts : List Token} {l : Lexeme} {ls : List Lexeme} (h : Carry ts (l :: ls))
    (hl : ∀ w spelling, l ≠ .word w spelling) :
    ∃ offset line rest, ts = ⟨l, offset, line⟩ :: rest ∧ Carry rest ls := by
  obtain ⟨⟨own, offset, line⟩, rest, rfl, rfl, hrest⟩ := h.cons
  refine ⟨offset, line, rest, ?_, hrest⟩
  cases own with
  | word w spelling => exact absurd rfl (hl w w.name)
  | _ => rfl

theorem Carry.sign {ts : List Token} {s : Sign} {ls : List Lexeme} (h : Carry ts (.sign s :: ls)) :
    ∃ offset line rest, ts = ⟨.sign s, offset, line⟩ :: rest ∧ Carry rest ls :=
  h.plain nofun

theorem Carry.identifier {ts : List Token} {name : Text} {ls : List Lexeme}
    (h : Carry ts (.identifier name :: ls)) :
    ∃ offset line rest, ts = ⟨.identifier name, offset, line⟩ :: rest ∧ Carry rest ls :=
  h.plain nofun

theorem Carry.number {ts : List Token} {n : Nat} {ls : List Lexeme}
    (h : Carry ts (.number n :: ls)) :
    ∃ offset line rest, ts = ⟨.number n, offset, line⟩ :: rest ∧ Carry rest ls :=
  h.plain nofun

theorem Carry.expression {ts : List Token} {text : Text} {ls : List Lexeme}
    (h : Carry ts (.expression text :: ls)) :
    ∃ offset line rest, ts = ⟨.expression text, offset, line⟩ :: rest ∧ Carry rest ls :=
  h.plain nofun

theorem Carry.reserved {ts : List Token} {w : Word} {ls : List Lexeme}
    (h : Carry ts (.reserved w :: ls)) :
    ∃ spelling offset line rest, ts = ⟨.word w spelling, offset, line⟩ :: rest ∧
      Carry rest ls := by
  obtain ⟨⟨own, offset, line⟩, rest, rfl, hown, hrest⟩ := h.cons
  cases own with
  | word v spelling =>
    obtain ⟨rfl, -⟩ := Lexeme.word.inj hown
    exact ⟨spelling, offset, line, rest, rfl, hrest⟩
  | _ => cases hown

end Token

open Part21.Express.Token (Carry)

namespace Reader

/-- From tokens that carry the lexemes, and others behind them, the reader gets the value, and it
stops in front of the others. -/
def Reads {α : Type} (reader : List Token → Answer α) (ls : List Lexeme) (value : α)
    (behind : List Lexeme) : Prop :=
  ∀ ts, Carry ts (ls ++ behind) → ∃ rest, reader ts = .ok (value, rest) ∧ Carry rest behind

/-- The same for a reader without a value. -/
def Passes (reader : List Token → Except (List Token) (List Token)) (ls behind : List Lexeme) :
    Prop :=
  ∀ ts, Carry ts (ls ++ behind) → ∃ rest, reader ts = .ok rest ∧ Carry rest behind

/-! ## Single lexemes -/

variable {behind : List Lexeme} {ts : List Token}

theorem passes_sign {s : Sign} (hts : Carry ts (.sign s :: behind)) :
    ∃ rest, sign s ts = .ok rest ∧ Carry rest behind := by
  obtain ⟨offset, line, rest, rfl, hrest⟩ := hts.sign
  exact ⟨rest, if_pos rfl, hrest⟩

theorem isWord_self (w : Word) (spelling : Text) (offset line : Nat) :
    isWord w ⟨.word w spelling, offset, line⟩ = true := decide_eq_true rfl

theorem passes_word {w : Word} (hts : Carry ts (.reserved w :: behind)) :
    ∃ rest, word w ts = .ok rest ∧ Carry rest behind := by
  obtain ⟨spelling, offset, line, rest, rfl, hrest⟩ := hts.reserved
  exact ⟨rest, if_pos (isWord_self w spelling offset line), hrest⟩

theorem reads_identifier {name : Text} (hts : Carry ts (.identifier name :: behind)) :
    ∃ rest, identifier ts = .ok (name, rest) ∧ Carry rest behind := by
  obtain ⟨offset, line, rest, rfl, hrest⟩ := hts.identifier
  exact ⟨rest, rfl, hrest⟩

theorem reads_number {n : Nat} (hts : Carry ts (.number n :: behind)) :
    ∃ rest, number ts = .ok (n, rest) ∧ Carry rest behind := by
  obtain ⟨offset, line, rest, rfl, hrest⟩ := hts.number
  exact ⟨rest, rfl, hrest⟩

theorem passes_expression {text : Text} (hts : Carry ts (.expression text :: behind)) :
    ∃ rest, expression ts = .ok rest ∧ Carry rest behind := by
  obtain ⟨offset, line, rest, rfl, hrest⟩ := hts.expression
  exact ⟨rest, rfl, hrest⟩

theorem skipWord_self (w : Word) (spelling : Text) (offset line : Nat) (rest : List Token) :
    skipWord w (⟨.word w spelling, offset, line⟩ :: rest) = rest :=
  if_pos (isWord_self w spelling offset line)

theorem isWord_of_ne {w : Word} {t : Token} (h : t.lexeme.inCapitals ≠ .reserved w) :
    isWord w t = false := by
  unfold isWord
  split
  · rename_i v spelling hlexeme
    refine decide_eq_false ?_
    rintro rfl
    rw [hlexeme] at h
    exact h rfl
  · rfl

/-- A word that does not come next is not skipped. -/
theorem skipWord_of_ne {w : Word} {ls : List Lexeme} (hts : Carry ts ls)
    (hls : ∀ l ∈ ls.head?, l ≠ .reserved w) : skipWord w ts = ts := by
  cases ts with
  | nil => rfl
  | cons t rest =>
    have hhead : t.lexeme.inCapitals ≠ .reserved w := hls _ (by rw [← hts]; rfl)
    exact if_neg (by rw [isWord_of_ne hhead]; exact Bool.false_ne_true)

/-! ## Rows of names -/

theorem row_singleton (name : Text) : row [name] = [.identifier name] := rfl

theorem row_cons_cons (first second : Text) (rest : List Text) :
    row (first :: second :: rest) = .identifier first :: .sign .comma :: row (second :: rest) :=
  rfl

/-- A row starts with an identifier. -/
theorem row_head {names : List Text} (hnames : names ≠ []) :
    ∃ name more, row names = .identifier name :: more := by
  obtain ⟨name, rest, rfl⟩ := List.exists_cons_of_ne_nil hnames
  cases rest with
  | nil => exact ⟨name, _, row_singleton name⟩
  | cons second rest => exact ⟨name, _, row_cons_cons name second rest⟩

theorem reads_identifiers {names : List Text} (hnames : names ≠ [])
    (hbehind : ∀ l ∈ behind.head?, l ≠ .sign .comma) :
    Reads identifiers (row names) names behind := by
  induction names with
  | nil => exact absurd rfl hnames
  | cons name others ih =>
    intro ts hts
    cases others with
    | nil =>
      rw [row_singleton, List.singleton_append] at hts
      obtain ⟨offset, line, rest, rfl, hrest⟩ := hts.identifier
      refine ⟨rest, ?_, hrest⟩
      rw [identifiers.eq_def]
      dsimp only
      split
      · exact absurd rfl (hbehind (.sign .comma) (by rw [← hrest]; rfl))
      · rfl
    | cons second others =>
      rw [row_cons_cons, List.cons_append, List.cons_append] at hts
      obtain ⟨_, _, comma, rfl, hcomma⟩ := hts.identifier
      obtain ⟨_, _, more, rfl, hmore⟩ := hcomma.sign
      obtain ⟨rest, hread, hrest⟩ := ih (List.cons_ne_nil _ _) more hmore
      refine ⟨rest, ?_, hrest⟩
      rw [identifiers.eq_def]
      dsimp only
      rw [hread]

theorem reads_identifierList {names : List Text} (hnames : names ≠ []) :
    Reads identifierList (inParens (row names)) names behind := by
  intro ts hts
  rw [inParens, List.cons_append, List.append_assoc] at hts
  obtain ⟨inside, hopen, hinside⟩ := passes_sign hts
  obtain ⟨closing, hread, hclosing⟩ := reads_identifiers hnames (by simp) inside hinside
  obtain ⟨rest, hclose, hrest⟩ := passes_sign hclosing
  refine ⟨rest, ?_, hrest⟩
  rw [identifierList, hopen]
  dsimp only
  rw [hread]
  dsimp only
  rw [hclose]

/-! ## Types -/

/-- What comes behind a type: a semicolon or the expression of a derived attribute. -/
inductive EndsType : List Lexeme → Prop
  | semicolon {more : List Lexeme} : EndsType (.sign .semicolon :: more)
  | expression {text : Text} {more : List Lexeme} : EndsType (.expression text :: more)

theorem EndsType.ne_reserved (h : EndsType behind) (w : Word) :
    ∀ l ∈ behind.head?, l ≠ .reserved w := by
  cases h <;> exact fun l hl => by cases hl; nofun

theorem passes_width {fixable : Bool} {ls : List Lexeme} (h : SpellsWidth fixable ls)
    (hbehind : EndsType behind) : Passes (width fixable) ls behind := by
  intro ts hts
  cases h with
  | absent =>
    refine ⟨ts, ?_, hts⟩
    cases hbehind with
    | semicolon =>
      obtain ⟨offset, line, rest, rfl, -⟩ := Carry.sign hts
      rfl
    | expression =>
      obtain ⟨offset, line, rest, rfl, -⟩ := Carry.expression hts
      rfl
  | varying =>
    obtain ⟨offset, line, inside, rfl, hinside⟩ := hts.sign
    obtain ⟨closing, hread, hclosing⟩ := reads_number hinside
    obtain ⟨rest, hclose, hrest⟩ := passes_sign hclosing
    refine ⟨rest, ?_, hrest⟩
    rw [width, hread]
    dsimp only
    rw [hclose]
    dsimp only
    rw [skipWord_of_ne hrest (hbehind.ne_reserved _), ite_self]
  | fixed =>
    obtain ⟨offset, line, inside, rfl, hinside⟩ := hts.sign
    obtain ⟨closing, hread, hclosing⟩ := reads_number hinside
    obtain ⟨last, hclose, hlast⟩ := passes_sign hclosing
    obtain ⟨spelling, offset', line', rest, rfl, hrest⟩ := hlast.reserved
    refine ⟨rest, ?_, hrest⟩
    rw [width, hread]
    dsimp only
    rw [hclose]
    dsimp only
    rw [skipWord_self, if_pos rfl]

theorem reads_bounds {lower : Int} {upper : Option Int} {ls : List Lexeme}
    (h : SpellsBounds lower upper ls) :
    Reads bounds ls (lower, upper) (.reserved .ofWord :: behind) := by
  intro ts hts
  cases h with
  | absent =>
    obtain ⟨spelling, offset, line, rest, rfl, -⟩ := Carry.reserved hts
    exact ⟨_, rfl, hts⟩
  | closed =>
    obtain ⟨_, _, inside, rfl, hinside⟩ := hts.sign
    obtain ⟨colon, hlower, hcolon⟩ := reads_number hinside
    obtain ⟨greatest, hpass, hgreatest⟩ := passes_sign hcolon
    obtain ⟨_, _, closing, rfl, hclosing⟩ := hgreatest.number
    obtain ⟨rest, hclose, hrest⟩ := passes_sign hclosing
    refine ⟨rest, ?_, hrest⟩
    rw [bounds, hlower]
    dsimp only
    rw [hpass]
    dsimp only [number]
    rw [hclose]
  | unlimited =>
    obtain ⟨_, _, inside, rfl, hinside⟩ := hts.sign
    obtain ⟨colon, hlower, hcolon⟩ := reads_number hinside
    obtain ⟨greatest, hpass, hgreatest⟩ := passes_sign hcolon
    obtain ⟨_, _, closing, rfl, hclosing⟩ := hgreatest.sign
    obtain ⟨rest, hclose, hrest⟩ := passes_sign hclosing
    refine ⟨rest, ?_, hrest⟩
    rw [bounds, hlower]
    dsimp only
    rw [hpass]
    dsimp only
    rw [hclose]

/-- The words that start no type of an attribute or an element. -/
def otherWords : List Word := [.optionalWord, .uniqueWord, .enumerationWord, .selectWord]

/-- The first word of a simple type says which one it is, and whether a width may follow. -/
theorem spellsSimple_head {type : SimpleType} {ls : List Lexeme} (h : SpellsSimple type ls) :
    ∃ w width, ls = .reserved w :: width ∧ w ∉ otherWords ∧ aggregateKind? w = none ∧
      ((simpleType? w = some (type, none) ∧ width = []) ∨
        ∃ fixable, simpleType? w = some (type, some fixable) ∧ SpellsWidth fixable width) := by
  cases h with
  | real hwidth => exact ⟨_, _, rfl, by decide, rfl, .inr ⟨_, rfl, hwidth⟩⟩
  | string hwidth => exact ⟨_, _, rfl, by decide, rfl, .inr ⟨_, rfl, hwidth⟩⟩
  | binary hwidth => exact ⟨_, _, rfl, by decide, rfl, .inr ⟨_, rfl, hwidth⟩⟩
  | _ => exact ⟨_, _, rfl, by decide, rfl, .inl ⟨rfl, rfl⟩⟩

theorem spellsType_head {type : TypeDef} {ls : List Lexeme} (h : SpellsType type ls) :
    ∃ l more, ls = l :: more ∧ ∀ w ∈ otherWords, l ≠ .reserved w := by
  have hreserved : ∀ v : Word, v ∉ otherWords → ∀ w ∈ otherWords,
      Lexeme.reserved v ≠ .reserved w := by
    rintro v hv w hw hsame
    obtain ⟨rfl, -⟩ := Lexeme.word.inj hsame
    exact hv hw
  cases h with
  | simple htype =>
    obtain ⟨w, width, rfl, hw, -⟩ := spellsSimple_head htype
    exact ⟨_, _, rfl, hreserved w hw⟩
  | named => exact ⟨_, _, rfl, nofun⟩
  | @aggregate kind =>
    exact ⟨_, _, rfl, hreserved (kindWord kind) (by cases kind <;> decide)⟩

/-- Behind the modifiers of elements comes a type. -/
theorem skip_modifiers {modifiers : List Lexeme} (h : SpellsModifiers modifiers)
    (hbehind : ∀ l ∈ behind.head?, ∀ w ∈ otherWords, l ≠ .reserved w)
    (hts : Carry ts (modifiers ++ behind)) :
    Carry (skipWord .uniqueWord (skipWord .optionalWord ts)) behind := by
  have hunique : ∀ l ∈ behind.head?, l ≠ .reserved .uniqueWord := fun l hl =>
    hbehind l hl _ (by decide)
  have hoptional : ∀ l ∈ behind.head?, l ≠ .reserved .optionalWord := fun l hl =>
    hbehind l hl _ (by decide)
  cases h with
  | absent =>
    rw [skipWord_of_ne hts hoptional, skipWord_of_ne hts hunique]
    exact hts
  | unique =>
    have hfirst : ∀ l ∈ (Lexeme.reserved .uniqueWord :: behind).head?,
        l ≠ .reserved .optionalWord := fun l hl => by cases hl; decide
    rw [skipWord_of_ne hts hfirst]
    obtain ⟨spelling, offset, line, rest, rfl, hrest⟩ := hts.reserved
    rw [skipWord_self]
    exact hrest
  | optional =>
    obtain ⟨spelling, offset, line, rest, rfl, hrest⟩ := hts.reserved
    rw [skipWord_self, skipWord_of_ne hrest hunique]
    exact hrest
  | both =>
    obtain ⟨_, _, _, last, rfl, hlast⟩ := hts.reserved
    rw [skipWord_self]
    obtain ⟨_, _, _, rest, rfl, hrest⟩ := hlast.reserved
    rw [skipWord_self]
    exact hrest

theorem reads_aggregateHead {lower : Int} {upper : Option Int} {bounds modifiers : List Lexeme}
    (hbounds : SpellsBounds lower upper bounds) (hmodifiers : SpellsModifiers modifiers)
    (hbehind : ∀ l ∈ behind.head?, ∀ w ∈ otherWords, l ≠ .reserved w) :
    Reads aggregateHead (bounds ++ .reserved .ofWord :: modifiers) (lower, upper) behind := by
  intro ts hts
  rw [List.append_assoc, List.cons_append] at hts
  obtain ⟨next, hread, hnext⟩ := reads_bounds hbounds ts hts
  obtain ⟨rest, hpass, hrest⟩ := passes_word hnext
  refine ⟨_, ?_, skip_modifiers hmodifiers hbehind hrest⟩
  rw [aggregateHead, hread]
  dsimp only
  rw [hpass]

/-- The element type with the aggregates around it, the innermost first. -/
def close (enclosing : List (AggregateKind × Int × Option Int)) (type : TypeDef) : TypeDef :=
  enclosing.foldl (fun inner a => .unnamedAggregate inner a.1 a.2.1 a.2.2) type

theorem aggregateKind?_kindWord (kind : AggregateKind) :
    aggregateKind? (kindWord kind) = some kind := by cases kind <;> rfl

theorem reads_baseTypeIn {type : TypeDef} {ls : List Lexeme} (h : SpellsType type ls)
    (hbehind : EndsType behind) {fuel : Nat} (hfuel : ls.length ≤ fuel)
    (enclosing : List (AggregateKind × Int × Option Int)) :
    Reads (baseTypeIn fuel enclosing) ls (close enclosing type) behind := by
  -- One lexeme at least, and one unit of fuel, is used by each step.
  induction h generalizing fuel enclosing with
  | @simple type ls htype =>
    intro ts hts
    obtain ⟨w, ls, rfl, -, hkind, hsimple⟩ := spellsSimple_head htype
    obtain ⟨spelling, offset, line, rest, rfl, hrest⟩ := hts.reserved
    cases fuel with
    | zero => cases hfuel
    | succ fuel =>
      rcases hsimple with ⟨hsimple, rfl⟩ | ⟨fixable, hsimple, hwidth⟩
      · refine ⟨rest, ?_, hrest⟩
        rw [baseTypeIn]
        dsimp only
        rw [hkind, hsimple]
        rfl
      · obtain ⟨rest, hpass, hrest⟩ := passes_width hwidth hbehind rest hrest
        refine ⟨rest, ?_, hrest⟩
        rw [baseTypeIn]
        dsimp only
        rw [hkind, hsimple]
        dsimp only
        rw [hpass]
        rfl
  | @named name =>
    intro ts hts
    obtain ⟨offset, line, rest, rfl, hrest⟩ := hts.identifier
    cases fuel with
    | zero => cases hfuel
    | succ fuel => exact ⟨rest, rfl, hrest⟩
  | @aggregate kind lower upper element bounds modifiers ls hbounds hmodifiers helement ih =>
    intro ts hts
    obtain ⟨l, more, hls, hl⟩ := spellsType_head helement
    have hnext : ∀ m ∈ (ls ++ behind).head?, ∀ w ∈ otherWords, m ≠ .reserved w := by
      intro m hm
      rw [hls] at hm
      cases hm
      exact hl
    have hhead := reads_aggregateHead hbounds hmodifiers hnext
    obtain ⟨spelling, offset, line, rest, rfl, hrest⟩ := hts.reserved
    cases fuel with
    | zero => cases hfuel
    | succ fuel =>
      obtain ⟨inside, hread, hinside⟩ := hhead rest (by simpa using hrest)
      have hinner : ls.length ≤ fuel := by
        simp only [List.length_cons, List.length_append] at hfuel
        omega
      obtain ⟨rest, helements, hrest⟩ :=
        ih hinner ((kind, lower, upper) :: enclosing) inside hinside
      refine ⟨rest, ?_, hrest⟩
      rw [baseTypeIn]
      dsimp only
      rw [aggregateKind?_kindWord]
      dsimp only
      rw [hread]
      exact helements

/-- A type is read from its spellings. -/
theorem reads_baseType {type : TypeDef} {ls : List Lexeme} (h : SpellsType type ls)
    (hbehind : EndsType behind) : Reads baseType ls type behind := by
  intro ts hts
  have hfuel : ls.length ≤ ts.length + 1 := by
    rw [hts.length, List.length_append]
    omega
  exact reads_baseTypeIn h hbehind hfuel [] ts hts

end Reader

end Express

end Part21
