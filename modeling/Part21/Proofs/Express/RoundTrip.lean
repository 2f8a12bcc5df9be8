import Part21.Proofs.Express.Declarations
import Part21.Proofs.Express.Registration

set_option autoImplicit false

/-!
# Schemas are read back from their texts

However declarations are spelled and laid out, reading the text gives the registry in which they
are registered one after another, if that registry is valid.  Names of declarations are no
reserved words, so none of them is the name of a simple type, and all declarations can be
registered if no two of them have the same name.  The main statement is
`Registry.ofExpress_laid`.

Numbers of many digits are not read, so a bound that large has no spelling that is read back,
`Registry.not_ofExpress_of_large`.
-/

namespace Part21

namespace Express

/-! ## Names of declarations -/

/-- Identifiers that are laid out are no reserved words. -/
theorem Laid.plain_of_mem {limit : Nat} {ls : List Lexeme} {t : Text} (h : Laid limit ls t)
    {name : Text} (hname : .identifier name ∈ ls) (w : Word) : name.upper ≠ w.name := by
  induction h with
  | nil => cases hname
  | lineComment => cases hname
  | cons hword _ _ _ ih =>
    rcases List.mem_cons.mp hname with rfl | hrest
    · cases hword with
      | identifier _ hplain => exact hplain w
    · exact ih hrest

theorem spellsBody_name {name : Text} {declared : TypeDef} {ls : List Lexeme}
    (h : SpellsBody name declared ls) : declared.name = name := by
  cases h <;> rfl

/-- The name of a declaration is one of its lexemes, and what is declared is no bare reference. -/
theorem spellsDeclaration_name {declared : TypeDef} {ls : List Lexeme}
    (h : SpellsDeclaration declared ls) :
    .identifier declared.name ∈ ls ∧ ∀ name, declared ≠ .ref name := by
  cases h with
  | type hbody =>
    refine ⟨by simp [spellsBody_name hbody], ?_⟩
    cases hbody <;> nofun
  | entity => exact ⟨by simp [TypeDef.name], nofun⟩

theorem spellsDeclarations_name {declared : List TypeDef} {ls : List Lexeme}
    (h : SpellsDeclarations declared ls) :
    ∀ d ∈ declared, .identifier d.name ∈ ls ∧ ∀ name, d ≠ .ref name := by
  induction h with
  | nil => exact List.forall_mem_nil _
  | cons hdeclared _ ih =>
    refine List.forall_mem_cons.mpr ⟨?_, fun d hd => ?_⟩
    · exact (spellsDeclaration_name hdeclared).imp_left (List.mem_append_left _)
    · exact (ih d hd).imp_left (List.mem_append_right _)

/-- The names of simple types are reserved words. -/
theorem simpleType_name_reserved (s : SimpleType) : ∃ w : Word, s.name = w.name := by
  cases s
  exacts [⟨.integerWord, rfl⟩, ⟨.realWord, rfl⟩, ⟨.numberWord, rfl⟩, ⟨.stringWord, rfl⟩,
    ⟨.booleanWord, rfl⟩, ⟨.logicalWord, rfl⟩, ⟨.binaryWord, rfl⟩]

/-! ## Reading a text -/

/-- The declarations of a schema are read from its layouts. -/
theorem declarations_laid {name : Text} {declared : List TypeDef} {ls : List Lexeme}
    {lead t : Text} (h : SpellsSchema name declared ls) (hlead : Separates lead)
    (ht : Laid Numeral.digitLimit ls t) : declarations (lead ++ t) = .ok (name, declared) := by
  obtain ⟨ts, hrun, hcarry⟩ := Token.run_laid ht (0 + lead.length) (1 + lead.lineFeeds)
  have htokens : Token.ofText (lead ++ t) = ⟨ts, none⟩ := by
    rw [Token.ofText, Token.run_separates hlead, hrun]
  obtain ⟨rest, hread, hrest⟩ :=
    @Reader.reads_schema [] _ _ _ h ts (by rw [List.append_nil]; exact hcarry)
  obtain rfl : rest = [] := List.map_eq_nil_iff.mp hrest
  simp only [declarations, htokens, hread]

/-- Nothing is read from a text in which no lexeme can be cut somewhere. -/
theorem declarations_of_stop {t : Text} (h : (Token.ofText t).stop ≠ none)
    (found : Text × List TypeDef) : declarations t ≠ .ok found := by
  intro hok
  unfold declarations at hok
  dsimp only at hok
  split at hok
  · cases hok
  · split at hok
    · cases hok
    · rename_i hnone
      exact h hnone
  · cases hok

/-! ## Large numbers -/

/-- Numbers that are laid out are as small as their digits are few. -/
theorem Laid.number_lt {limit : Nat} {ls : List Lexeme} {t : Text} (h : Laid limit ls t) {n : Nat}
    (hn : .number n ∈ ls) : n < 10 ^ limit := by
  induction h with
  | nil => cases hn
  | lineComment => cases hn
  | cons hword _ _ _ ih =>
    rcases List.mem_cons.mp hn with rfl | hrest
    · cases hword with
      | number _ hlimit =>
        exact Nat.lt_of_lt_of_le (Text.digitsValue_lt _) (Nat.pow_le_pow_right (by decide) hlimit)
    · exact ih hrest

end Express

namespace Registry

/-! ## The registry of a text -/

/-- A valid schema is read back from every layout of each of its spellings: the registry of the text
is the one in which the declarations are registered one after another. -/
theorem ofExpress_laid {name : Text} {declared : List TypeDef} {ls : List Express.Lexeme}
    {lead t : Text} (hspelled : Express.SpellsSchema name declared ls)
    (hlead : Express.Separates lead) (hlaid : Express.Laid Numeral.digitLimit ls t)
    (hdistinct : (declared.map TypeDef.key).Nodup) :
    ∃ r, (initial name).registerAll declared = .ok r ∧
      r.typeNames = SimpleType.all.map SimpleType.name ++ declared.map TypeDef.key ∧
      (∀ d ∈ declared, r.find? d.name = some d) ∧
      (ofExpress (lead ++ t) = .ok r ↔ r.validate = .ok ()) := by
  have hdeclared : ∀ d ∈ declared, .identifier d.name ∈ ls ∧ ∀ other, d ≠ .ref other := by
    cases hspelled with
    | mk hdeclared =>
      intro d hd
      refine (Express.spellsDeclarations_name hdeclared d hd).imp_left fun hmem => ?_
      simp [hmem]
  have hfresh : ∀ d ∈ declared, d.key ∉ (initial name).typeNames := by
    intro d hd hmem
    obtain ⟨entry, hentry, hkey⟩ := List.mem_map.mp hmem
    obtain ⟨s, -, rfl⟩ := List.mem_map.mp hentry
    obtain ⟨w, hw⟩ := Express.simpleType_name_reserved s
    exact hlaid.plain_of_mem (hdeclared d hd).1 w (hkey.symm.trans hw)
  obtain ⟨r, hr⟩ := registerAll_eq_ok (fun d hd => (hdeclared d hd).2) hfresh hdistinct
  have htypes := types_of_registerAll hr
  refine ⟨r, hr, ?_, fun d hd => ?_, ?_⟩
  · rw [typeNames, htypes, List.map_append, List.map_map]
    rfl
  · have hmem : (d.key, d) ∈ r.types := by
      rw [htypes]
      exact List.mem_append_right _ (List.mem_map_of_mem hd)
    exact find?_of_mem_types hmem
  · have hread := Express.declarations_laid hspelled hlead hlaid
    simp only [ofExpress, hread, hr]
    cases r.validate with
    | error fault => simp only [reduceCtorEq]
    | ok => exact iff_of_true rfl rfl

/-- An entity type with two attributes in one row, words in several letter cases, and comments. -/
theorem ofExpress_laid_point :
    ∃ r, (initial "S").registerAll
        [.entity ⟨"P", [⟨"x", .simple .real, false, false⟩, ⟨"y", .simple .real, false, false⟩], [],
          false, []⟩] = .ok r ∧
      ofExpress
        ("--points\n" ++ "schema S;(* (* *)Entity P;x,y:real;end_entity;--P\nEND_SCHEMA;--") =
        .ok r := by
  have hspelled : Express.SpellsSchema "S"
      [.entity ⟨"P", [⟨"x", .simple .real, false, false⟩, ⟨"y", .simple .real, false, false⟩], [],
        false, []⟩]
      [.reserved .schemaWord, .identifier "S", .sign .semicolon, .reserved .entityWord,
        .identifier "P", .sign .semicolon, .identifier "x", .sign .comma, .identifier "y",
        .sign .colon, .reserved .realWord, .sign .semicolon, .reserved .endEntityWord,
        .sign .semicolon, .reserved .endSchemaWord, .sign .semicolon] :=
    have hattributes := @Express.SpellsAttributes.cons ["x", "y"] _ false _ _ _ (by decide)
      (.simple (.real .absent)) .nil
    .mk (.cons (.entity .absent .absent hattributes .absent) .nil)
  have hlead : Express.Separates "--points\n" :=
    @Express.Separates.lineComment "points" [] (by decide) .nil
  have hblank : Express.Separates " " := .blank (by decide) .nil
  have hcomment : Express.Separates "(* (* *)" :=
    @Express.Separates.comment " (* " [] (by decide) .nil
  have hline : Express.Separates "--P\n" := @Express.Separates.lineComment "P" [] (by decide) .nil
  have hS : Express.Lexeme.Written Numeral.digitLimit (.identifier "S") "S" :=
    Express.Lexeme.written_identifier (.mk (by decide) (by decide)) (by decide)
  have hP : Express.Lexeme.Written Numeral.digitLimit (.identifier "P") "P" :=
    Express.Lexeme.written_identifier (.mk (by decide) (by decide)) (by decide)
  have hx : Express.Lexeme.Written Numeral.digitLimit (.identifier "x") "x" :=
    Express.Lexeme.written_identifier (.mk (by decide) (by decide)) (by decide)
  have hy : Express.Lexeme.Written Numeral.digitLimit (.identifier "y") "y" :=
    Express.Lexeme.written_identifier (.mk (by decide) (by decide)) (by decide)
  have hschema : Express.Lexeme.Written Numeral.digitLimit (.reserved .schemaWord) "schema" :=
    .reserved (.mk (by decide) (by decide)) (by decide)
  have hentity : Express.Lexeme.Written Numeral.digitLimit (.reserved .entityWord) "Entity" :=
    .reserved (.mk (by decide) (by decide)) (by decide)
  have hreal : Express.Lexeme.Written Numeral.digitLimit (.reserved .realWord) "real" :=
    .reserved (.mk (by decide) (by decide)) (by decide)
  have hend : Express.Lexeme.Written Numeral.digitLimit (.reserved .endEntityWord) "end_entity" :=
    .reserved (.mk (by decide) (by decide)) (by decide)
  have hsign : ∀ s : Express.Sign, Express.Lexeme.Written Numeral.digitLimit (.sign s)
      [s.spelling] := fun s => .sign
  have hlaid : Express.Laid Numeral.digitLimit _
      "schema S;(* (* *)Entity P;x,y:real;end_entity;--P\nEND_SCHEMA;--" :=
    .cons hschema hblank (.cons rfl) <| .next hS (.cons rfl) <|
    .cons (hsign .semicolon) hcomment (.cons rfl) <| .cons hentity hblank (.cons rfl) <|
    .next hP (.cons rfl) <| .next (hsign .semicolon) (.cons rfl) <| .next hx (.cons rfl) <|
    .next (hsign .comma) (.cons rfl) <| .next hy (.cons rfl) <|
    .next (hsign .colon) (.cons rfl) <| .next hreal (.cons rfl) <|
    .next (hsign .semicolon) (.cons rfl) <| .next hend (.cons rfl) <|
    .cons (hsign .semicolon) hline (.cons rfl) <|
    .next (Express.Lexeme.written_word .endSchemaWord) (.cons rfl) <|
    .next (hsign .semicolon) (.cons rfl) (@Express.Laid.lineComment _ [] (by decide))
  obtain ⟨r, hr, -, -, hread⟩ := ofExpress_laid hspelled hlead hlaid (by decide)
  refine ⟨r, hr, hread.mpr ?_⟩
  obtain rfl := Except.ok.inj hr
  rfl

/-- A number with more digits than are read has no spelling that is read. -/
theorem not_ofExpress_of_large {limit : Nat} {ls : List Express.Lexeme} {t : Text}
    (h : Express.Laid limit ls t) {n : Nat} (hn : .number n ∈ ls)
    (hlarge : 10 ^ Numeral.digitLimit ≤ n) (r : Registry) : ofExpress t ≠ .ok r := by
  have hstop : (Express.Token.ofText t).stop ≠ none := by
    rcases Express.Token.run_overlong h 0 1 with hshort | ⟨count, place, hstop⟩
    · exact absurd (hshort.number_lt hn) (Nat.not_lt.mpr hlarge)
    · rw [Express.Token.ofText, hstop]
      nofun
  unfold ofExpress
  split
  · nofun
  · rename_i hread
    exact absurd hread (Express.declarations_of_stop hstop _)

/-- The declaration of a list of reals with a least number of elements. -/
def boundedList (lower : Nat) : List TypeDef :=
  [.defined "a" (.unnamedAggregate (.simple .real) .list lower none)]

/-- Such a list is valid whatever the bound, but with a bound of too many digits no text of its
schema is read. -/
theorem not_ofExpress_boundedList {lower : Nat} (hlarge : 10 ^ Numeral.digitLimit ≤ lower) :
    (∃ limit ls, Express.SpellsSchema "s" (boundedList lower) ls ∧ Express.Laid limit ls
      ("SCHEMA s;TYPE a=LIST[" ++ (Text.ofNat lower ++ ":?]OF REAL;END_TYPE;END_SCHEMA;"))) ∧
    ((boundedList lower).map TypeDef.key).Nodup ∧
    (∃ r, (initial "s").registerAll (boundedList lower) = .ok r ∧ r.validate = .ok ()) ∧
    ∀ r, ofExpress
      ("SCHEMA s;TYPE a=LIST[" ++ (Text.ofNat lower ++ ":?]OF REAL;END_TYPE;END_SCHEMA;")) ≠
        .ok r := by
  have hspelled : Express.SpellsSchema "s" (boundedList lower)
      [.reserved .schemaWord, .identifier "s", .sign .semicolon, .reserved .typeWord,
        .identifier "a", .sign .equals, .reserved .listWord, .sign .leftBracket, .number lower,
        .sign .colon, .sign .question, .sign .rightBracket, .reserved .ofWord, .reserved .realWord,
        .sign .semicolon, .reserved .endTypeWord, .sign .semicolon, .reserved .endSchemaWord,
        .sign .semicolon] :=
    .mk (.cons (.type (.defined (.aggregate .unlimited .absent (.simple (.real .absent))))) .nil)
  have hblank : Express.Separates " " := .blank (by decide) .nil
  have hnumber : Express.Lexeme.Written (Text.ofNat lower).length (.number lower)
      (Text.ofNat lower) := by
    have hform := Express.Lexeme.Written.number (Text.isNumeral_ofNat lower) (Nat.le_refl _)
    rwa [Text.digitsValue_ofNat] at hform
  have hword : ∀ w : Express.Word, Express.Lexeme.Written (Text.ofNat lower).length (.reserved w)
      w.name := fun w => Express.Lexeme.written_word w
  have hs : Express.Lexeme.Written (Text.ofNat lower).length (.identifier "s") "s" :=
    Express.Lexeme.written_identifier (.mk (by decide) (by decide)) (by decide)
  have ha : Express.Lexeme.Written (Text.ofNat lower).length (.identifier "a") "a" :=
    Express.Lexeme.written_identifier (.mk (by decide) (by decide)) (by decide)
  have hsign : ∀ s : Express.Sign, Express.Lexeme.Written (Text.ofNat lower).length (.sign s)
      [s.spelling] := fun s => .sign
  have hlaid : Express.Laid (Text.ofNat lower).length _ (CodePoint.ofChar 'S' ::
      ("CHEMA s;TYPE a=LIST[" ++ (Text.ofNat lower ++ ":?]OF REAL;END_TYPE;END_SCHEMA;"))) :=
    .cons (hword .schemaWord) hblank (.cons rfl) <| .next hs (.cons rfl) <|
    .next (hsign .semicolon) (.cons rfl) <| .cons (hword .typeWord) hblank (.cons rfl) <|
    .next ha (.cons rfl) <| .next (hsign .equals) (.cons rfl) <|
    .next (hword .listWord) (.cons rfl) <|
    .next (hsign .leftBracket) (fun _ _ => rfl) <|
    .next hnumber (.cons rfl) <| .next (hsign .colon) (.cons rfl) <|
    .next (hsign .question) (.cons rfl) <| .next (hsign .rightBracket) (.cons rfl) <|
    .cons (hword .ofWord) hblank (.cons rfl) <| .next (hword .realWord) (.cons rfl) <|
    .next (hsign .semicolon) (.cons rfl) <| .next (hword .endTypeWord) (.cons rfl) <|
    .next (hsign .semicolon) (.cons rfl) <| .next (hword .endSchemaWord) (.cons rfl) <|
    .next (hsign .semicolon) (fun _ _ => rfl) .nil
  exact ⟨⟨_, _, hspelled, hlaid⟩, List.nodup_singleton _, ⟨_, rfl, rfl⟩,
    not_ofExpress_of_large hlaid (by simp) hlarge⟩

/-- The least bound that is too large. -/
theorem not_ofExpress_boundedList_pow :
    (∃ limit ls, Express.SpellsSchema "s" (boundedList (10 ^ Numeral.digitLimit)) ls ∧
      Express.Laid limit ls ("SCHEMA s;TYPE a=LIST[" ++
        (Text.ofNat (10 ^ Numeral.digitLimit) ++ ":?]OF REAL;END_TYPE;END_SCHEMA;"))) ∧
    ((boundedList (10 ^ Numeral.digitLimit)).map TypeDef.key).Nodup ∧
    (∃ r, (initial "s").registerAll (boundedList (10 ^ Numeral.digitLimit)) = .ok r ∧
      r.validate = .ok ()) ∧
    ∀ r, ofExpress ("SCHEMA s;TYPE a=LIST[" ++
      (Text.ofNat (10 ^ Numeral.digitLimit) ++ ":?]OF REAL;END_TYPE;END_SCHEMA;")) ≠ .ok r :=
  not_ofExpress_boundedList (Nat.le_refl _)

end Registry

end Part21
