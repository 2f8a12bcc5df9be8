import Mathlib.Computability.ContextFreeGrammar
import Part21.Exchange.Lexeme

set_option autoImplicit false

/-!
# The grammar of exchange structures

The phrases of an exchange structure with their rules, as a context-free grammar over the classes
of lexemes.  `Phrase.language` holds the rows of classes that are derived from a phrase.

The rules define the languages of the phrases by equations (`Phrase.language_eq`).  Where a rule
recurs on its left, what it defines is a row of phrases, and the equation is solved here
(`Language.eq_mul_kstar`).
-/

namespace Part21

/-! ## Rules -/

/-- The phrases that exchange structures are made of. -/
inductive Phrase where
  | exchangeFile
  | headerSection
  | headerRecords
  | headerRecord
  | dataSections
  | dataBlock
  | dataSection
  | dataOpening
  | entityInstances
  | record
  | entityInstance
  | simpleRecords
  | simpleRecord
  | parameterList
  | parameter
  deriving DecidableEq

namespace Phrase

/-- What stands on the right of a rule: classes of lexemes and phrases. -/
abbrev Form : Type := List (Symbol LexemeKind Phrase)

/-- A class of lexemes within a form. -/
abbrev word (kind : LexemeKind) : Symbol LexemeKind Phrase := .terminal kind

/-- A phrase within a form. -/
abbrev part (phrase : Phrase) : Symbol LexemeKind Phrase := .nonterminal phrase

/-- The forms that a phrase can take. -/
def forms : Phrase → List Form
  | exchangeFile =>
    [[word .opening, word .semicolon, part headerSection, part dataSections, word .closing,
      word .semicolon]]
  | headerSection =>
    [[word .header, word .semicolon, part headerRecords, word .endSection, word .semicolon]]
  | headerRecords => [[], [part headerRecords, part headerRecord]]
  | headerRecord => [[part simpleRecord, word .semicolon]]
  | dataSections => [[], [part dataSections, part dataSection]]
  | dataBlock => [[part dataSection], [part entityInstances]]
  | dataSection =>
    [[part dataOpening, part entityInstances, word .endSection, word .semicolon]]
  | dataOpening =>
    [[word .data, word .semicolon],
      [word .data, word .leftParen, part parameterList, word .rightParen, word .semicolon]]
  | entityInstances => [[], [part entityInstances, part entityInstance]]
  | record => [[part entityInstance], [part headerRecord]]
  | entityInstance =>
    [[word .entityName, word .equals, part simpleRecord, word .semicolon],
      [word .entityName, word .equals, word .leftParen, part simpleRecords, word .rightParen,
        word .semicolon]]
  | simpleRecords => [[part simpleRecord], [part simpleRecords, part simpleRecord]]
  | simpleRecord =>
    [[word .keyword, word .leftParen, part parameterList, word .rightParen],
      [word .keyword, word .leftParen, word .rightParen]]
  | parameterList => [[part parameter], [part parameterList, word .comma, part parameter]]
  | parameter =>
    [[word .integer], [word .real], [word .string], [word .enumeration], [word .binary],
      [word .entityName], [word .dollar], [word .star],
      [word .leftParen, part parameterList, word .rightParen],
      [word .leftParen, word .rightParen],
      [word .keyword, word .leftParen, part parameter, word .rightParen]]

/-- All phrases. -/
def all : List Phrase :=
  [exchangeFile, headerSection, headerRecords, headerRecord, dataSections, dataBlock, dataSection,
    dataOpening, entityInstances, record, entityInstance, simpleRecords, simpleRecord,
    parameterList, parameter]

theorem mem_all (phrase : Phrase) : phrase ∈ all := by
  cases phrase <;> decide

/-- The rules: each phrase can take each of its forms. -/
def rules : Finset (ContextFreeRule LexemeKind Phrase) :=
  (all.flatMap fun phrase => phrase.forms.map (ContextFreeRule.mk phrase)).toFinset

theorem mem_rules {r : ContextFreeRule LexemeKind Phrase} :
    r ∈ rules ↔ r.output ∈ r.input.forms := by
  obtain ⟨input, output⟩ := r
  simp only [rules, List.mem_toFinset, List.mem_flatMap, List.mem_map, ContextFreeRule.mk.injEq]
  constructor
  · rintro ⟨_, _, _, hmem, rfl, rfl⟩
    exact hmem
  · exact fun hmem => ⟨input, mem_all input, output, hmem, rfl, rfl⟩

/-- The grammar of a phrase.  All phrases have the same rules. -/
abbrev grammar (start : Phrase) : ContextFreeGrammar LexemeKind := ⟨Phrase, start, rules⟩

/-- The rows of classes that are derived from a phrase. -/
def language (phrase : Phrase) : Language LexemeKind := phrase.grammar.language

/-- A form is derived from a form.  The phrase that the grammar starts with does not matter. -/
def Derives (form result : Form) : Prop := (grammar exchangeFile).Derives form result

end Phrase

/-! ## Words of forms -/

section Yield

variable {T : Type} {g : ContextFreeGrammar T}

theorem rewrites_append {N : Type} {r : ContextFreeRule T N} {u v z : List (Symbol T N)}
    (h : r.Rewrites (u ++ v) z) :
    (∃ u', r.Rewrites u u' ∧ z = u' ++ v) ∨ ∃ v', r.Rewrites v v' ∧ z = u ++ v' := by
  induction u generalizing z with
  | nil => exact .inr ⟨z, h, rfl⟩
  | cons x rest ih =>
    cases h with
    | head => exact .inl ⟨_, .head rest, by simp⟩
    | cons _ hrest =>
      rcases ih hrest with ⟨u', hu, rfl⟩ | ⟨v', hv, rfl⟩
      · exact .inl ⟨x :: u', .cons x hu, rfl⟩
      · exact .inr ⟨v', hv, rfl⟩

/-- The two parts of a form are rewritten apart. -/
theorem exists_of_derives_append {u v z : List (Symbol T g.NT)} (h : g.Derives (u ++ v) z) :
    ∃ x y, z = x ++ y ∧ g.Derives u x ∧ g.Derives v y := by
  induction h with
  | refl => exact ⟨u, v, rfl, .refl u, .refl v⟩
  | tail _ hstep ih =>
    obtain ⟨x, y, rfl, hx, hy⟩ := ih
    obtain ⟨r, hr, hrewrites⟩ := hstep
    rcases rewrites_append hrewrites with ⟨x', hx', rfl⟩ | ⟨y', hy', rfl⟩
    · exact ⟨x', y, rfl, hx.tail ⟨r, hr, hx'⟩, hy⟩
    · exact ⟨x, y', rfl, hx, hy.tail ⟨r, hr, hy'⟩⟩

/-- The words that are derived from a form. -/
def yield (g : ContextFreeGrammar T) (form : List (Symbol T g.NT)) : Language T :=
  {w | g.Derives form (w.map Symbol.terminal)}

theorem yield_append (u v : List (Symbol T g.NT)) : yield g (u ++ v) = yield g u * yield g v := by
  ext w
  rw [Language.mem_mul]
  constructor
  · intro h
    obtain ⟨x, y, hparts, hx, hy⟩ := exists_of_derives_append h
    obtain ⟨front, behind, rfl, rfl, rfl⟩ := List.map_eq_append_iff.mp hparts
    exact ⟨front, hx, behind, hy, rfl⟩
  · rintro ⟨front, hx, behind, hy, rfl⟩
    have hfront : g.Derives (u ++ v) (front.map Symbol.terminal ++ v) := hx.append_right v
    have hbehind := hfront.trans (hy.append_left (front.map Symbol.terminal))
    rwa [← List.map_append] at hbehind

theorem derives_of_terminal {k : T} {z : List (Symbol T g.NT)}
    (h : g.Derives [Symbol.terminal k] z) : z = [Symbol.terminal k] := by
  induction h with
  | refl => rfl
  | tail _ hstep ih =>
    subst ih
    obtain ⟨r, _, hrewrites⟩ := hstep
    cases hrewrites with
    | cons _ hrest => cases hrest

theorem derives_of_nil {z : List (Symbol T g.NT)} (h : g.Derives [] z) : z = [] := by
  induction h with
  | refl => rfl
  | tail _ hstep ih =>
    subst ih
    obtain ⟨r, _, hrewrites⟩ := hstep
    cases hrewrites

theorem yield_nil : yield g [] = 1 := by
  ext w
  constructor
  · intro h
    simpa using derives_of_nil h
  · rintro rfl
    exact .refl []

theorem yield_terminal (k : T) : yield g [Symbol.terminal k] = {[k]} := by
  ext w
  constructor
  · intro h
    have hword := derives_of_terminal h
    cases w with
    | nil => cases hword
    | cons first rest =>
      obtain ⟨hfirst, hrest⟩ := List.cons.inj hword
      cases hfirst
      rw [List.map_eq_nil_iff.mp hrest]
      rfl
  · rintro rfl
    exact .refl _

/-- What is derived from a phrase is derived from one of its forms. -/
theorem mem_yield_nonterminal {n : g.NT} {w : List T} :
    w ∈ yield g [Symbol.nonterminal n] ↔
      ∃ r ∈ g.rules, r.input = n ∧ w ∈ yield g r.output := by
  constructor
  · intro h
    rcases h.eq_or_head with hsame | ⟨form, ⟨r, hr, hrewrites⟩, hform⟩
    · cases w <;> cases hsame
    · cases hrewrites with
      | head =>
        rw [List.append_nil] at hform
        exact ⟨r, hr, rfl, hform⟩
      | cons _ hrest => cases hrest
  · rintro ⟨r, hr, rfl, hw⟩
    exact (ContextFreeGrammar.Produces.single ⟨r, hr, .input_output⟩).trans hw

end Yield

namespace Phrase

/-- The words of a form: its classes and the words of its phrases, one after another. -/
def words : Form → Language LexemeKind
  | [] => 1
  | .terminal kind :: rest => {[kind]} * words rest
  | .nonterminal phrase :: rest => phrase.language * words rest

theorem yield_grammar (start : Phrase) (form : Form) :
    yield (grammar start) form = words form := by
  induction form with
  | nil => exact yield_nil
  | cons s rest ih =>
    have hparts := yield_append (g := grammar start) [s] rest
    rw [List.singleton_append] at hparts
    cases s with
    | terminal kind => rw [hparts, yield_terminal, ih, words]
    | nonterminal phrase =>
      rw [hparts, ih]
      rfl

theorem mem_sum {L : List (Language LexemeKind)} {w : List LexemeKind} :
    w ∈ L.sum ↔ ∃ l ∈ L, w ∈ l := by
  induction L with
  | nil => simp
  | cons l rest ih => simp [Language.mem_add, ih]

/-- The words of a phrase are those of its forms. -/
theorem language_eq (phrase : Phrase) : phrase.language = (phrase.forms.map words).sum := by
  ext w
  have hforms : w ∈ phrase.language ↔
      ∃ r ∈ rules, r.input = phrase ∧ w ∈ yield (grammar phrase) r.output :=
    mem_yield_nonterminal
  rw [hforms, mem_sum]
  constructor
  · rintro ⟨r, hr, rfl, hw⟩
    rw [yield_grammar] at hw
    exact ⟨_, List.mem_map_of_mem (mem_rules.mp hr), hw⟩
  · rintro ⟨_, hmem, hw⟩
    obtain ⟨form, hform, rfl⟩ := List.mem_map.mp hmem
    exact ⟨⟨phrase, form⟩, mem_rules.mpr hform, rfl, by rwa [yield_grammar]⟩

/-! ## Equations of languages -/

open Computability

/-- A language that is defined by recursion on the left. -/
theorem eq_mul_kstar {L M N : Language LexemeKind} (hM : [] ∉ M) (h : L = N + L * M) :
    L = N * M∗ := by
  have hreverse : L.reverse = M.reverse * L.reverse + N.reverse := by
    conv_lhs => rw [h]
    rw [Language.reverse_add, Language.reverse_mul, add_comm]
  rw [Language.self_eq_mul_add_iff (by simpa using hM), ← Language.reverse_kstar,
    ← Language.reverse_mul] at hreverse
  exact Language.reverse_involutive.injective hreverse

theorem nil_not_mem_lit (kind : LexemeKind) : [] ∉ ({[kind]} : Language LexemeKind) := by
  intro h
  cases h

theorem nil_not_mem_mul {L : Language LexemeKind} (h : [] ∉ L) (M : Language LexemeKind) :
    [] ∉ L * M := by
  rintro ⟨front, hfront, behind, _, hparts⟩
  obtain rfl := (List.append_eq_nil_iff.mp hparts).1
  exact h hfront

theorem parameter_eq :
    parameter.language =
      {[.integer]} + ({[.real]} + ({[.string]} + ({[.enumeration]} + ({[.binary]} +
        ({[.entityName]} + ({[.dollar]} + ({[.star]} +
          ({[.leftParen]} * (parameterList.language * {[.rightParen]}) +
            ({[.leftParen]} * {[.rightParen]} +
              {[.keyword]} * ({[.leftParen]} * (parameter.language * {[.rightParen]}))))))))))) := by
  conv_lhs => rw [language_eq]
  simp [-add_eq_sup, forms, words]

theorem parameterList_eq :
    parameterList.language = parameter.language * ({[.comma]} * parameter.language)∗ := by
  apply eq_mul_kstar (nil_not_mem_mul (nil_not_mem_lit _) _)
  conv_lhs => rw [language_eq]
  simp [-add_eq_sup, forms, words]

theorem simpleRecord_eq :
    simpleRecord.language =
      {[.keyword]} * ({[.leftParen]} *
        (parameterList.language * {[.rightParen]} + {[.rightParen]})) := by
  rw [language_eq]
  simp [-add_eq_sup, forms, words, mul_add]

theorem nil_not_mem_simpleRecord : [] ∉ simpleRecord.language := by
  rw [simpleRecord_eq]
  exact nil_not_mem_mul (nil_not_mem_lit _) _

theorem simpleRecords_eq :
    simpleRecords.language = simpleRecord.language * simpleRecord.language∗ := by
  apply eq_mul_kstar nil_not_mem_simpleRecord
  conv_lhs => rw [language_eq]
  simp [-add_eq_sup, forms, words]

theorem entityInstance_eq :
    entityInstance.language =
      {[.entityName]} * ({[.equals]} * (simpleRecord.language * {[.semicolon]} +
        {[.leftParen]} * (simpleRecords.language * ({[.rightParen]} * {[.semicolon]})))) := by
  rw [language_eq]
  simp [-add_eq_sup, forms, words, mul_add]

theorem nil_not_mem_entityInstance : [] ∉ entityInstance.language := by
  rw [entityInstance_eq]
  exact nil_not_mem_mul (nil_not_mem_lit _) _

theorem headerRecord_eq :
    headerRecord.language = simpleRecord.language * {[.semicolon]} := by
  rw [language_eq]
  simp [-add_eq_sup, forms, words]

theorem record_eq : record.language = entityInstance.language + headerRecord.language := by
  rw [language_eq]
  simp [-add_eq_sup, forms, words]

theorem entityInstances_eq : entityInstances.language = entityInstance.language∗ := by
  rw [← one_mul (KStar.kstar _)]
  apply eq_mul_kstar nil_not_mem_entityInstance
  conv_lhs => rw [language_eq]
  simp [-add_eq_sup, forms, words]

theorem dataOpening_eq :
    dataOpening.language =
      {[.data]} * ({[.semicolon]} + {[.leftParen]} *
        (parameterList.language * ({[.rightParen]} * {[.semicolon]}))) := by
  rw [language_eq]
  simp [-add_eq_sup, forms, words, mul_add]

theorem dataSection_eq :
    dataSection.language =
      dataOpening.language * (entityInstance.language∗ * ({[.endSection]} * {[.semicolon]})) := by
  rw [language_eq]
  simp [-add_eq_sup, forms, words, entityInstances_eq]

theorem nil_not_mem_dataSection : [] ∉ dataSection.language := by
  rw [dataSection_eq, dataOpening_eq]
  exact nil_not_mem_mul (nil_not_mem_mul (nil_not_mem_lit _) _) _

theorem dataBlock_eq :
    dataBlock.language = dataSection.language + entityInstance.language∗ := by
  rw [language_eq]
  simp [-add_eq_sup, forms, words, entityInstances_eq]

theorem dataSections_eq : dataSections.language = dataSection.language∗ := by
  rw [← one_mul (KStar.kstar _)]
  apply eq_mul_kstar nil_not_mem_dataSection
  conv_lhs => rw [language_eq]
  simp [-add_eq_sup, forms, words]

theorem headerRecords_eq : headerRecords.language = headerRecord.language∗ := by
  rw [← one_mul (KStar.kstar _)]
  have hsome : [] ∉ headerRecord.language := by
    rw [headerRecord_eq]
    exact nil_not_mem_mul nil_not_mem_simpleRecord _
  apply eq_mul_kstar hsome
  conv_lhs => rw [language_eq]
  simp [-add_eq_sup, forms, words]

theorem headerSection_eq :
    headerSection.language =
      {[.header]} * ({[.semicolon]} *
        (headerRecord.language∗ * ({[.endSection]} * {[.semicolon]}))) := by
  rw [language_eq]
  simp [-add_eq_sup, forms, words, headerRecords_eq]

theorem exchangeFile_eq :
    exchangeFile.language =
      {[.opening]} * ({[.semicolon]} * (headerSection.language *
        (dataSection.language∗ * ({[.closing]} * {[.semicolon]})))) := by
  rw [language_eq]
  simp [-add_eq_sup, forms, words, dataSections_eq]

end Phrase

end Part21
