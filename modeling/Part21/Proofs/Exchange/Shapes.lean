import Part21.Proofs.Exchange.Lookahead

set_option autoImplicit false

/-!
# The shapes of rows

The rows of the phrases are taken apart along their forms.  In parameters and groups parentheses
come in pairs (`Phrase.nested_of_mem`), since the rules hold of the rows with parentheses in pairs
(`Phrase.mem_of_model`).  So the last parenthesis of a group closes one that is opened in one place
only (`Phrase.Nested.enclosed_inj`).
-/

namespace Part21

namespace Phrase

/-! ## Rows of forms -/

theorem mem_words_nil : [] ∈ words [] := rfl

theorem mem_words_word {kind : LexemeKind} {row : List LexemeKind} {form : Form}
    (h : row ∈ words form) : kind :: row ∈ words (word kind :: form) :=
  Language.append_mem_mul (a := [kind]) rfl h

theorem mem_words_part {phrase : Phrase} {front row : List LexemeKind} {form : Form}
    (hfront : front ∈ phrase.language) (h : row ∈ words form) :
    front ++ row ∈ words (part phrase :: form) :=
  Language.append_mem_mul hfront h

/-- A row of a form of a phrase is a row of the phrase. -/
theorem mem_language {phrase : Phrase} (form : Form) {row : List LexemeKind}
    (hform : form ∈ phrase.forms) (hrow : row ∈ words form) : row ∈ phrase.language := by
  rw [language_eq, mem_sum]
  exact ⟨_, List.mem_map_of_mem hform, hrow⟩

theorem exists_form {phrase : Phrase} {row : List LexemeKind} (h : row ∈ phrase.language) :
    ∃ form ∈ phrase.forms, row ∈ words form := by
  rw [language_eq, mem_sum] at h
  obtain ⟨_, hmem, hrow⟩ := h
  obtain ⟨form, hform, rfl⟩ := List.mem_map.mp hmem
  exact ⟨form, hform, hrow⟩

theorem mem_words_word_iff {kind : LexemeKind} {row : List LexemeKind} {form : Form} :
    row ∈ words (word kind :: form) ↔ ∃ rest ∈ words form, row = kind :: rest := by
  constructor
  · rintro ⟨_, rfl, rest, hrest, rfl⟩
    exact ⟨rest, hrest, rfl⟩
  · rintro ⟨rest, hrest, rfl⟩
    exact mem_words_word hrest

theorem mem_words_part_iff {phrase : Phrase} {row : List LexemeKind} {form : Form} :
    row ∈ words (part phrase :: form) ↔
      ∃ front ∈ phrase.language, ∃ rest ∈ words form, row = front ++ rest := by
  constructor
  · rintro ⟨front, hfront, rest, hrest, rfl⟩
    exact ⟨front, hfront, rest, hrest, rfl⟩
  · rintro ⟨front, hfront, rest, hrest, rfl⟩
    exact mem_words_part hfront hrest

/-- The group of a simple record may be empty. -/
theorem empty_mem_simpleRecord : [.keyword, .leftParen, .rightParen] ∈ simpleRecord.language :=
  mem_language [word .keyword, word .leftParen, word .rightParen] (by decide)
    (mem_words_word (mem_words_word (mem_words_word mem_words_nil)))

/-! ## Models of the rules -/

/-- The words of a form when each phrase stands for a language. -/
def wordsIn (V : Phrase → Language LexemeKind) : Form → Language LexemeKind
  | [] => 1
  | .terminal kind :: rest => {[kind]} * wordsIn V rest
  | .nonterminal phrase :: rest => V phrase * wordsIn V rest

section Models

variable {V : Phrase → Language LexemeKind}

theorem wordsIn_append (u v : Form) : wordsIn V (u ++ v) = wordsIn V u * wordsIn V v := by
  induction u with
  | nil => rw [List.nil_append, wordsIn, one_mul]
  | cons s rest ih => cases s <;> rw [List.cons_append, wordsIn, wordsIn, ih, mul_assoc]

theorem mem_wordsIn (row : List LexemeKind) : row ∈ wordsIn V (row.map word) := by
  induction row with
  | nil => rfl
  | cons kind rest ih => exact Language.append_mem_mul (a := [kind]) rfl ih

/-- What the rules hold of holds of the rows of the phrases. -/
theorem mem_of_model
    (h : ∀ phrase ∈ all, ∀ form ∈ phrase.forms, ∀ row ∈ wordsIn V form, row ∈ V phrase)
    {phrase : Phrase} {row : List LexemeKind} (hrow : row ∈ phrase.language) : row ∈ V phrase := by
  have hderives : ∀ {form result : Form}, Derives form result →
      ∀ row ∈ wordsIn V result, row ∈ wordsIn V form := by
    intro form result hform
    induction hform with
    | refl => exact fun _ hmem => hmem
    | tail _ hstep ih =>
      obtain ⟨r, hr, hrewrites⟩ := hstep
      obtain ⟨u, v, rfl, rfl⟩ := hrewrites.exists_parts
      intro row hmem
      refine ih row ?_
      simp only [wordsIn_append, wordsIn, mul_one] at hmem ⊢
      obtain ⟨_, ⟨front, hfront, middle, hmiddle, rfl⟩, behind, hbehind, rfl⟩ := hmem
      have hphrase := h _ (mem_all _) _ (mem_rules.mp hr) middle hmiddle
      exact Language.append_mem_mul (Language.append_mem_mul hfront hphrase) hbehind
  have hmem := hderives hrow row (mem_wordsIn row)
  rwa [wordsIn, wordsIn, mul_one] at hmem

end Models

/-! ## Parentheses -/

/-- Parentheses are opened and closed in pairs. -/
structure Nested (row : List LexemeKind) : Prop where
  /-- as many are closed as are opened -/
  paired : row.count .leftParen = row.count .rightParen
  /-- what is opened behind some place is closed there -/
  closed : ∀ front behind, row = front ++ behind →
    behind.count .leftParen ≤ behind.count .rightParen

/-- A row between parentheses. -/
def enclosed (inner : List LexemeKind) : List LexemeKind := .leftParen :: (inner ++ [.rightParen])

namespace Nested

variable {front behind inner other x y : List LexemeKind}

theorem nil : Nested [] := by
  refine ⟨rfl, fun front behind h => ?_⟩
  rw [(List.append_eq_nil_iff.mp h.symm).2]
  simp

theorem single {kind : LexemeKind} (hopen : kind ≠ .leftParen) (hclose : kind ≠ .rightParen) :
    Nested [kind] := by
  refine ⟨by simp [hopen, hclose], fun front behind h => ?_⟩
  have hnone : behind.count .leftParen = 0 := by
    refine List.count_eq_zero.mpr fun hmem => hopen ?_
    have hkind : LexemeKind.leftParen ∈ [kind] := h ▸ List.mem_append_right front hmem
    exact (List.mem_singleton.mp hkind).symm
  rw [hnone]
  exact Nat.zero_le _

theorem append (hfront : Nested front) (hbehind : Nested behind) : Nested (front ++ behind) := by
  refine ⟨?_, fun a b h => ?_⟩
  · rw [List.count_append, List.count_append, hfront.paired, hbehind.paired]
  rcases List.append_eq_append_iff.mp h with ⟨c, rfl, hparts⟩ | ⟨c, hparts, rfl⟩
  · exact hbehind.closed c b hparts
  · have hle := hfront.closed a c hparts
    rw [List.count_append, List.count_append, hbehind.paired]
    omega

theorem group (h : Nested inner) : Nested (enclosed inner) := by
  refine ⟨by simp [enclosed, h.paired], fun a b hparts => ?_⟩
  cases a with
  | nil =>
    rw [List.nil_append] at hparts
    simp [← hparts, enclosed, h.paired]
  | cons first rest =>
    obtain ⟨-, hinside⟩ := List.cons.inj hparts
    rcases List.append_eq_append_iff.mp hinside with ⟨c, rfl, hlast⟩ | ⟨c, hsplit, rfl⟩
    · have hnone : b.count .leftParen = 0 := by
        refine List.count_eq_zero.mpr fun hmem => ?_
        have hkind : LexemeKind.leftParen ∈ [.rightParen] := hlast ▸ List.mem_append_right c hmem
        exact absurd hkind (by decide)
      rw [hnone]
      exact Nat.zero_le _
    · have hle := h.closed rest c hsplit
      simp
      omega

/-- What stands behind an opening parenthesis within a nested row is not nested. -/
theorem not_of_append (h : Nested (front ++ .leftParen :: other)) : ¬ Nested other := by
  intro hother
  have hle := h.closed front (.leftParen :: other) rfl
  have hpairs := hother.paired
  simp at hle
  omega

/-- The last parenthesis closes one that is opened in one place only. -/
theorem enclosed_inj (hinner : Nested inner) (hother : Nested other)
    (h : x ++ enclosed inner = y ++ enclosed other) : x = y ∧ inner = other := by
  have hopen : x ++ .leftParen :: inner = y ++ .leftParen :: other := by
    have hclosed : x ++ .leftParen :: inner ++ [.rightParen] =
        y ++ .leftParen :: other ++ [.rightParen] := by simpa [enclosed] using h
    exact List.append_cancel_right hclosed
  rcases List.append_eq_append_iff.mp hopen with ⟨c, rfl, hparts⟩ | ⟨c, rfl, hparts⟩
  · cases c with
    | nil => exact ⟨(List.append_nil x).symm, (List.cons.inj hparts).2⟩
    | cons first rest =>
      obtain ⟨-, rfl⟩ := List.cons.inj hparts
      exact absurd hother hinner.not_of_append
  · cases c with
    | nil => exact ⟨List.append_nil y, (List.cons.inj hparts).2.symm⟩
    | cons first rest =>
      obtain ⟨-, rfl⟩ := List.cons.inj hparts
      exact absurd hinner hother.not_of_append

end Nested

/-! ## The shapes of rows -/

/-- The rows of a language have their parentheses in pairs. -/
def AllNested (L : Language LexemeKind) : Prop := ∀ row ∈ L, Nested row

/-- The rows with parentheses in pairs. -/
def nested : Language LexemeKind := {row | Nested row}

/-- A model of the rules in which parameters and groups are nested. -/
def pairs : Phrase → Language LexemeKind
  | parameter | parameterList | simpleRecord | simpleRecords => nested
  | _ => {_row | True}

section AllNested

variable {V : Phrase → Language LexemeKind} {phrase : Phrase} {form : Form}

theorem allNested_nil : AllNested (wordsIn V []) := by
  rintro _ rfl
  exact .nil

theorem allNested_word {kind : LexemeKind} (hkind : kind ≠ .leftParen ∧ kind ≠ .rightParen)
    (h : AllNested (wordsIn V form)) : AllNested (wordsIn V (word kind :: form)) := by
  rintro _ ⟨_, rfl, rest, hrest, rfl⟩
  exact (Nested.single hkind.1 hkind.2).append (h rest hrest)

theorem allNested_part (hphrase : AllNested (V phrase)) (h : AllNested (wordsIn V form)) :
    AllNested (wordsIn V (part phrase :: form)) := by
  rintro _ ⟨front, hfront, rest, hrest, rfl⟩
  exact (hphrase front hfront).append (h rest hrest)

theorem allNested_group (hphrase : AllNested (V phrase)) :
    AllNested (wordsIn V [word .leftParen, part phrase, word .rightParen]) := by
  rintro _ ⟨_, rfl, _, ⟨inner, hinner, _, ⟨_, rfl, _, rfl, rfl⟩, rfl⟩, rfl⟩
  exact (hphrase inner hinner).group

theorem allNested_empty : AllNested (wordsIn V [word .leftParen, word .rightParen]) := by
  rintro _ ⟨_, rfl, _, ⟨_, rfl, _, rfl, rfl⟩, rfl⟩
  exact Nested.nil.group

end AllNested

/-- The forms of parameters, simple records and rows of them are nested if these are. -/
theorem allNested_forms {phrase : Phrase} {form : Form}
    (hphrase : phrase ∈ [parameter, parameterList, simpleRecord, simpleRecords])
    (hform : form ∈ phrase.forms) : AllNested (wordsIn pairs form) := by
  have hparts : AllNested nested := fun _ h => h
  simp only [List.mem_cons, List.not_mem_nil, or_false] at hphrase
  rcases hphrase with rfl | rfl | rfl | rfl
  · simp only [forms, List.mem_cons, List.not_mem_nil, or_false] at hform
    rcases hform with rfl | rfl | rfl | rfl | rfl | rfl | rfl | rfl | rfl | rfl | rfl
    iterate 8
      · exact allNested_word (by decide) allNested_nil
    · exact allNested_group hparts
    · exact allNested_empty
    · exact allNested_word (by decide) (allNested_group hparts)
  · simp only [forms, List.mem_cons, List.not_mem_nil, or_false] at hform
    rcases hform with rfl | rfl
    · exact allNested_part hparts allNested_nil
    · exact allNested_part hparts (allNested_word (by decide) (allNested_part hparts allNested_nil))
  · simp only [forms, List.mem_cons, List.not_mem_nil, or_false] at hform
    rcases hform with rfl | rfl
    · exact allNested_word (by decide) (allNested_group hparts)
    · exact allNested_word (by decide) allNested_empty
  · simp only [forms, List.mem_cons, List.not_mem_nil, or_false] at hform
    rcases hform with rfl | rfl
    · exact allNested_part hparts allNested_nil
    · exact allNested_part hparts (allNested_part hparts allNested_nil)

theorem mem_pairs {phrase : Phrase} {row : List LexemeKind} (h : row ∈ phrase.language) :
    row ∈ pairs phrase := by
  refine mem_of_model (fun phrase _ form hform row hrow => ?_) h
  cases phrase with
  | parameter | parameterList | simpleRecord | simpleRecords =>
    exact allNested_forms (by decide) hform row hrow
  | _ => trivial

/-- In parameters, simple records and rows of them parentheses come in pairs. -/
theorem nested_of_mem {phrase : Phrase}
    (hphrase : phrase ∈ [parameter, parameterList, simpleRecord, simpleRecords])
    {row : List LexemeKind} (h : row ∈ phrase.language) : Nested row := by
  have hmem := mem_pairs h
  simp only [List.mem_cons, List.not_mem_nil, or_false] at hphrase
  rcases hphrase with rfl | rfl | rfl | rfl <;> exact hmem

/-- A simple record is a keyword with a group. -/
theorem simpleRecord_shape {row : List LexemeKind} (h : row ∈ simpleRecord.language) :
    ∃ inner, Nested inner ∧ row = .keyword :: enclosed inner := by
  obtain ⟨form, hform, hrow⟩ := exists_form h
  simp only [forms, List.mem_cons, List.not_mem_nil, or_false] at hform
  rcases hform with rfl | rfl
  · simp only [mem_words_word_iff, mem_words_part_iff] at hrow
    obtain ⟨_, ⟨_, ⟨inner, hinner, _, ⟨_, rfl, rfl⟩, rfl⟩, rfl⟩, rfl⟩ := hrow
    exact ⟨inner, nested_of_mem (by decide) hinner, rfl⟩
  · simp only [mem_words_word_iff] at hrow
    obtain ⟨_, ⟨_, ⟨_, rfl, rfl⟩, rfl⟩, rfl⟩ := hrow
    exact ⟨[], .nil, rfl⟩

/-- A parameter is a single class, a group, or a keyword with a group. -/
theorem parameter_shape {row : List LexemeKind} (h : row ∈ parameter.language) :
    (∃ kind ∈ literals, row = [kind]) ∨
      ∃ inner, Nested inner ∧ (row = enclosed inner ∨ row = .keyword :: enclosed inner) := by
  obtain ⟨form, hform, hrow⟩ := exists_form h
  simp only [forms, List.mem_cons, List.not_mem_nil, or_false] at hform
  rcases hform with rfl | rfl | rfl | rfl | rfl | rfl | rfl | rfl | rfl | rfl | rfl
  iterate 8
    · obtain ⟨_, rfl, rfl⟩ := mem_words_word_iff.mp hrow
      exact .inl ⟨_, by decide, rfl⟩
  · simp only [mem_words_word_iff, mem_words_part_iff] at hrow
    obtain ⟨_, ⟨inner, hinner, _, ⟨_, rfl, rfl⟩, rfl⟩, rfl⟩ := hrow
    exact .inr ⟨inner, nested_of_mem (by decide) hinner, .inl rfl⟩
  · simp only [mem_words_word_iff] at hrow
    obtain ⟨_, ⟨_, rfl, rfl⟩, rfl⟩ := hrow
    exact .inr ⟨[], .nil, .inl rfl⟩
  · simp only [mem_words_word_iff, mem_words_part_iff] at hrow
    obtain ⟨_, ⟨_, ⟨inner, hinner, _, ⟨_, rfl, rfl⟩, rfl⟩, rfl⟩, rfl⟩ := hrow
    exact .inr ⟨inner, nested_of_mem (by decide) hinner, .inr rfl⟩

/-- An instance is a name with a simple record or with a group of them. -/
theorem entityInstance_shape {row : List LexemeKind} (h : row ∈ entityInstance.language) :
    ∃ inner, Nested inner ∧
      (row = [.entityName, .equals, .keyword] ++ enclosed inner ++ [.semicolon] ∨
        row = [.entityName, .equals] ++ enclosed inner ++ [.semicolon]) := by
  obtain ⟨form, hform, hrow⟩ := exists_form h
  simp only [forms, List.mem_cons, List.not_mem_nil, or_false] at hform
  rcases hform with rfl | rfl
  · simp only [mem_words_word_iff, mem_words_part_iff] at hrow
    obtain ⟨_, ⟨_, ⟨record, hrecord, _, ⟨_, rfl, rfl⟩, rfl⟩, rfl⟩, rfl⟩ := hrow
    obtain ⟨inner, hinner, rfl⟩ := simpleRecord_shape hrecord
    exact ⟨inner, hinner, .inl rfl⟩
  · simp only [mem_words_word_iff, mem_words_part_iff] at hrow
    obtain ⟨_, ⟨_, ⟨_, ⟨records, hrecords, _, ⟨_, ⟨_, rfl, rfl⟩, rfl⟩, rfl⟩, rfl⟩, rfl⟩, rfl⟩ := hrow
    refine ⟨records, nested_of_mem (by decide) hrecords, .inr ?_⟩
    simp [enclosed]

/-- The opening of a section is a word, or a word with a group, and the semicolon. -/
theorem dataOpening_shape {row : List LexemeKind} (h : row ∈ dataOpening.language) :
    row = [.data, .semicolon] ∨
      ∃ inner, Nested inner ∧ row = [.data] ++ enclosed inner ++ [.semicolon] := by
  obtain ⟨form, hform, hrow⟩ := exists_form h
  simp only [forms, List.mem_cons, List.not_mem_nil, or_false] at hform
  rcases hform with rfl | rfl
  · simp only [mem_words_word_iff] at hrow
    obtain ⟨_, ⟨_, rfl, rfl⟩, rfl⟩ := hrow
    exact .inl rfl
  · simp only [mem_words_word_iff, mem_words_part_iff] at hrow
    obtain ⟨_, ⟨_, ⟨inner, hinner, _, ⟨_, ⟨_, rfl, rfl⟩, rfl⟩, rfl⟩, rfl⟩, rfl⟩ := hrow
    refine .inr ⟨inner, nested_of_mem (by decide) hinner, ?_⟩
    simp [enclosed]

/-- A record of a header is a simple record with the semicolon. -/
theorem headerRecord_shape {row : List LexemeKind} (h : row ∈ headerRecord.language) :
    ∃ inner, Nested inner ∧ row = [.keyword] ++ enclosed inner ++ [.semicolon] := by
  obtain ⟨form, hform, hrow⟩ := exists_form h
  obtain rfl := List.mem_singleton.mp hform
  simp only [mem_words_word_iff, mem_words_part_iff] at hrow
  obtain ⟨record, hrecord, _, ⟨_, rfl, rfl⟩, rfl⟩ := hrow
  obtain ⟨inner, hinner, rfl⟩ := simpleRecord_shape hrecord
  exact ⟨inner, hinner, rfl⟩

end Phrase

end Part21
