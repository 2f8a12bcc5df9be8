import Part21.Proofs.Exchange.Shapes

set_option autoImplicit false

/-!
# Where phrases end

The start of a row may end with a complete phrase, in front of which the phrase may stand
(`Phrase.Behind`).  Where parameters, simple records and instances end is told apart here: by what
can come next, by the last class, and by what stands in front of the parenthesis that the last one
closes.
-/

namespace Part21

namespace Phrase

/-! ## Places of phrases -/

/-- The rows that complete a start of a row. -/
def remaining (start : Phrase) (before : List LexemeKind) : Language LexemeKind :=
  start.language.leftQuotient before

/-- Behind a start of a row a phrase may stand. -/
def Sits (start phrase : Phrase) (before : List LexemeKind) : Prop :=
  ∃ v, Occurs start phrase (before.map word) v

/-- A start of a row ends with a complete phrase. -/
def Behind (start phrase : Phrase) (before : List LexemeKind) : Prop :=
  ∃ front row, before = front ++ row ∧ row ∈ phrase.language ∧ Sits start phrase front

theorem remaining_append (start : Phrase) (before row : List LexemeKind) :
    start.remaining (before ++ row) = (start.remaining before).leftQuotient row :=
  Language.leftQuotient_append _ before row

theorem remaining_nil (start : Phrase) : start.remaining [] = start.language := rfl

section Sits

variable {start whole phrase first : Phrase} {before a b row : List LexemeKind} {c : Form}

theorem Sits.inner (h : Sits start whole before)
    (hform : a.map word ++ part phrase :: c ∈ whole.forms) : Sits start phrase (before ++ a) := by
  obtain ⟨v, hv⟩ := h
  have hinner := Occurs.inner hv hform
  rw [← List.map_append] at hinner
  exact ⟨_, hinner⟩

/-- Behind a complete phrase within a form stands the next one. -/
theorem Sits.after (h : Sits start whole before)
    (hform : a.map word ++ part first :: (b.map word ++ part phrase :: c) ∈ whole.forms)
    (hrow : row ∈ first.language) : Sits start phrase (before ++ (a ++ (row ++ b))) := by
  obtain ⟨v, hv⟩ := h
  have hfirst := Occurs.inner hv hform
  rw [← List.map_append] at hfirst
  have hrest := derives_row hrow ((before ++ a).map word) (b.map word ++ part phrase :: c ++ v)
  refine ⟨c ++ v, ?_⟩
  have hall := Derives.trans hfirst hrest
  simpa [Occurs, List.append_assoc] using hall

end Sits

/-! ## What can come next -/

theorem live_language (phrase : Phrase) : Live phrase.language := by
  cases phrase with
  | exchangeFile =>
    rw [exchangeFile_eq, headerSection_eq]
    infer_instance
  | headerSection =>
    rw [headerSection_eq]
    infer_instance
  | headerRecords =>
    rw [headerRecords_eq]
    infer_instance
  | dataSections =>
    rw [dataSections_eq]
    infer_instance
  | dataBlock =>
    rw [dataBlock_eq]
    infer_instance
  | dataOpening =>
    rw [dataOpening_eq]
    infer_instance
  | entityInstances =>
    rw [entityInstances_eq]
    infer_instance
  | record =>
    rw [record_eq]
    infer_instance
  | headerRecord | dataSection | entityInstance | simpleRecords | simpleRecord | parameterList
  | parameter => infer_instance

/-- From each form some row is derived. -/
theorem exists_row (form : Form) : ∃ row : List LexemeKind, Derives form (row.map word) := by
  have hwords : ∃ row, row ∈ words form := by
    induction form with
    | nil => exact ⟨[], mem_words_nil⟩
    | cons s rest ih =>
      obtain ⟨behind, hbehind⟩ := ih
      cases s with
      | terminal kind => exact ⟨kind :: behind, mem_words_word hbehind⟩
      | nonterminal phrase =>
        obtain ⟨front, hfront⟩ := (live_language phrase).some
        exact ⟨front ++ behind, mem_words_part hfront hbehind⟩
  obtain ⟨row, hrow⟩ := hwords
  rw [← yield_grammar exchangeFile] at hrow
  exact ⟨row, hrow⟩

theorem mem_language_of_derives {start : Phrase} {row : List LexemeKind}
    (h : Derives [part start] (row.map word)) : row ∈ start.language := h

section Next

variable {start phrase : Phrase} {front before p q : List LexemeKind} {kind : LexemeKind}

/-- Where a phrase may stand, its rows can come. -/
theorem Sits.mem_starts (h : Sits start phrase front) (hrow : p ++ kind :: q ∈ phrase.language) :
    .lexeme kind ∈ starts (start.remaining (front ++ p)) := by
  obtain ⟨v, hv⟩ := h
  obtain ⟨w, hw⟩ := exists_row v
  have hphrase : Derives [part start] (front.map word ++ ((p ++ kind :: q).map word ++ v)) :=
    hv.trans (derives_row hrow _ v)
  have hrest : Derives (front.map word ++ ((p ++ kind :: q).map word ++ v))
      (front.map word ++ ((p ++ kind :: q).map word ++ w.map word)) := by
    have hbehind := hw.append_left (front.map word ++ (p ++ kind :: q).map word)
    rwa [List.append_assoc, List.append_assoc] at hbehind
  have hall := hphrase.trans hrest
  rw [← List.map_append, ← List.map_append] at hall
  refine ⟨q ++ w, ?_⟩
  have hmem := mem_language_of_derives hall
  simpa [remaining, Language.mem_leftQuotient] using hmem

/-- Behind a phrase something can come that follows it. -/
theorem Behind.exists_follows (h : Behind start phrase before) :
    ∃ t ∈ follows start phrase, t ∈ starts (start.remaining before) := by
  obtain ⟨front, row, rfl, hrow, v, hv⟩ := h
  obtain ⟨w, hw⟩ := exists_row v
  have hoccurs : Occurs start phrase (front.map word) (w.map word) := by
    have hbehind := hw.append_left (front.map word ++ [part phrase])
    rw [List.append_assoc, List.append_assoc] at hbehind
    exact hv.trans hbehind
  have hall := hoccurs.trans (derives_row hrow _ _)
  rw [← List.map_append, ← List.map_append, ← List.append_assoc] at hall
  have hmem := mem_language_of_derives hall
  cases w with
  | nil => exact ⟨.endOfInput, ⟨_, hoccurs⟩, by simpa [starts, remaining] using hmem⟩
  | cons kind rest => exact ⟨.lexeme kind, ⟨_, _, hoccurs⟩, rest, hmem⟩

end Next

/-! ## Where complete phrases end -/

/-- The phrases behind which what follows them anywhere is expected first. -/
def completed : List Phrase := [parameter, simpleRecord, entityInstance]

/-- What parameters, simple records and instances end with. -/
def lasts : Phrase → List LexemeKind
  | parameter => .rightParen :: literals
  | simpleRecord => [.rightParen]
  | entityInstance => [.semicolon]
  | _ => []

/-- What can stand behind parameters, simple records and instances in a text of any kind. -/
def followers : Phrase → List Terminal
  | parameter => Reader.kinds [.comma, .rightParen]
  | simpleRecord => Reader.behindGroup
  | entityInstance => DataSection.behindInstance
  | _ => []

theorem exists_last {phrase : Phrase} (hphrase : phrase ∈ completed) {row : List LexemeKind}
    (h : row ∈ phrase.language) : ∃ kind ∈ lasts phrase, ∃ front, row = front ++ [kind] := by
  have henclosed : ∀ front inner : List LexemeKind,
      front ++ enclosed inner = front ++ .leftParen :: inner ++ [.rightParen] := by simp [enclosed]
  simp only [completed, List.mem_cons, List.not_mem_nil, or_false] at hphrase
  rcases hphrase with rfl | rfl | rfl
  · rcases parameter_shape h with ⟨kind, hkind, rfl⟩ | ⟨inner, -, rfl | rfl⟩
    · exact ⟨kind, List.mem_cons_of_mem _ hkind, [], rfl⟩
    · exact ⟨.rightParen, List.mem_cons_self .., _, henclosed [] inner⟩
    · exact ⟨.rightParen, List.mem_cons_self .., _, henclosed [.keyword] inner⟩
  · obtain ⟨inner, -, rfl⟩ := simpleRecord_shape h
    exact ⟨.rightParen, List.mem_singleton_self _, _, henclosed [.keyword] inner⟩
  · obtain ⟨inner, -, rfl | rfl⟩ := entityInstance_shape h <;>
      exact ⟨.semicolon, List.mem_singleton_self _, _, rfl⟩

theorem mem_followers {start phrase : Phrase} (hstart : start ∈ readable)
    (hphrase : phrase ∈ completed) {t : Terminal} (h : t ∈ follows start phrase) :
    t ∈ followers phrase := by
  simp only [completed, List.mem_cons, List.not_mem_nil, or_false] at hphrase
  rcases hphrase with rfl | rfl | rfl
  · exact (follows_parameter hstart t).mp h
  · exact (follows_simpleRecord hstart t).mp h
  · have hmore : ∀ start ∈ readable, ∀ t ∈ behindInstance start,
        t ∈ DataSection.behindInstance := by decide
    exact hmore start hstart t ((follows_entityInstance hstart t).mp h)

section Behind

variable {start phrase : Phrase} {before inner x : List LexemeKind} {kind : LexemeKind}

theorem Behind.exists_last (h : Behind start phrase before) (hphrase : phrase ∈ completed) :
    ∃ kind ∈ lasts phrase, ∃ front, before = front ++ [kind] := by
  obtain ⟨front, row, rfl, hrow, -⟩ := h
  obtain ⟨kind, hkind, init, rfl⟩ := Phrase.exists_last hphrase hrow
  exact ⟨kind, hkind, front ++ init, (List.append_assoc ..).symm⟩

theorem not_behind_nil (hphrase : phrase ∈ completed) : ¬ Behind start phrase [] := by
  intro h
  obtain ⟨kind, -, front, hparts⟩ := h.exists_last hphrase
  simp at hparts

/-- No phrase ends with a class that it does not end with. -/
theorem not_behind_of_last (hphrase : phrase ∈ completed) (hkind : kind ∉ lasts phrase) :
    ¬ Behind start phrase (before ++ [kind]) := by
  intro h
  obtain ⟨last, hlast, front, hparts⟩ := h.exists_last hphrase
  obtain ⟨-, rfl⟩ := List.append_singleton_inj.mp hparts
  exact hkind hlast

/-- No phrase ends where nothing can come that follows it. -/
theorem not_behind_of_starts (hstart : start ∈ readable) (hphrase : phrase ∈ completed)
    {here : List Terminal} (hhere : ∀ t ∈ starts (start.remaining before), t ∈ here)
    (h : ∀ t ∈ followers phrase, t ∉ here) : ¬ Behind start phrase before := by
  intro hbehind
  obtain ⟨t, hfollows, hcomes⟩ := hbehind.exists_follows
  exact h t (mem_followers hstart hphrase hfollows) (hhere t hcomes)

/-- A simple record that ends with a group begins with the keyword in front of it. -/
theorem Behind.simpleRecord_enclosed (hinner : Nested inner)
    (h : Behind start simpleRecord (x ++ enclosed inner)) :
    ∃ front, x = front ++ [.keyword] ∧ Sits start simpleRecord front := by
  obtain ⟨front, row, hparts, hrow, hsits⟩ := h
  obtain ⟨other, hother, rfl⟩ := simpleRecord_shape hrow
  rw [← List.singleton_append, ← List.append_assoc] at hparts
  exact ⟨front, (hinner.enclosed_inj hother hparts).1, hsits⟩

theorem not_behind_simpleRecord (hinner : Nested inner) (hkind : kind ≠ .keyword) :
    ¬ Behind start simpleRecord (x ++ [kind] ++ enclosed inner) := by
  intro h
  obtain ⟨front, hparts, -⟩ := h.simpleRecord_enclosed hinner
  exact hkind (List.append_singleton_inj.mp hparts).2

/-- A parameter that ends with a group begins with it, or with the keyword in front of it. -/
theorem Behind.parameter_enclosed (hinner : Nested inner)
    (h : Behind start parameter (x ++ enclosed inner)) :
    Sits start parameter x ∨ ∃ front, x = front ++ [.keyword] ∧ Sits start parameter front := by
  obtain ⟨front, row, hparts, hrow, hsits⟩ := h
  rcases parameter_shape hrow with ⟨kind, hkind, rfl⟩ | ⟨other, hother, rfl | rfl⟩
  · have hlast : x ++ .leftParen :: inner ++ [.rightParen] = front ++ [kind] := by
      rw [← hparts]
      simp [enclosed]
    obtain ⟨-, rfl⟩ := List.append_singleton_inj.mp hlast
    exact absurd hkind (by decide)
  · obtain ⟨rfl, -⟩ := hinner.enclosed_inj hother hparts
    exact .inl hsits
  · rw [← List.singleton_append, ← List.append_assoc] at hparts
    exact .inr ⟨front, (hinner.enclosed_inj hother hparts).1, hsits⟩

/-- No parameter ends with a simple record in front of which none can stand. -/
theorem not_behind_parameter {row : List LexemeKind} (hrow : row ∈ simpleRecord.language)
    (hbefore : ¬ Sits start parameter before)
    (hkeyword : ¬ Sits start parameter (before ++ [.keyword])) :
    ¬ Behind start parameter (before ++ row) := by
  obtain ⟨inner, hinner, rfl⟩ := simpleRecord_shape hrow
  intro h
  rw [← List.singleton_append, ← List.append_assoc] at h
  rcases h.parameter_enclosed hinner with hsits | ⟨front, hparts, hsits⟩
  · exact hkeyword hsits
  · rw [← (List.append_singleton_inj.mp hparts).1] at hsits
    exact hbefore hsits

/-- An instance ends with a closing parenthesis and the semicolon. -/
theorem Behind.entityInstance_last
    (h : Behind start entityInstance (before ++ [kind, .semicolon])) : kind = .rightParen := by
  obtain ⟨front, row, hparts, hrow, -⟩ := h
  have hlast : ∃ init : List LexemeKind, row = init ++ [.rightParen, .semicolon] := by
    obtain ⟨inner, -, rfl | rfl⟩ := entityInstance_shape hrow
    · exact ⟨[.entityName, .equals, .keyword, .leftParen] ++ inner, by simp [enclosed]⟩
    · exact ⟨[.entityName, .equals, .leftParen] ++ inner, by simp [enclosed]⟩
  obtain ⟨init, rfl⟩ := hlast
  rw [← List.append_assoc] at hparts
  exact (List.cons.inj (List.append_inj' hparts rfl).2).1

/-- An instance that ends with a group begins with the name in front of it. -/
theorem Behind.entityInstance_enclosed (hinner : Nested inner)
    (h : Behind start entityInstance (before ++ [kind] ++ enclosed inner ++ [.semicolon])) :
    ∃ front, Sits start entityInstance front ∧
      (before = front ++ [.entityName, .equals] ∧ kind = .keyword ∨
        before = front ++ [.entityName] ∧ kind = .equals) := by
  obtain ⟨front, row, hparts, hrow, hsits⟩ := h
  obtain ⟨other, hother, hshape⟩ := entityInstance_shape hrow
  have hgroup : ∀ x, row = x ++ enclosed other ++ [.semicolon] → before ++ [kind] = front ++ x := by
    rintro x rfl
    rw [← List.append_assoc, ← List.append_assoc] at hparts
    exact (hinner.enclosed_inj hother (List.append_singleton_inj.mp hparts).1).1
  refine ⟨front, hsits, ?_⟩
  rcases hshape with hshape | hshape
  · have hlast : before ++ [kind] = front ++ [.entityName, .equals] ++ [.keyword] := by
      rw [hgroup _ hshape]
      simp
    exact .inl (List.append_singleton_inj.mp hlast)
  · have hlast : before ++ [kind] = front ++ [.entityName] ++ [.equals] := by
      rw [hgroup _ hshape]
      simp
    exact .inr (List.append_singleton_inj.mp hlast)

/-- No instance ends with a record of a header, in the place of which no group can come. -/
theorem not_behind_entityInstance {row : List LexemeKind} (hrow : row ∈ headerRecord.language)
    (h : .lexeme .leftParen ∉ starts (start.remaining before)) :
    ¬ Behind start entityInstance (before ++ row) := by
  intro hbehind
  obtain ⟨inner, hinner, rfl⟩ := headerRecord_shape hrow
  rw [← List.append_assoc, ← List.append_assoc] at hbehind
  obtain ⟨front, hsits, ⟨rfl, -⟩ | ⟨-, hkind⟩⟩ := hbehind.entityInstance_enclosed hinner
  · -- An instance that begins in front of the record could hold a group of records in its place.
    have hparts : [.keyword, .leftParen, .rightParen] ++ [] ∈ simpleRecords.language :=
      mem_language [part simpleRecord] (by decide)
        (mem_words_part empty_mem_simpleRecord mem_words_nil)
    have hgroup : [.entityName, .equals] ++ .leftParen ::
        [.keyword, .leftParen, .rightParen, .rightParen, .semicolon] ∈ entityInstance.language :=
      mem_language
        [word .entityName, word .equals, word .leftParen, part simpleRecords, word .rightParen,
          word .semicolon] (by decide)
        (mem_words_word (mem_words_word (mem_words_word (mem_words_part hparts
          (mem_words_word (mem_words_word mem_words_nil))))))
    exact h (hsits.mem_starts hgroup)
  · cases hkind

end Behind

/-! ### Apart from complete phrases -/

/-- No complete phrase ends there. -/
def Apart (start : Phrase) (before : List LexemeKind) : Prop :=
  ∀ phrase ∈ completed, ¬ Behind start phrase before

/-- A complete phrase ends there, and no other one. -/
structure Ends (start phrase : Phrase) (before : List LexemeKind) : Prop where
  complete : phrase ∈ completed
  behind : Behind start phrase before
  alone : ∀ other ∈ completed, other ≠ phrase → ¬ Behind start other before

section Apart

variable {start phrase : Phrase} {before : List LexemeKind} {kind : LexemeKind}

theorem Apart.intro (hparameter : ¬ Behind start parameter before)
    (hrecord : ¬ Behind start simpleRecord before)
    (hinstance : ¬ Behind start entityInstance before) : Apart start before := by
  intro phrase hphrase
  simp only [completed, List.mem_cons, List.not_mem_nil, or_false] at hphrase
  rcases hphrase with rfl | rfl | rfl
  · exact hparameter
  · exact hrecord
  · exact hinstance

theorem apart_nil (start : Phrase) : Apart start [] := fun _ => not_behind_nil

theorem Ends.intro (hphrase : phrase ∈ completed) (h : Behind start phrase before)
    (hothers : ∀ other ∈ completed, other ≠ phrase →
      (∀ kind ∈ lasts phrase, kind ∉ lasts other) ∨ ¬ Behind start other before) :
    Ends start phrase before := by
  refine ⟨hphrase, h, fun other hother hne => ?_⟩
  rcases hothers other hother hne with hlasts | hnot
  · obtain ⟨kind, hkind, front, rfl⟩ := h.exists_last hphrase
    exact not_behind_of_last hother (hlasts kind hkind)
  · exact hnot

theorem ends_simpleRecord (h : Behind start simpleRecord before)
    (hparameter : ¬ Behind start parameter before) : Ends start simpleRecord before := by
  refine .intro (by decide) h fun other hother hne => ?_
  simp only [completed, List.mem_cons, List.not_mem_nil, or_false] at hother
  rcases hother with rfl | rfl | rfl
  · exact .inr hparameter
  · exact absurd rfl hne
  · exact .inl (by decide)

theorem ends_entityInstance (h : Behind start entityInstance before) :
    Ends start entityInstance before :=
  .intro (by decide) h fun other hother hne => .inl (by revert other; decide)

theorem apart_of_last (h : ∀ phrase ∈ completed, kind ∉ lasts phrase) :
    Apart start (before ++ [kind]) :=
  fun phrase hphrase => not_behind_of_last hphrase (h phrase hphrase)

theorem apart_of_starts (hstart : start ∈ readable) {here : List Terminal}
    (hhere : ∀ t, t ∈ starts (start.remaining before) ↔ t ∈ here)
    (h : ∀ phrase ∈ completed, ∀ t ∈ followers phrase, t ∉ here) : Apart start before :=
  fun phrase hphrase =>
    not_behind_of_starts hstart hphrase (fun t => (hhere t).mp) (h phrase hphrase)

/-- A semicolon ends an instance behind a closing parenthesis only. -/
theorem apart_of_semicolon (hkind : kind ≠ .rightParen) :
    Apart start (before ++ [kind, .semicolon]) := by
  have hparts : before ++ [kind, .semicolon] = before ++ [kind] ++ [.semicolon] := by simp
  refine .intro ?_ ?_ fun h => hkind h.entityInstance_last
  · rw [hparts]
    exact not_behind_of_last (by decide) (by decide)
  · rw [hparts]
    exact not_behind_of_last (by decide) (by decide)

theorem apart_dataOpening {row : List LexemeKind} (h : row ∈ dataOpening.language) :
    Apart start (before ++ row) := by
  rcases dataOpening_shape h with rfl | ⟨inner, hinner, rfl⟩
  · exact apart_of_semicolon (by decide)
  · rw [← List.append_assoc, ← List.append_assoc]
    refine .intro (not_behind_of_last (by decide) (by decide))
      (not_behind_of_last (by decide) (by decide)) fun hbehind => ?_
    obtain ⟨front, -, ⟨-, hkind⟩ | ⟨-, hkind⟩⟩ := hbehind.entityInstance_enclosed hinner <;>
      cases hkind

theorem apart_dataSection {row : List LexemeKind} (h : row ∈ dataSection.language) :
    Apart start (before ++ row) := by
  obtain ⟨form, hform, hrow⟩ := exists_form h
  obtain rfl := List.mem_singleton.mp hform
  simp only [mem_words_word_iff, mem_words_part_iff] at hrow
  obtain ⟨opening, -, _, ⟨records, -, _, ⟨_, ⟨_, rfl, rfl⟩, rfl⟩, rfl⟩, rfl⟩ := hrow
  rw [← List.append_assoc, ← List.append_assoc]
  exact apart_of_semicolon (by decide)

theorem apart_headerRecord {row : List LexemeKind} (hrow : row ∈ headerRecord.language)
    (h : .lexeme .leftParen ∉ starts (start.remaining before)) : Apart start (before ++ row) := by
  refine .intro ?_ ?_ (not_behind_entityInstance hrow h)
  all_goals
    obtain ⟨inner, -, rfl⟩ := headerRecord_shape hrow
    rw [← List.append_assoc]
    exact not_behind_of_last (by decide) (by decide)

end Apart

end Phrase

end Part21
