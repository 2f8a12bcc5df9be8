import Part21.Proofs.Exchange.Expectations
import Part21.Proofs.Exchange.Sections

set_option autoImplicit false

/-!
# What readers of records refuse

The readers of one class, of groups and of records account for their answers one after another,
each in terms of what may be left behind its own part (`Reader.answers_namedRecord`).  Where a
certain class has to come, no complete phrase ends; where a group ends, a simple record does and
nothing else (`Phrase.ends_simpleRecord`).
-/

namespace Part21

open Computability

namespace Reader

open Phrase

section Records

variable {start : Phrase} {base before : List LexemeKind} {L : Language LexemeKind} [Live L]
  {ts : List Token}

/-- A reader of one class is past it, with `L` left, or refuses. -/
def Passes (start : Phrase) (before : List LexemeKind) (k : LexemeKind) (L : Language LexemeKind)
    (ts : List Token) (outcome : Except Stop (List Token)) : Prop :=
  (∃ t rest, ts = t :: rest ∧ t.kind = k ∧ outcome = .ok rest ∧
    start.remaining (before ++ [k]) = L) ∨
  ∃ stop, outcome = .error stop ∧ Refuses start before ts stop

omit [Live L] in
theorem passes_of_kind {k : LexemeKind} {t : Token} {rest : List Token} (hk : t.kind = k)
    (h : start.remaining before = {[k]} * L) :
    Passes start before k L (t :: rest) (.ok rest) := by
  refine .inl ⟨t, rest, rfl, hk, rfl, ?_⟩
  rw [remaining_append, h, quotient_lit_mul, if_pos rfl]

theorem mem_starts_kind {k : LexemeKind} (h : start.remaining before = {[k]} * L) (t : Terminal) :
    t ∈ starts (start.remaining before) ↔ t ∈ kinds [k] := by
  rw [h, mem_starts_lit_mul]
  simp [kinds]

theorem reports_kind {k : LexemeKind} (h : start.remaining before = {[k]} * L)
    (hapart : Apart start before) (hnext : next ts ∉ kinds [k]) :
    Reports start before (next ts) (kinds [k]) :=
  .of_apart h (h ▸ mem_starts_kind h) (by simp [kinds]) hnext hapart

/-- No complete phrase ends where one class has to come that follows none. -/
theorem apart_of_kind (hstart : start ∈ readable) {k : LexemeKind}
    (h : start.remaining before = {[k]} * L)
    (hk : ∀ phrase ∈ completed, ∀ t ∈ followers phrase, t ∉ kinds [k]) : Apart start before :=
  apart_of_starts hstart (mem_starts_kind h) hk

/-- No complete phrase ends with a group that stands behind no keyword, in front of a semicolon. -/
theorem apart_of_enclosed (hstart : start ∈ readable) {front inner : List LexemeKind}
    {k : LexemeKind} (hinner : Nested inner) (hk : k ≠ .keyword)
    (h : start.remaining (front ++ [k] ++ enclosed inner) = {[.semicolon]} * L) :
    Apart start (front ++ [k] ++ enclosed inner) := by
  refine .intro ?_ (not_behind_simpleRecord hinner hk) ?_
  · exact not_behind_of_starts hstart (by decide) (fun t => (mem_starts_kind h t).mp) (by decide)
  · have hlast : front ++ [k] ++ enclosed inner =
        front ++ [k] ++ .leftParen :: inner ++ [.rightParen] := by simp [enclosed]
    rw [hlast]
    exact not_behind_of_last (by decide) (by decide)

/-- A class that has to come is there, or is reported. -/
theorem passes_require {k : LexemeKind} (h : start.remaining before = {[k]} * L)
    (hapart : Apart start before) (ts : List Token) :
    Passes start before k L ts (require k ts) := by
  cases ts with
  | nil => exact .inr ⟨_, rfl, .here (reports_kind h hapart (by simp [next, kinds]))⟩
  | cons t rest =>
    rw [require]
    split
    · rename_i hk
      exact passes_of_kind hk h
    · rename_i hk
      exact .inr ⟨_, rfl, .here (reports_kind h hapart (next_not_mem (by simpa using hk)))⟩

/-- What is asked for first behind a phrase is what follows it anywhere, then what can come here. -/
structure Anticipated (start phrase : Phrase) (anywhere here : List Terminal) : Prop where
  follows : ∀ t, t ∈ follows start phrase ↔ t ∈ anywhere
  distinct : (anywhere.map Terminal.name).Nodup
  wider : ∀ t ∈ here, t ∈ anywhere

/-- What is asked for first is what follows the phrase that was just read, or no more than what can
come. -/
def Foreseen (start : Phrase) (before : List LexemeKind) (anywhere here : List Terminal) : Prop :=
  (anywhere = here ∧ Apart start before) ∨
    ∃ phrase, Ends start phrase before ∧ Anticipated start phrase anywhere here

/-- What comes next can come, or a fault is reported. -/
theorem follow_cases {anywhere here : List Terminal} (h : start.remaining before = L)
    (hhere : ∀ t, t ∈ starts L ↔ t ∈ here) (hnames : (here.map Terminal.name).Nodup)
    (hforeseen : Foreseen start before anywhere here) (ts : List Token) :
    (next ts ∈ here ∧ follow anywhere here ts = .ok ()) ∨
      ∃ stop, follow anywhere here ts = .error stop ∧ Refuses start before ts stop := by
  have hnext : follow anywhere here ts =
      if anywhere.contains (next ts) then
        if here.contains (next ts) then .ok () else .error ⟨ts, here⟩
      else .error ⟨ts, anywhere⟩ := by
    cases ts <;> rfl
  by_cases hmem : next ts ∈ here
  · have hanywhere : next ts ∈ anywhere := by
      rcases hforeseen with ⟨rfl, -⟩ | ⟨phrase, -, hanticipated⟩
      · exact hmem
      · exact hanticipated.wider _ hmem
    exact .inl ⟨hmem, by simp [hnext, hanywhere, hmem]⟩
  · right
    rcases hforeseen with ⟨rfl, hapart⟩ | ⟨phrase, hends, hfollows, hdistinct, hwider⟩
    · exact ⟨⟨ts, anywhere⟩, by simp [hnext, hmem],
        .here (.of_apart h hhere hnames hmem hapart)⟩
    · by_cases hanywhere : next ts ∈ anywhere
      · exact ⟨⟨ts, here⟩, by simp [hnext, hanywhere, hmem],
          .here (.of_mem_follows h hhere hnames hmem hends ((hfollows _).mpr hanywhere))⟩
      · exact ⟨⟨ts, anywhere⟩, by simp [hnext, hanywhere],
          .here (.of_follows h (fun t ht => hwider t ((hhere t).mp ht)) hdistinct hanywhere hends
            hfollows)⟩

/-- What was read since `base` is a row of a phrase, with `L` behind it. -/
def Spans {α : Type} (start : Phrase) (base : List LexemeKind) (L : Language LexemeKind)
    (phrase : Phrase) (after : List LexemeKind) (_ : α) (_ : List Token) : Prop :=
  start.remaining after = L ∧ ∃ row ∈ phrase.language, after = base ++ row

/-! ### Groups -/

/-- What is left behind the keyword of a group. -/
def behindKeyword (L : Language LexemeKind) : Language LexemeKind :=
  {[.leftParen]} * Phase.opened.left [] L

instance : Live (behindKeyword L) := by
  rw [behindKeyword]
  infer_instance

theorem simpleRecord_mul (L : Language LexemeKind) :
    simpleRecord.language * L = {[.keyword]} * behindKeyword L := by
  rw [behindKeyword, simpleRecord_eq, Phase.left, closing, outside, ← parameterList_mul]
  simp only [add_mul, mul_assoc]

theorem mem_simpleRecord {row : List LexemeKind}
    (h : row ∈ parameterList.language ∨ row = []) :
    .keyword :: .leftParen :: (row ++ [.rightParen]) ∈ simpleRecord.language := by
  rcases h with hrow | rfl
  · exact mem_language
      [word .keyword, word .leftParen, part parameterList, word .rightParen]
      (by decide)
      (mem_words_word (mem_words_word (mem_words_part hrow (mem_words_word mem_words_nil))))
  · exact mem_language [word .keyword, word .leftParen, word .rightParen]
      (by decide) (mem_words_word (mem_words_word (mem_words_word mem_words_nil)))

/-- The reader of a group accounts for its answer. -/
theorem answers_group (hstart : start ∈ readable) (hbase : Sits start simpleRecord base)
    (h : start.remaining (base ++ [.keyword]) = behindKeyword L) (keyword : Text)
    (ts : List Token) :
    Answers start (base ++ [.keyword]) ts (Spans start base L simpleRecord) (group keyword ts) := by
  unfold group
  rcases passes_require h (apart_of_last (by decide)) ts with
    ⟨t, rest, rfl, hk, hout, hrest⟩ | ⟨stop, hout, hstop⟩
  · simp only [hout]
    have hlist : Sits start parameterList (base ++ [.keyword, .leftParen]) :=
      hbase.inner (c := [word .rightParen]) (by decide)
    have hbefore : base ++ [.keyword] ++ [.leftParen] = base ++ [.keyword, .leftParen] := by simp
    have hopened : Phase.opened.Reached start (base ++ [.keyword, .leftParen]) []
        (base ++ [.keyword, .leftParen]) := Or.inl ⟨rfl, rfl⟩
    rw [hbefore] at hrest
    have hparameters := answers_parameters hstart (by simp) hlist [] rest hrest hopened
    refine Answers.cons ?_
    rw [hk, hbefore]
    rcases hparameters.elim with ⟨values, used, more, hout, rfl, hleft, row, hafter, hrow⟩ |
      ⟨stop, hout, hstop⟩
    · simp only [hout]
      have hmem := mem_simpleRecord (hrow.imp_right And.left)
      refine Answers.later (.ok ⟨hleft, _, hmem, ?_⟩)
      rw [hafter]
      simp
    · simp only [hout]
      exact hstop
  · simp only [hout]
    exact hstop

/-! ### The end of a record of one group -/

/-- Behind a simple record it is asked first for what follows simple records. -/
theorem foreseen_behindGroup (hstart : start ∈ readable)
    (hbehind : Behind start simpleRecord before) (hparameter : ¬ Behind start parameter before)
    {here : List Terminal} (hhere : ∀ t ∈ here, t ∈ behindGroup) :
    Foreseen start before behindGroup here :=
  .inr ⟨simpleRecord, ends_simpleRecord hbehind hparameter,
    ⟨follows_simpleRecord hstart, by decide, hhere⟩⟩

theorem passes_endOfSimple (hstart : start ∈ readable)
    (h : start.remaining before = {[.semicolon]} * L) (hbehind : Behind start simpleRecord before)
    (ts : List Token) : Passes start before .semicolon L ts (endOfSimple ts) := by
  have hhere := mem_starts_kind h
  have hparameter : ¬ Behind start parameter before :=
    not_behind_of_starts hstart (by decide) (fun t => (hhere t).mp) (by decide)
  have hforeseen : Foreseen start before behindGroup (kinds [.semicolon]) :=
    foreseen_behindGroup hstart hbehind hparameter (by decide)
  rw [h] at hhere
  unfold endOfSimple
  rcases follow_cases h hhere (by decide) hforeseen ts with ⟨hnext, hout⟩ | ⟨stop, hout, hstop⟩
  · rw [hout]
    cases ts with
    | nil => exact absurd hnext (by decide)
    | cons t rest => exact passes_of_kind (by simpa [next, kinds] using hnext) h
  · rw [hout]
    exact .inr ⟨stop, rfl, hstop⟩

/-! ### Records of several groups -/

theorem keyword_of_kind {l : Lexeme} (h : l.kind = .keyword) : ∃ name, l = .keyword name := by
  cases l <;> cases h
  exact ⟨_, rfl⟩

/-- What is left where another part or the end of the parts comes. -/
def moreParts (L : Language LexemeKind) : Language LexemeKind :=
  simpleRecord.language∗ * ({[.rightParen]} * L)

instance : Live (moreParts L) := by
  rw [moreParts]
  infer_instance

theorem moreParts_eq (L : Language LexemeKind) :
    moreParts L = {[.rightParen]} * L + {[.keyword]} * behindKeyword (moreParts L) := by
  conv_lhs => rw [moreParts, kstar_mul, simpleRecord_mul]
  rfl

theorem simpleRecords_mul (L : Language LexemeKind) :
    simpleRecords.language * ({[.rightParen]} * L) =
      {[.keyword]} * behindKeyword (moreParts L) := by
  rw [simpleRecords_eq, mul_assoc, simpleRecord_mul]
  rfl

theorem mem_starts_moreParts (t : Terminal) :
    t ∈ starts (moreParts L) ↔ t ∈ kinds [.keyword, .rightParen] := by
  rw [moreParts_eq, mem_starts_add, mem_starts_lit_mul, mem_starts_lit_mul]
  simp [kinds, or_comm]

theorem quotient_moreParts (L : Language LexemeKind) :
    (moreParts L).leftQuotient [.rightParen] = L ∧
      (moreParts L).leftQuotient [.keyword] = behindKeyword (moreParts L) := by
  constructor
  · rw [moreParts_eq]
    simp [-add_eq_sup, quotient_add, quotient_lit_mul]
  · conv_lhs => rw [moreParts_eq]
    simp [-add_eq_sup, quotient_add, quotient_lit_mul]

/-- Some parts were read since `base`, and another one comes: none so far, or its keyword is
next. -/
inductive Parting (start : Phrase) (base : List LexemeKind) (L : Language LexemeKind) :
    List LexemeKind → Terminal → Prop
  | first {coming : Terminal}
      (h : start.remaining base = {[.keyword]} * behindKeyword (moreParts L)) :
      Parting start base L [] coming
  | more {row : List LexemeKind} (hrow : row ∈ simpleRecords.language)
      (h : start.remaining (base ++ row) = moreParts L) :
      Parting start base L row (.lexeme .keyword)

section Parting

variable {row last : List LexemeKind} {coming : Terminal}

omit [Live L] in
theorem Parting.remaining_keyword (h : Parting start base L row coming) :
    start.remaining (base ++ row ++ [.keyword]) = behindKeyword (moreParts L) := by
  rw [remaining_append]
  cases h with
  | first h => rw [List.append_nil, h, quotient_lit_mul, if_pos rfl]
  | more _ h => rw [h, (quotient_moreParts L).2]

omit [Live L] in
/-- Another part may stand there. -/
theorem Parting.sits (h : Parting start base L row coming) (hbase : Sits start simpleRecords base) :
    Sits start simpleRecord (base ++ row) := by
  cases h with
  | first => exact hbase.inner (a := []) (c := []) (by decide)
  | more hrow =>
    have hmore : Sits start simpleRecord (base ++ ([] ++ (row ++ []))) :=
      hbase.after (c := []) (by decide) hrow
    simpa using hmore

/-- No parameter may stand there, nor behind its keyword. -/
theorem Parting.not_sits (h : Parting start base L row coming) :
    ¬ Sits start parameter (base ++ row) ∧ ¬ Sits start parameter (base ++ row ++ [.keyword]) := by
  have hmem : [] ++ .integer :: [] ∈ parameter.language :=
    mem_language [word .integer] (by decide) (mem_words_word mem_words_nil)
  constructor
  · intro hsits
    have hcomes := hsits.mem_starts hmem
    rw [List.append_nil] at hcomes
    cases h with
    | first h =>
      rw [List.append_nil, h, mem_starts_lit_mul] at hcomes
      cases hcomes
    | more _ h =>
      rw [h, mem_starts_moreParts] at hcomes
      exact absurd hcomes (by decide)
  · intro hsits
    have hcomes := hsits.mem_starts hmem
    rw [List.append_nil, h.remaining_keyword, behindKeyword, mem_starts_lit_mul] at hcomes
    cases hcomes

omit [Live L] in
/-- Some parts and one more are parts. -/
theorem Parting.complete (h : Parting start base L row coming)
    (hlast : last ∈ simpleRecord.language) : row ++ last ∈ simpleRecords.language := by
  cases h with
  | first =>
    have hone : last ++ [] ∈ simpleRecords.language :=
      mem_language [part simpleRecord] (by decide) (mem_words_part hlast mem_words_nil)
    simpa using hone
  | more hrow =>
    have hmore : row ++ (last ++ []) ∈ simpleRecords.language :=
      mem_language [part simpleRecords, part simpleRecord] (by decide)
        (mem_words_part hrow (mem_words_part hlast mem_words_nil))
    simpa using hmore

/-- Where a part has to come and none does, a keyword is expected. -/
theorem Parting.reports (hapart : Apart start base) (h : Parting start base L row (next ts))
    (hnext : next ts ∉ kinds [.keyword]) :
    Reports start (base ++ row) (next ts) (kinds [.keyword]) := by
  generalize hn : next ts = coming at h hnext
  cases h with
  | first h =>
    rw [List.append_nil, ← hn]
    exact reports_kind h hapart (hn ▸ hnext)
  | more => exact absurd (by decide) hnext

end Parting

/-- The parts of a complex record were read up to the parenthesis behind them. -/
def SpansParts (start : Phrase) (base : List LexemeKind) (L : Language LexemeKind)
    (after : List LexemeKind) (groups : List Group) (_ : List Token) : Prop :=
  groups ≠ [] ∧ start.remaining after = L ∧
    ∃ row ∈ simpleRecords.language, after = base ++ (row ++ [.rightParen])

/-- Behind a part there are parts, with more of them or their end to come. -/
theorem parts_of_group (hstart : start ∈ readable) (hbase : Sits start simpleRecords base)
    {row : List LexemeKind} {coming : Terminal} (h : Parting start base L row coming)
    {name : Text} {inside behind : List Token} {part : Group}
    (hgroup : group name inside = .ok (part, behind)) :
    ∃ used more, inside = used ++ behind ∧ more ∈ simpleRecords.language ∧
      base ++ row ++ [.keyword] ++ used.map Token.kind = base ++ more ∧
      start.remaining (base ++ more) = moreParts L ∧
      Foreseen start (base ++ more) behindGroup (kinds [.keyword, .rightParen]) := by
  have hout := answers_group hstart (h.sits hbase) h.remaining_keyword name inside
  rw [hgroup] at hout
  obtain ⟨used, rfl, hrest, last, hlast, hafter⟩ := hout
  rw [hafter] at hrest
  have hbehind : Behind start simpleRecord (base ++ row ++ last) :=
    ⟨base ++ row, last, rfl, hlast, h.sits hbase⟩
  have hparameter : ¬ Behind start parameter (base ++ row ++ last) :=
    not_behind_parameter hlast h.not_sits.1 h.not_sits.2
  rw [List.append_assoc] at hrest hbehind hparameter
  exact ⟨used, row ++ last, rfl, h.complete hlast, by rw [hafter, List.append_assoc], hrest,
    foreseen_behindGroup hstart hbehind hparameter (by decide)⟩

/-- The reader of parts accounts for its answer. -/
theorem answers_parts (hstart : start ∈ readable) (hapart : Apart start base)
    (hbase : Sits start simpleRecords base) (groups : List Group) (ts : List Token)
    {row : List LexemeKind}
    (h : Parting start base L row (next ts)) :
    Answers start (base ++ row) ts (SpansParts start base L) (parts groups ts) := by
  fun_induction parts groups ts generalizing row with
  | case1 => exact .here (h.reports hapart (by decide))
  | case2 groups t inside name ht stop hstop =>
    have hkind : t.kind = .keyword := congrArg Lexeme.kind ht
    have hout := answers_group hstart (h.sits hbase) h.remaining_keyword name inside
    rw [hstop] at hout
    refine Answers.cons ?_
    rw [hkind]
    exact hout
  | case3 groups t inside name ht part behind hgroup stop hstop =>
    have hkind : t.kind = .keyword := congrArg Lexeme.kind ht
    obtain ⟨used, more, rfl, -, hbefore, hrest, hforeseen⟩ :=
      parts_of_group hstart hbase h hgroup
    refine Answers.cons (Answers.later ?_)
    rw [hkind, hbefore]
    rcases follow_cases hrest mem_starts_moreParts (by decide) hforeseen behind with
      ⟨-, hok⟩ | ⟨_, herror, hrefuses⟩
    · rw [hstop] at hok
      cases hok
    · rw [hstop] at herror
      cases herror
      exact hrefuses
  | case4 groups t inside name ht part _ hgroup hfollow => cases hfollow
  | case5 groups t inside name ht part next rest _ hnext hgroup _ =>
    have hkind : t.kind = .keyword := congrArg Lexeme.kind ht
    obtain ⟨used, more, rfl, hmore, hbefore, hrest, -⟩ :=
      parts_of_group hstart hbase h hgroup
    refine Answers.cons (Answers.later ?_)
    rw [hkind, hbefore]
    refine Answers.cons (.ok ⟨by simp, ?_, more, hmore, by rw [hnext, List.append_assoc]⟩)
    rw [hnext, remaining_append, hrest, (quotient_moreParts L).1]
  | case6 groups t inside name ht part word rest _ hnext hgroup hfollow ih =>
    have hkind : t.kind = .keyword := congrArg Lexeme.kind ht
    obtain ⟨used, more, rfl, hmore, hbefore, hrest, hforeseen⟩ :=
      parts_of_group hstart hbase h hgroup
    refine Answers.cons (Answers.later ?_)
    rw [hkind, hbefore]
    have hword : word.kind = .keyword := by
      simpa [next, kinds, hnext] using (follow_eq_ok.mp hfollow).2
    refine ih ?_
    rw [next, hword]
    exact .more hmore hrest
  | case7 groups t rest hother =>
    refine .here (h.reports hapart (next_not_mem fun hkind => ?_))
    obtain ⟨name, hname⟩ := keyword_of_kind (List.mem_singleton.mp hkind)
    exact hother name hname

/-! ### Records with and without a name -/

/-- What is left behind the equals sign of an instance. -/
def behindEquals (L : Language LexemeKind) : Language LexemeKind :=
  {[.keyword]} * behindKeyword ({[.semicolon]} * L) +
    {[.leftParen]} * ({[.keyword]} * behindKeyword (moreParts ({[.semicolon]} * L)))

/-- What is left behind the name of an instance. -/
def behindName (L : Language LexemeKind) : Language LexemeKind := {[.equals]} * behindEquals L

instance : Live (behindEquals L) := by
  rw [behindEquals]
  infer_instance

instance : Live (behindName L) := by
  rw [behindName]
  infer_instance

theorem mem_starts_behindEquals (t : Terminal) :
    t ∈ starts (behindEquals L) ↔ t ∈ kinds [.keyword, .leftParen] := by
  rw [behindEquals, mem_starts_add, mem_starts_lit_mul, mem_starts_lit_mul]
  simp [kinds]

theorem quotient_behindEquals (L : Language LexemeKind) :
    (behindEquals L).leftQuotient [.keyword] = behindKeyword ({[.semicolon]} * L) ∧
      (behindEquals L).leftQuotient [.leftParen] =
        {[.keyword]} * behindKeyword (moreParts ({[.semicolon]} * L)) := by
  rw [behindEquals]
  constructor <;> simp [-add_eq_sup, quotient_add, quotient_lit_mul]

theorem entityInstance_mul (L : Language LexemeKind) :
    entityInstance.language * L = {[.entityName]} * behindName L := by
  rw [behindName, behindEquals, ← simpleRecords_mul, ← simpleRecord_mul, entityInstance_eq]
  simp only [add_mul, mul_assoc]

theorem headerRecord_mul (L : Language LexemeKind) :
    headerRecord.language * L = {[.keyword]} * behindKeyword ({[.semicolon]} * L) := by
  rw [headerRecord_eq, mul_assoc, simpleRecord_mul]

theorem mem_entityInstance {row : List LexemeKind} (h : row ∈ simpleRecord.language) :
    .entityName :: .equals :: (row ++ [.semicolon]) ∈ entityInstance.language :=
  mem_language [word .entityName, word .equals, part simpleRecord, word .semicolon]
    (by decide)
    (mem_words_word (mem_words_word (mem_words_part h (mem_words_word mem_words_nil))))

theorem mem_entityInstance_parts {row : List LexemeKind} (h : row ∈ simpleRecords.language) :
    .entityName :: .equals :: .leftParen :: (row ++ [.rightParen, .semicolon]) ∈
      entityInstance.language :=
  mem_language
    [word .entityName, word .equals, word .leftParen, part simpleRecords, word .rightParen,
      word .semicolon]
    (by decide)
    (mem_words_word (mem_words_word (mem_words_word (mem_words_part h
      (mem_words_word (mem_words_word mem_words_nil))))))

theorem mem_headerRecord {row : List LexemeKind} (h : row ∈ simpleRecord.language) :
    row ++ [.semicolon] ∈ headerRecord.language :=
  mem_language [part simpleRecord, word .semicolon] (by decide)
    (mem_words_part h (mem_words_word mem_words_nil))

/-- A group with the semicolon behind it is read, or one of the two readers refuses. -/
theorem group_endOfSimple (hstart : start ∈ readable) (hsits : Sits start simpleRecord base)
    (h : start.remaining (base ++ [.keyword]) = behindKeyword ({[.semicolon]} * L))
    (keyword : Text) (ts : List Token) :
    (∃ value behind used more, group keyword ts = .ok (value, behind) ∧
      endOfSimple behind = .ok more ∧ ts = used ++ more ∧
      start.remaining (base ++ [.keyword] ++ used.map Token.kind) = L ∧
      ∃ row ∈ simpleRecord.language,
        base ++ [.keyword] ++ used.map Token.kind = base ++ (row ++ [.semicolon])) ∨
    ∃ stop, Refuses start (base ++ [.keyword]) ts stop ∧
      (group keyword ts = .error stop ∨ ∃ value behind, group keyword ts = .ok (value, behind) ∧
        endOfSimple behind = .error stop) := by
  rcases (answers_group hstart hsits h keyword ts).elim with
    ⟨value, used, behind, hgroup, rfl, hrest, row, hrow, hafter⟩ | ⟨stop, hgroup, hstop⟩
  · have hbehind : Behind start simpleRecord (base ++ [.keyword] ++ used.map Token.kind) :=
      ⟨base, row, hafter, hrow, hsits⟩
    rcases passes_endOfSimple hstart hrest hbehind behind with
      ⟨t, more, rfl, hk, hend, hleft⟩ | ⟨stop, hend, hstop⟩
    · have hkinds : base ++ [.keyword] ++ (used ++ [t]).map Token.kind =
          base ++ [.keyword] ++ used.map Token.kind ++ [.semicolon] := by simp [hk]
      refine .inl ⟨value, _, used ++ [t], more, hgroup, hend, by simp, ?_, row, hrow, ?_⟩
      · rw [hkinds, hleft]
      · rw [hkinds, hafter, List.append_assoc]
    · exact .inr ⟨stop, hstop.later, .inr ⟨value, behind, hgroup, hend⟩⟩
  · exact .inr ⟨stop, hstop, .inl hgroup⟩

/-- The reader of a record without name accounts for its answer. -/
theorem answers_unnamedRecord (hstart : start ∈ readable) (hbase : Sits start headerRecord base)
    (h : start.remaining (base ++ [.keyword]) = behindKeyword ({[.semicolon]} * L))
    (keyword : Text) (name : Token) (ts : List Token) :
    Answers start (base ++ [.keyword]) ts (Spans start base L headerRecord)
      (unnamedRecord keyword name ts) := by
  have hsits : Sits start simpleRecord base := by
    have hinner : Sits start simpleRecord (base ++ []) :=
      hbase.inner (c := [word .semicolon]) (by decide)
    simpa using hinner
  unfold unnamedRecord
  rcases group_endOfSimple hstart hsits h keyword ts with
    ⟨value, behind, used, more, hgroup, hend, rfl, hrest, row, hrow, hafter⟩ |
    ⟨stop, hstop, hgroup | ⟨value, behind, hgroup, hend⟩⟩
  · simp only [hgroup, hend]
    exact Answers.later (.ok ⟨hrest, _, mem_headerRecord hrow, hafter⟩)
  · simp only [hgroup]
    exact hstop
  · simp only [hgroup, hend]
    exact hstop

/-- Parts with the semicolon behind them are read, or one of the two readers refuses. -/
theorem parts_semicolon (hstart : start ∈ readable) {front : List LexemeKind}
    (hfront : base = front ++ [.equals] ++ [.leftParen]) (hsits : Sits start simpleRecords base)
    (h : start.remaining base = {[.keyword]} * behindKeyword (moreParts ({[.semicolon]} * L)))
    (ts : List Token) :
    (∃ first others behind used more, parts [] ts = .ok (first :: others, behind) ∧
      require .semicolon behind = .ok more ∧ ts = used ++ more ∧
      start.remaining (base ++ used.map Token.kind) = L ∧
      ∃ row ∈ simpleRecords.language,
        base ++ used.map Token.kind = base ++ (row ++ [.rightParen, .semicolon])) ∨
    ∃ stop, Refuses start base ts stop ∧ (parts [] ts = .error stop ∨
      ∃ first others behind, parts [] ts = .ok (first :: others, behind) ∧
        require .semicolon behind = .error stop) := by
  have hapart : Apart start base := by
    rw [hfront]
    exact apart_of_last (by decide)
  have hanswers := answers_parts hstart hapart hsits [] ts (.first h)
  rw [List.append_nil] at hanswers
  rcases hanswers.elim with
    ⟨groups, used, behind, hparts, rfl, hsome, hrest, row, hrow, hafter⟩ | ⟨stop, hparts, hstop⟩
  · obtain ⟨first, others, rfl⟩ := List.exists_cons_of_ne_nil hsome
    have hclosed : Apart start (base ++ used.map Token.kind) := by
      have hgroup : base ++ used.map Token.kind = front ++ [.equals] ++ enclosed row := by
        rw [hafter, hfront]
        simp [enclosed]
      rw [hgroup] at hrest ⊢
      exact apart_of_enclosed hstart (nested_of_mem (by decide) hrow) (by decide) hrest
    rcases passes_require hrest hclosed behind with
      ⟨t, more, rfl, hk, hend, hleft⟩ | ⟨stop, hend, hstop⟩
    · have hkinds : base ++ (used ++ [t]).map Token.kind =
          base ++ used.map Token.kind ++ [.semicolon] := by simp [hk]
      refine .inl ⟨first, others, _, used ++ [t], more, hparts, hend, by simp, ?_, row, hrow, ?_⟩
      · rw [hkinds, hleft]
      · rw [hkinds, hafter]
        simp
    · exact .inr ⟨stop, hstop.later, .inr ⟨first, others, behind, hparts, hend⟩⟩
  · exact .inr ⟨stop, hstop, .inl hparts⟩

/-- A record of one group is read behind the equals sign, up to the semicolon. -/
theorem answers_namedGroup (hstart : start ∈ readable) (hbase : Sits start entityInstance base)
    (h : start.remaining (base ++ [.entityName, .equals]) = behindEquals L)
    {ts rest : List Token} {t : Token} {keyword : Text}
    (hequals : require .equals ts = .ok (t :: rest)) (ht : t.lexeme = .keyword keyword)
    (id : Nat) (name : Token) :
    Answers start (base ++ [.entityName, .equals]) (t :: rest)
      (Spans start base L entityInstance) (namedRecord id name ts) := by
  have hkind : t.kind = .keyword := congrArg Lexeme.kind ht
  have hsits : Sits start simpleRecord (base ++ [.entityName, .equals]) :=
    hbase.inner (c := [word .semicolon]) (by decide)
  have hinside : start.remaining (base ++ [.entityName, .equals] ++ [.keyword]) =
      behindKeyword ({[.semicolon]} * L) := by
    rw [remaining_append, h, (quotient_behindEquals L).1]
  refine Answers.cons ?_
  rw [hkind]
  simp only [namedRecord, hequals, ht]
  rcases group_endOfSimple hstart hsits hinside keyword rest with
    ⟨value, behind, used, more, hgroup, hend, rfl, hleft, row, hrow, hafter⟩ |
    ⟨stop, hstop, hgroup | ⟨value, behind, hgroup, hend⟩⟩
  · simp only [hgroup, hend]
    refine Answers.later (.ok ⟨hleft, _, mem_entityInstance hrow, ?_⟩)
    rw [hafter]
    simp
  · simp only [hgroup]
    exact hstop
  · simp only [hgroup, hend]
    exact hstop

/-- A record of several groups is read behind the equals sign, up to the semicolon. -/
theorem answers_namedGroups (hstart : start ∈ readable) (hbase : Sits start entityInstance base)
    (h : start.remaining (base ++ [.entityName, .equals]) = behindEquals L)
    {ts rest : List Token} {t : Token} (hequals : require .equals ts = .ok (t :: rest))
    (ht : t.lexeme = .leftParen) (id : Nat) (name : Token) :
    Answers start (base ++ [.entityName, .equals]) (t :: rest)
      (Spans start base L entityInstance) (namedRecord id name ts) := by
  have hkind : t.kind = .leftParen := congrArg Lexeme.kind ht
  have hsits : Sits start simpleRecords (base ++ [.entityName, .equals, .leftParen]) :=
    hbase.inner (c := [word .rightParen, word .semicolon]) (by decide)
  have hopened : base ++ [.entityName, .equals] ++ [.leftParen] =
      base ++ [.entityName, .equals, .leftParen] := by simp
  have hinside : start.remaining (base ++ [.entityName, .equals, .leftParen]) =
      {[.keyword]} * behindKeyword (moreParts ({[.semicolon]} * L)) := by
    rw [← hopened, remaining_append, h, (quotient_behindEquals L).2]
  have hopening : base ++ [.entityName, .equals, .leftParen] =
      base ++ [.entityName] ++ [.equals] ++ [.leftParen] := by simp
  refine Answers.cons ?_
  rw [hkind, hopened]
  simp only [namedRecord, hequals, ht]
  rcases parts_semicolon hstart hopening hsits hinside rest with
    ⟨first, others, behind, used, more, hparts, hend, rfl, hleft, row, hrow, hafter⟩ |
    ⟨stop, hstop, hparts | ⟨first, others, behind, hparts, hend⟩⟩
  · simp only [hparts, hend]
    refine Answers.later (.ok ⟨hleft, _, mem_entityInstance_parts hrow, ?_⟩)
    rw [hafter]
    simp
  · simp only [hparts]
    exact hstop
  · simp only [hparts, hend]
    exact hstop

/-- Behind the equals sign of an instance its record is read. -/
theorem answers_namedRecord (hstart : start ∈ readable) (hbase : Sits start entityInstance base)
    (h : start.remaining (base ++ [.entityName]) = behindName L)
    (id : Nat) (name : Token) (ts : List Token) :
    Answers start (base ++ [.entityName]) ts (Spans start base L entityInstance)
      (namedRecord id name ts) := by
  rcases passes_require h (apart_of_kind hstart h (by decide)) ts with
    ⟨t, rest, rfl, hk, hequals, hrest⟩ | ⟨stop, hequals, hstop⟩
  · have hbefore : base ++ [.entityName] ++ [.equals] = base ++ [.entityName, .equals] := by simp
    have hapart : Apart start (base ++ [.entityName] ++ [.equals]) := apart_of_last (by decide)
    rw [hbefore] at hrest hapart
    refine Answers.cons ?_
    rw [hk, hbefore]
    cases rest with
    | nil =>
      simp only [namedRecord, hequals]
      exact .here (.of_apart hrest mem_starts_behindEquals (by decide) (by decide) hapart)
    | cons u rest =>
      cases hlexeme : u.lexeme with
      | keyword keyword => exact answers_namedGroup hstart hbase hrest hequals hlexeme id name
      | leftParen => exact answers_namedGroups hstart hbase hrest hequals hlexeme id name
      | _ =>
        simp only [namedRecord, hequals, hlexeme]
        refine .here (.of_apart hrest mem_starts_behindEquals (by decide) (next_not_mem ?_) hapart)
        simp [Token.kind, hlexeme, Lexeme.kind]
  · simp only [namedRecord, hequals]
    exact hstop

end Records

end Reader

end Part21
