import Part21.Proofs.Exchange.Endings
import Part21.Proofs.Exchange.Records
import Part21.Proofs.Text.Order

set_option autoImplicit false

/-!
# What a reader of records reports

Where a reader stops, the tokens before are the start of a row that the grammar derives, and with
the offending token behind them they are not.  What is reported as expected is what can come in its
place, and in one situation more than that: right behind a complete parameter, simple record or
instance, in front of a token that follows no such phrase anywhere (`Phrase.Strays`), it is all that
follows one somewhere.  There is at most one such phrase (`Phrase.Ends`), so what is expected is
determined by the tokens (`Phrase.Reports`).

Readers are followed along left quotients: what has been read so far determines the rows that are
left, and each reader takes off its own part (`Phrase.Answers`).
-/

namespace Part21

open Computability

namespace Phrase

/-! ## Reports -/

/-- What comes next never comes behind a phrase that is complete there. -/
def Strays (start : Phrase) (before : List LexemeKind) (next : Terminal) (phrase : Phrase) : Prop :=
  Behind start phrase before ∧ next ∉ follows start phrase

/-- What is said of a fault in front of `next`. -/
structure Reports (start : Phrase) (before : List LexemeKind) (next : Terminal)
    (expected : List Terminal) : Prop where
  /-- what comes before is the start of a row -/
  viable : ∃ rest, before ++ rest ∈ start.language
  /-- what comes next is not the start of what is left -/
  offends : next ∉ starts (start.remaining before)
  /-- what is expected is listed in ascending order by name -/
  ascends : (Text.sorted (expected.map Terminal.name)).Pairwise
    fun a b => Text.le a b = true ∧ a ≠ b
  /-- whatever can come is expected -/
  covers : ∀ t ∈ starts (start.remaining before), t ∈ expected
  /-- nothing else is expected, unless what comes next strays -/
  exact : (∀ phrase ∈ completed, ¬ Strays start before next phrase) →
    ∀ t ∈ expected, t ∈ starts (start.remaining before)
  /-- if it does, what is expected is what follows the complete phrase anywhere -/
  merged : ∀ phrase ∈ completed, Strays start before next phrase →
    ∀ t, t ∈ expected ↔ t ∈ follows start phrase

section Reports

variable {start phrase : Phrase} {before : List LexemeKind} {next : Terminal}
  {expected : List Terminal} {L : Language LexemeKind}

theorem viable_of_remaining [Live L] (h : start.remaining before = L) :
    ∃ rest, before ++ rest ∈ start.language := by
  obtain ⟨rest, hrest⟩ := Live.some (L := L)
  rw [← h] at hrest
  exact ⟨rest, hrest⟩

/-- What can come is reported. -/
theorem Reports.of_starts [Live L] (h : start.remaining before = L)
    (hstarts : ∀ t, t ∈ starts L ↔ t ∈ expected) (hnames : (expected.map Terminal.name).Nodup)
    (hnext : next ∉ expected)
    (hmerged : ∀ phrase ∈ completed, Strays start before next phrase →
      ∀ t, t ∈ expected ↔ t ∈ follows start phrase) :
    Reports start before next expected := by
  subst h
  exact ⟨viable_of_remaining rfl, fun hoffends => hnext ((hstarts next).mp hoffends),
    Text.sorted_ascends hnames, fun t => (hstarts t).mp, fun _ t => (hstarts t).mpr, hmerged⟩

/-- What can come is reported apart from complete phrases. -/
theorem Reports.of_apart [Live L] (h : start.remaining before = L)
    (hstarts : ∀ t, t ∈ starts L ↔ t ∈ expected) (hnames : (expected.map Terminal.name).Nodup)
    (hnext : next ∉ expected) (hapart : Apart start before) : Reports start before next expected :=
  .of_starts h hstarts hnames hnext fun phrase hphrase hstrays =>
    absurd hstrays.1 (hapart phrase hphrase)

/-- Behind a phrase what can come is reported in front of what follows it somewhere. -/
theorem Reports.of_mem_follows [Live L] (h : start.remaining before = L)
    (hstarts : ∀ t, t ∈ starts L ↔ t ∈ expected) (hnames : (expected.map Terminal.name).Nodup)
    (hnext : next ∉ expected) (hends : Ends start phrase before)
    (hfollows : next ∈ follows start phrase) : Reports start before next expected := by
  refine .of_starts h hstarts hnames hnext fun other hother hstrays => ?_
  obtain rfl : other = phrase := by
    by_contra hne
    exact hends.alone other hother hne hstrays.1
  exact absurd hfollows hstrays.2

/-- Behind a phrase what follows it somewhere is reported in front of what does not. -/
theorem Reports.of_follows [Live L] (h : start.remaining before = L)
    (hstarts : ∀ t, t ∈ starts L → t ∈ expected) (hnames : (expected.map Terminal.name).Nodup)
    (hnext : next ∉ expected) (hends : Ends start phrase before)
    (hfollows : ∀ t, t ∈ follows start phrase ↔ t ∈ expected) :
    Reports start before next expected := by
  subst h
  have hstray : Strays start before next phrase :=
    ⟨hends.behind, fun hmem => hnext ((hfollows next).mp hmem)⟩
  refine ⟨viable_of_remaining rfl, fun hoffends => hnext (hstarts next hoffends),
    Text.sorted_ascends hnames, hstarts,
    fun hnone => absurd hstray (hnone phrase hends.complete), ?_⟩
  intro other hother hstrays t
  obtain rfl : other = phrase := by
    by_contra hne
    exact hends.alone other hother hne hstrays.1
  exact (hfollows t).symm

end Reports

/-! ## Answers -/

/-- A reader that was given some tokens stops among them, and what it says there is in order. -/
def Refuses (start : Phrase) (before : List LexemeKind) (ts : List Token) (stop : Stop) : Prop :=
  ∃ used, ts = used ++ stop.rest ∧
    Reports start (before ++ used.map Token.kind) (Reader.next stop.rest) stop.expected

/-- What a reader answers is accounted for: behind the tokens it has used up `done` holds of the
start of the row, of the value and of what is left, or a fault is reported there. -/
def Answers {α : Type} (start : Phrase) (before : List LexemeKind) (ts : List Token)
    (done : List LexemeKind → α → List Token → Prop) : Answer α → Prop
  | .ok (value, more) =>
    ∃ used, ts = used ++ more ∧ done (before ++ used.map Token.kind) value more
  | .error stop => Refuses start before ts stop

section Answers

variable {α : Type} {start : Phrase} {before : List LexemeKind} {ts : List Token}
  {done : List LexemeKind → α → List Token → Prop}

theorem Refuses.here {expected : List Terminal}
    (h : Reports start before (Reader.next ts) expected) :
    Refuses start before ts ⟨ts, expected⟩ :=
  ⟨[], rfl, by simpa using h⟩

/-- What is said behind some tokens is said in front of them. -/
theorem Refuses.later {used : List Token} {stop : Stop}
    (h : Refuses start (before ++ used.map Token.kind) ts stop) :
    Refuses start before (used ++ ts) stop := by
  obtain ⟨more, hmore, hreports⟩ := h
  exact ⟨used ++ more, by simp [hmore], by simpa using hreports⟩

theorem Answers.ok {value : α} (h : done before value ts) :
    Answers start before ts done (.ok (value, ts)) :=
  ⟨[], rfl, by simpa using h⟩

theorem Answers.here {expected : List Terminal}
    (h : Reports start before (Reader.next ts) expected) :
    Answers start before ts done (.error ⟨ts, expected⟩) :=
  Refuses.here h

theorem Answers.later {used : List Token} {outcome : Answer α}
    (h : Answers start (before ++ used.map Token.kind) ts done outcome) :
    Answers start before (used ++ ts) done outcome := by
  cases outcome with
  | ok result =>
    obtain ⟨more, rfl, hdone⟩ := h
    exact ⟨used ++ more, by simp, by simpa using hdone⟩
  | error stop => exact Refuses.later h

theorem Answers.cons {t : Token} {outcome : Answer α}
    (h : Answers start (before ++ [t.kind]) ts done outcome) :
    Answers start before (t :: ts) done outcome :=
  @Answers.later _ _ _ _ _ [t] _ h

/-- A reader answers with a value behind the tokens it has used up, or with a fault. -/
theorem Answers.elim {outcome : Answer α} (h : Answers start before ts done outcome) :
    (∃ value used more, outcome = .ok (value, more) ∧ ts = used ++ more ∧
      done (before ++ used.map Token.kind) value more) ∨
    ∃ stop, outcome = .error stop ∧ Refuses start before ts stop := by
  cases outcome with
  | ok result =>
    obtain ⟨used, hused, hdone⟩ := h
    exact .inl ⟨result.1, used, result.2, rfl, hused, hdone⟩
  | error stop => exact .inr ⟨stop, rfl, h⟩

theorem Answers.imp {other : List LexemeKind → α → List Token → Prop} {outcome : Answer α}
    (h : Answers start before ts done outcome)
    (hdone : ∀ after value more, done after value more → other after value more) :
    Answers start before ts other outcome := by
  cases outcome with
  | ok result =>
    obtain ⟨used, hused, hresult⟩ := h
    exact ⟨used, hused, hdone _ _ _ hresult⟩
  | error stop => exact h

end Answers

end Phrase

namespace Reader

open Phrase

/-! ## Parameters -/

/-- What is left of a row of parameters behind one of them. -/
def moreParameters : Language LexemeKind := ({[.comma]} * parameter.language)∗

/-- What is left behind a parameter in some frames, with `L` behind the group. -/
def closing : List Frame → Language LexemeKind → Language LexemeKind
  | [], L => moreParameters * ({[.rightParen]} * L)
  | .row _ :: outer, L => moreParameters * ({[.rightParen]} * closing outer L)
  | .typed _ :: outer, L => {[.rightParen]} * closing outer L

/-- What is left behind the innermost frame. -/
def outside : List Frame → Language LexemeKind → Language LexemeKind
  | [], L => L
  | _ :: outer, L => closing outer L

/-- What is left in a phase. -/
def Phase.left (frames : List Frame) (L : Language LexemeKind) : Phase → Language LexemeKind
  | .opened => parameter.language * closing frames L + {[.rightParen]} * outside frames L
  | .wanted => parameter.language * closing frames L
  | .named _ => {[.leftParen]} * (parameter.language * ({[.rightParen]} * closing frames L))
  | .filled _ => closing frames L

/-- A list of parameters was begun: nothing of it is there yet, or some and a comma. -/
def Begun (row : List LexemeKind) : Prop :=
  row = [] ∨ ∃ items ∈ parameterList.language, row = items ++ [.comma]

/-- What was read since `base` up to where a parameter has to come in some frames, and no simple
record can. -/
inductive Opens (start : Phrase) (base : List LexemeKind) : List Frame → List LexemeKind → Prop
  | items {row : List LexemeKind} (hrow : Begun row)
      (hapart : ¬ Sits start simpleRecord (base ++ row)) : Opens start base [] (base ++ row)
  | row {items : List Parameter} {outer : List Frame} {front row : List LexemeKind}
      (houter : Opens start base outer front) (hrow : Begun row)
      (hapart : ¬ Sits start simpleRecord (front ++ ([.leftParen] ++ row))) :
      Opens start base (.row items :: outer) (front ++ ([.leftParen] ++ row))
  | typed {keyword : Text} {outer : List Frame} {front : List LexemeKind}
      (houter : Opens start base outer front)
      (hapart : ¬ Sits start simpleRecord (front ++ [.keyword, .leftParen])) :
      Opens start base (.typed keyword :: outer) (front ++ [.keyword, .leftParen])

/-- What was read since `base` in some frames up to a phase. -/
def Phase.Reached (start : Phrase) (base : List LexemeKind) (frames : List Frame)
    (before : List LexemeKind) : Phase → Prop
  | .opened =>
    (frames = [] ∧ before = base) ∨
      ∃ outer front, frames = .row [] :: outer ∧ before = front ++ [.leftParen] ∧
        Opens start base outer front
  | .wanted => Opens start base frames before
  | .named _ => ∃ front, before = front ++ [.keyword] ∧ Opens start base frames front
  | .filled _ =>
    ∃ front row, before = front ++ row ∧ row ∈ parameter.language ∧ Opens start base frames front

section Closing

variable (frames : List Frame) (L : Language LexemeKind)

instance : Live moreParameters := inferInstanceAs (Live (KStar.kstar _))

instance [Live L] : Live (closing frames L) := by
  induction frames with
  | nil =>
    rw [closing]
    infer_instance
  | cons frame outer ih => cases frame <;> · rw [closing]; infer_instance

instance [Live L] : Live (outside frames L) := by
  cases frames <;> · rw [outside]; infer_instance

theorem moreParameters_mul :
    moreParameters * L = L + {[.comma]} * (parameter.language * (moreParameters * L)) := by
  conv_lhs => rw [moreParameters, kstar_mul, mul_assoc]
  rfl

theorem parameterList_mul :
    parameterList.language * L = parameter.language * (moreParameters * L) := by
  rw [parameterList_eq, mul_assoc]
  rfl

theorem quotient_moreParameters :
    (moreParameters * ({[.rightParen]} * L)).leftQuotient [.rightParen] = L ∧
      (moreParameters * ({[.rightParen]} * L)).leftQuotient [.comma] =
        parameter.language * (moreParameters * ({[.rightParen]} * L)) := by
  constructor
  · rw [moreParameters_mul]
    simp [-add_eq_sup, quotient_add, quotient_lit_mul]
  · conv_lhs => rw [moreParameters_mul]
    simp [-add_eq_sup, quotient_add, quotient_lit_mul]

/-- A closing parenthesis closes the innermost frame. -/
theorem quotient_closing_rightParen :
    (closing frames L).leftQuotient [.rightParen] = outside frames L := by
  cases frames with
  | nil => exact (quotient_moreParameters L).1
  | cons frame outer =>
    cases frame with
    | row items => exact (quotient_moreParameters (closing outer L)).1
    | typed keyword =>
      rw [closing, quotient_lit_mul]
      rfl

/-- Behind a comma another parameter comes, if the innermost frame is a row. -/
theorem quotient_closing_comma (h : ∀ keyword outer, frames ≠ .typed keyword :: outer) :
    (closing frames L).leftQuotient [.comma] = parameter.language * closing frames L := by
  cases frames with
  | nil => exact (quotient_moreParameters L).2
  | cons frame outer =>
    cases frame with
    | row items => exact (quotient_moreParameters (closing outer L)).2
    | typed keyword => exact absurd rfl (h keyword outer)

/-- A list that was just opened is closed, or a parameter comes. -/
theorem quotient_opened (kind : LexemeKind) :
    (Phase.opened.left frames L).leftQuotient [kind] =
      if kind = .rightParen then outside frames L
      else (parameter.language * closing frames L).leftQuotient [kind] := by
  rw [Phase.left, quotient_add, quotient_lit_mul]
  by_cases hkind : kind = .rightParen
  · subst hkind
    rw [parameter_mul]
    simp [-add_eq_sup, quotient_add, quotient_lit_mul]
  · rw [if_neg hkind, if_neg (Ne.symm hkind), add_zero]

theorem mem_starts_closing [Live L] (next : Terminal) :
    next ∈ starts (closing frames L) ↔
      next = .lexeme .rightParen ∨ next = .lexeme .comma ∧ ∀ keyword outer,
        frames ≠ .typed keyword :: outer := by
  cases frames with
  | nil =>
    rw [closing, moreParameters_mul, mem_starts_add, mem_starts_lit_mul, mem_starts_lit_mul]
    simp
  | cons frame outer =>
    cases frame with
    | row items =>
      rw [closing, moreParameters_mul, mem_starts_add, mem_starts_lit_mul, mem_starts_lit_mul]
      simp
    | typed keyword =>
      rw [closing, mem_starts_lit_mul]
      simp

end Closing

section Steps

variable {start : Phrase} {before : List LexemeKind} {frames : List Frame}
  {L : Language LexemeKind}

instance [Live L] (phase : Phase) : Live (phase.left frames L) := by
  cases phase <;> · rw [Phase.left]; infer_instance

/-- In a phase in which a parameter may come. -/
theorem quotient_awaits {phase : Phase} (hphase : phase.Awaits) {kind : LexemeKind}
    (hkind : kind ≠ .rightParen) :
    (phase.left frames L).leftQuotient [kind] =
      (parameter.language * closing frames L).leftQuotient [kind] := by
  rcases hphase with rfl | rfl
  · rw [quotient_opened, if_neg hkind]
  · rfl

theorem remaining_literal {phase : Phase} (hphase : phase.Awaits)
    (h : start.remaining before = phase.left frames L) {kind : LexemeKind}
    (hkind : kind ∈ literals) : start.remaining (before ++ [kind]) = closing frames L := by
  have hother : kind ≠ .rightParen := by
    rintro rfl
    exact absurd hkind (by decide)
  rw [remaining_append, h, quotient_awaits hphase hother, quotient_literal _ hkind]

theorem remaining_leftParen {phase : Phase} (hphase : phase.Awaits)
    (h : start.remaining before = phase.left frames L) (items : List Parameter) :
    start.remaining (before ++ [.leftParen]) = Phase.opened.left (.row items :: frames) L := by
  rw [remaining_append, h, quotient_awaits hphase (by decide), quotient_leftParen,
    parameterList_mul]
  rfl

theorem remaining_keyword {phase : Phase} (hphase : phase.Awaits)
    (h : start.remaining before = phase.left frames L) (keyword : Text) :
    start.remaining (before ++ [.keyword]) = (Phase.named keyword).left frames L := by
  rw [remaining_append, h, quotient_awaits hphase (by decide), quotient_keyword]
  rfl

theorem remaining_named {keyword : Text}
    (h : start.remaining before = (Phase.named keyword).left frames L) :
    start.remaining (before ++ [.leftParen]) =
      Phase.wanted.left (.typed keyword :: frames) L := by
  rw [remaining_append, h]
  exact quotient_lit_mul .leftParen .leftParen

theorem remaining_comma (h : start.remaining before = closing frames L)
    (hframes : ∀ keyword outer, frames ≠ .typed keyword :: outer) :
    start.remaining (before ++ [.comma]) = Phase.wanted.left frames L := by
  rw [remaining_append, h]
  exact quotient_closing_comma frames L hframes

/-- Where a parameter may come no simple record may: its group could be empty. -/
theorem not_sits_of_awaits [Live L] {phase : Phase} (hphase : phase.Awaits)
    (h : start.remaining before = phase.left frames L) : ¬ Sits start simpleRecord before := by
  intro hsits
  have hempty : [.keyword, .leftParen] ++ .rightParen :: [] ∈ simpleRecord.language :=
    empty_mem_simpleRecord
  have hcomes := hsits.mem_starts hempty
  have hinside : start.remaining (before ++ [.keyword, .leftParen]) =
      Phase.wanted.left (.typed [] :: frames) L := by
    rw [← remaining_named (remaining_keyword hphase h []), List.append_assoc]
    rfl
  rw [hinside, Phase.left, mem_starts_parameter] at hcomes
  exact absurd hcomes (by decide)

end Steps

/-! ### What was read -/

theorem Begun.complete {row last : List LexemeKind} (h : Begun row)
    (hlast : last ∈ parameter.language) : row ++ last ∈ parameterList.language := by
  rcases h with rfl | ⟨items, hitems, rfl⟩
  · have hsingle : last ++ [] ∈ parameterList.language :=
      mem_language [part parameter] (by decide) (mem_words_part hlast mem_words_nil)
    simpa using hsingle
  · have hmore : items ++ (.comma :: (last ++ [])) ∈ parameterList.language :=
      mem_language [part parameterList, word .comma, part parameter] (by decide)
        (mem_words_part hitems (mem_words_word (mem_words_part hlast mem_words_nil)))
    simpa using hmore

theorem Begun.sits {start : Phrase} {before row : List LexemeKind} (h : Begun row)
    (hbefore : Sits start parameterList before) : Sits start parameter (before ++ row) := by
  rcases h with rfl | ⟨items, hitems, rfl⟩
  · exact hbefore.inner (a := []) (c := []) (by decide)
  · exact hbefore.after (a := []) (b := [.comma]) (c := []) (by decide) hitems

section Reached

variable {start : Phrase} {base before : List LexemeKind} {frames : List Frame}
  {L : Language LexemeKind} [Live L]

/-- A parameter may stand where one has to come. -/
theorem Opens.sits (hbase : Sits start parameterList base) (h : Opens start base frames before) :
    Sits start parameter before := by
  induction h with
  | items hrow => exact hrow.sits hbase
  | row _ hrow _ ih =>
    rw [← List.append_assoc]
    exact hrow.sits (ih.inner (c := [word .rightParen]) (by decide))
  | typed _ _ ih =>
    exact ih.inner (a := [.keyword, .leftParen]) (c := [word .rightParen]) (by decide)

theorem Opens.apart (h : Opens start base frames before) : ¬ Sits start simpleRecord before := by
  cases h <;> assumption

/-- A parameter has to come behind a comma or an opening parenthesis. -/
theorem Opens.exists_last (hbase : base.getLast? = some .leftParen)
    (h : Opens start base frames before) :
    ∃ front, ∃ kind ∈ [.comma, .leftParen], before = front ++ [kind] := by
  cases h with
  | items hrow =>
    rcases hrow with rfl | ⟨items, -, rfl⟩
    · obtain ⟨front, rfl⟩ := List.getLast?_eq_some_iff.mp hbase
      exact ⟨front, .leftParen, by decide, List.append_nil _⟩
    · exact ⟨base ++ items, .comma, by decide, (List.append_assoc ..).symm⟩
  | @row _ _ front _ _ hrow =>
    rcases hrow with rfl | ⟨items, -, rfl⟩
    · exact ⟨front, .leftParen, by decide, rfl⟩
    · exact ⟨front ++ ([.leftParen] ++ items), .comma, by decide, by simp⟩
  | @typed _ _ front => exact ⟨front ++ [.keyword], .leftParen, by decide, by simp⟩

theorem opens_of_reached {phase : Phase} (hphase : phase.Awaits)
    (hleft : start.remaining before = phase.left frames L)
    (h : phase.Reached start base frames before) : Opens start base frames before := by
  have hapart := not_sits_of_awaits hphase hleft
  rcases hphase with rfl | rfl
  · rcases h with ⟨rfl, rfl⟩ | ⟨outer, front, rfl, rfl, houter⟩
    · have hitems : Opens start before [] (before ++ []) :=
        .items (.inl rfl) (by rwa [List.append_nil])
      simpa using hitems
    · have hrow : Opens start base (.row [] :: outer) (front ++ ([.leftParen] ++ [])) :=
        .row houter (.inl rfl) (by rwa [List.append_nil])
      simpa using hrow
  · exact h

section Awaits

variable {phase : Phase} (hphase : phase.Awaits)
  (hleft : start.remaining before = phase.left frames L)
  (h : phase.Reached start base frames before)

include hphase hleft h

theorem reached_literal {kind : LexemeKind} (hkind : kind ∈ literals) (value : Parameter) :
    (Phase.filled value).Reached start base frames (before ++ [kind]) := by
  refine ⟨before, [kind], rfl, ?_, opens_of_reached hphase hleft h⟩
  have hforms : ∀ kind ∈ literals, [word kind] ∈ parameter.forms := by decide
  exact mem_language [word kind] (hforms kind hkind) (mem_words_word mem_words_nil)

theorem reached_leftParen :
    Phase.opened.Reached start base (.row [] :: frames) (before ++ [.leftParen]) :=
  .inr ⟨frames, before, rfl, rfl, opens_of_reached hphase hleft h⟩

theorem reached_keyword (keyword : Text) :
    (Phase.named keyword).Reached start base frames (before ++ [.keyword]) :=
  ⟨before, rfl, opens_of_reached hphase hleft h⟩

end Awaits

theorem reached_named {keyword : Text}
    (hleft : start.remaining before = (Phase.named keyword).left frames L)
    (h : (Phase.named keyword).Reached start base frames before) :
    Phase.wanted.Reached start base (.typed keyword :: frames) (before ++ [.leftParen]) := by
  have hapart := not_sits_of_awaits (.inr rfl) (remaining_named hleft)
  obtain ⟨front, rfl, hfront⟩ := h
  rw [List.append_assoc] at hapart ⊢
  exact Opens.typed hfront hapart

/-- A comma goes on with a row. -/
theorem reached_comma {value : Parameter}
    (hleft : start.remaining before = (Phase.filled value).left frames L)
    (h : (Phase.filled value).Reached start base frames before) :
    (frames = [] → Phase.wanted.Reached start base [] (before ++ [.comma])) ∧
      ∀ row outer items, frames = .row row :: outer →
        Phase.wanted.Reached start base (.row items :: outer) (before ++ [.comma]) := by
  obtain ⟨front, last, rfl, hlast, hfront⟩ := h
  cases hfront with
  | @items row hrow =>
    refine ⟨fun _ => ?_, by simp⟩
    have hapart := not_sits_of_awaits (.inr rfl) (remaining_comma hleft (by simp))
    have hparts : base ++ row ++ last ++ [.comma] = base ++ (row ++ last ++ [.comma]) := by simp
    rw [hparts] at hapart ⊢
    exact Opens.items (.inr ⟨_, hrow.complete hlast, rfl⟩) hapart
  | @row _ outer front row houter hrow =>
    refine ⟨by simp, ?_⟩
    rintro _ _ items ⟨⟩
    have hapart := not_sits_of_awaits (.inr rfl) (remaining_comma hleft (by simp))
    have hparts : front ++ ([.leftParen] ++ row) ++ last ++ [.comma] =
        front ++ ([.leftParen] ++ (row ++ last ++ [.comma])) := by simp
    rw [hparts] at hapart ⊢
    exact Opens.row houter (.inr ⟨_, hrow.complete hlast, rfl⟩) hapart
  | typed => simp

omit [Live L] in
/-- A closing parenthesis ends a group, or makes a parameter of the innermost frame. -/
theorem reached_rightParen {value : Parameter}
    (h : (Phase.filled value).Reached start base frames before) :
    (frames = [] →
      ∃ row ∈ parameterList.language, before ++ [.rightParen] = base ++ (row ++ [.rightParen])) ∧
      ∀ frame outer whole, frames = frame :: outer →
        (Phase.filled whole).Reached start base outer (before ++ [.rightParen]) := by
  obtain ⟨front, last, rfl, hlast, hfront⟩ := h
  cases hfront with
  | @items row hrow => exact ⟨fun _ => ⟨row ++ last, hrow.complete hlast, by simp⟩, by simp⟩
  | @row _ outer front row houter hrow =>
    refine ⟨by simp, ?_⟩
    rintro _ _ whole ⟨⟩
    refine ⟨front, .leftParen :: ((row ++ last) ++ [.rightParen]), by simp, ?_, houter⟩
    exact mem_language [word .leftParen, part parameterList, word .rightParen] (by decide)
      (mem_words_word (mem_words_part (hrow.complete hlast) (mem_words_word mem_words_nil)))
  | @typed _ outer front houter =>
    refine ⟨by simp, ?_⟩
    rintro _ _ whole ⟨⟩
    refine ⟨front, .keyword :: .leftParen :: (last ++ [.rightParen]), by simp, ?_, houter⟩
    exact mem_language [word .keyword, word .leftParen, part parameter, word .rightParen]
      (by decide)
      (mem_words_word (mem_words_word
        (mem_words_part hlast (mem_words_word mem_words_nil))))

omit [Live L] in
/-- A list without items is closed. -/
theorem reached_empty {outer : List Frame}
    (h : Phase.opened.Reached start base (.row [] :: outer) before) (whole : Parameter) :
    (Phase.filled whole).Reached start base outer (before ++ [.rightParen]) := by
  rcases h with ⟨hnone, -⟩ | ⟨_, front, hframes, rfl, houter⟩
  · cases hnone
  · cases hframes
    refine ⟨front, [.leftParen, .rightParen], by simp, ?_, houter⟩
    exact mem_language [word .leftParen, word .rightParen] (by decide)
      (mem_words_word (mem_words_word mem_words_nil))

/-- Behind a parameter no simple record ends. -/
theorem not_behind_of_filled (hbase : base.getLast? = some .leftParen) {value : Parameter}
    (h : (Phase.filled value).Reached start base frames before) :
    ¬ Behind start simpleRecord before := by
  obtain ⟨front, row, rfl, hrow, hfront⟩ := h
  rcases parameter_shape hrow with ⟨kind, hkind, rfl⟩ | ⟨inner, hinner, rfl | rfl⟩
  · have hother : ∀ kind ∈ literals, kind ∉ lasts simpleRecord := by decide
    exact not_behind_of_last (by decide) (hother kind hkind)
  · -- In front of a list stands a comma or a parenthesis, and no keyword.
    obtain ⟨x, kind, hkind, rfl⟩ := hfront.exists_last hbase
    refine not_behind_simpleRecord hinner ?_
    rintro rfl
    exact absurd hkind (by decide)
  · -- A simple record would have to stand where the typed value does.
    intro hbehind
    rw [← List.singleton_append, ← List.append_assoc] at hbehind
    obtain ⟨other, hparts, hsits⟩ := hbehind.simpleRecord_enclosed hinner
    rw [← (List.append_singleton_inj.mp hparts).1] at hsits
    exact hfront.apart hsits

end Reached

/-! ### Where reading stops -/

section Stops

variable {start : Phrase} {base before : List LexemeKind} {frames : List Frame}
  {L : Language LexemeKind} [Live L] {ts : List Token}

theorem next_not_mem {t : Token} {rest : List Token} {ks : List LexemeKind} (h : t.kind ∉ ks) :
    next (t :: rest) ∉ kinds ks := by
  simpa [next, kinds] using h

theorem reports_awaits (hbase : base.getLast? = some .leftParen) {phase : Phase}
    (hphase : phase.Awaits) (h : start.remaining before = phase.left frames L)
    (hreached : phase.Reached start base frames before)
    (hnext : next ts ∉ kinds phase.expected) :
    Reports start before (next ts) (kinds phase.expected) := by
  have hapart : Apart start before := by
    obtain ⟨front, kind, hkind, rfl⟩ := (opens_of_reached hphase h hreached).exists_last hbase
    have hother : ∀ kind ∈ [.comma, .leftParen], ∀ phrase ∈ completed, kind ∉ lasts phrase := by
      decide
    exact apart_of_last (hother kind hkind)
  refine .of_apart h (fun t => ?_) ?_ hnext hapart
  · rcases hphase with rfl | rfl
    · rw [Phase.left, mem_starts_add, mem_starts_parameter, mem_starts_lit_mul]
      simp [kinds, Phase.expected, or_comm]
    · rw [Phase.left, mem_starts_parameter]
      rfl
  · rcases hphase with rfl | rfl <;> decide

theorem reports_named {keyword : Text}
    (h : start.remaining before = (Phase.named keyword).left frames L)
    (hreached : (Phase.named keyword).Reached start base frames before)
    (hnext : next ts ∉ kinds [.leftParen]) :
    Reports start before (next ts) (kinds [.leftParen]) := by
  obtain ⟨front, rfl, -⟩ := hreached
  refine .of_apart h (fun t => ?_) (by decide) hnext (apart_of_last (by decide))
  rw [Phase.left, mem_starts_lit_mul]
  simp [kinds]

section Filled

variable (hstart : start ∈ readable) (hparen : base.getLast? = some .leftParen)
  (hbase : Sits start parameterList base) {value : Parameter}
  (h : start.remaining before = (Phase.filled value).left frames L)
  (hreached : (Phase.filled value).Reached start base frames before)

include hstart hparen hbase h hreached

/-- Behind a parameter ends nothing else. -/
theorem ends_filled : Ends start parameter before := by
  have hrecord := not_behind_of_filled hparen hreached
  have hhere : ∀ t ∈ starts (start.remaining before), t ∈ kinds [.comma, .rightParen] := by
    intro t ht
    rw [h, Phase.left, mem_starts_closing] at ht
    rcases ht with rfl | ⟨rfl, -⟩ <;> decide
  have hinstance : ¬ Behind start entityInstance before :=
    not_behind_of_starts hstart (by decide) hhere (by decide)
  obtain ⟨front, row, hparts, hrow, hfront⟩ := hreached
  refine ⟨by decide, ⟨front, row, hparts, hrow, hfront.sits hbase⟩, fun other hother hne => ?_⟩
  simp only [completed, List.mem_cons, List.not_mem_nil, or_false] at hother
  rcases hother with rfl | rfl | rfl
  · exact absurd rfl hne
  · exact hrecord
  · exact hinstance

/-- Behind a parameter what follows parameters is reported, within a typed value as well. -/
theorem reports_filled (hnext : next ts ∉ kinds [.comma, .rightParen]) :
    Reports start before (next ts) (kinds [.comma, .rightParen]) := by
  refine .of_follows h (fun t => ?_) (by decide) hnext
    (ends_filled hstart hparen hbase h hreached) (follows_parameter hstart)
  rw [Phase.left, mem_starts_closing]
  rintro (rfl | ⟨rfl, -⟩) <;> decide

end Filled

/-- No comma can stand within a typed value. -/
theorem reports_typed (hstart : start ∈ readable) (hparen : base.getLast? = some .leftParen)
    (hbase : Sits start parameterList base) {value : Parameter} {keyword : Text}
    {outer : List Frame}
    (h : start.remaining before = (Phase.filled value).left (.typed keyword :: outer) L)
    (hreached : (Phase.filled value).Reached start base (.typed keyword :: outer) before)
    (hnext : next ts = .lexeme .comma) :
    Reports start before (next ts) (kinds [.rightParen]) := by
  refine .of_mem_follows h (fun t => ?_) (by decide) (by rw [hnext]; decide)
    (ends_filled hstart hparen hbase h hreached) ?_
  · rw [Phase.left, mem_starts_closing]
    simp [kinds]
  · rw [hnext]
    exact (follows_parameter hstart _).mpr (by decide)

end Stops

theorem kind_of_literal? {l : Lexeme} {value : Parameter} (h : literal? l = some value) :
    l.kind ∈ literals := by
  cases l <;> cases h <;> simp [Lexeme.kind, literals]

/-- What starts a parameter is a class by itself, a parenthesis or a keyword. -/
theorem kind_not_mem_parameterStarts {l : Lexeme} (hopen : l ≠ .leftParen)
    (hkeyword : ∀ name, l ≠ .keyword name) (hliteral : literal? l = none) :
    l.kind ∉ parameterStarts := by
  cases l <;> simp_all [Lexeme.kind, parameterStarts, literal?]

/-- A row of parameters was read up to its closing parenthesis; `empty` says where it may be
empty. -/
def Closes (start : Phrase) (base : List LexemeKind) (L : Language LexemeKind) (empty : Prop)
    (after : List LexemeKind) (_ : List Parameter) (_ : List Token) : Prop :=
  start.remaining after = L ∧ ∃ row, after = base ++ (row ++ [.rightParen]) ∧
    (row ∈ parameterList.language ∨ row = [] ∧ empty)

/-- The reader of parameters stands in a phase: what was read leads to it, and what is left is what
the phase leaves. -/
structure Phase.Stands (start : Phrase) (base : List LexemeKind) (L : Language LexemeKind)
    (frames : List Frame) (phase : Phase) (before : List LexemeKind) : Prop where
  rest : start.remaining before = phase.left frames L
  reached : phase.Reached start base frames before

namespace Phase.Stands

variable {start : Phrase} {base before : List LexemeKind} {L : Language LexemeKind}
  {frames outer : List Frame} {phase : Phase} {value : Parameter} {row : List Parameter}

/-- A parenthesis closes a list or a typed value. -/
theorem close {frame : Frame} (h : Stands start base L (frame :: outer) (.filled value) before)
    (whole : Parameter) :
    Stands start base L outer (.filled whole) (before ++ [.rightParen]) where
  rest := by
    rw [remaining_append, h.rest]
    exact quotient_closing_rightParen (frame :: outer) L
  reached := (reached_rightParen h.reached).2 frame outer whole rfl

/-- A list that was just opened has no items, and a typed value is none. -/
theorem frame_of_opened {frame : Frame}
    (h : Stands start base L (frame :: outer) .opened before) : frame = .row [] := by
  obtain ⟨hnone, -⟩ | ⟨_, _, hframes, -⟩ := h.reached
  · cases hnone
  · cases hframes
    rfl

/-- A parenthesis closes an empty list. -/
theorem close_empty (h : Stands start base L (.row [] :: outer) .opened before)
    (whole : Parameter) :
    Stands start base L outer (.filled whole) (before ++ [.rightParen]) where
  rest := by
    rw [remaining_append, h.rest, quotient_opened, if_pos rfl]
    rfl
  reached := reached_empty h.reached whole

variable [Live L]

/-- A parenthesis opens a list. -/
theorem list (hphase : phase.Awaits) (h : Stands start base L frames phase before) :
    Stands start base L (.row [] :: frames) .opened (before ++ [.leftParen]) :=
  ⟨remaining_leftParen hphase h.rest [], reached_leftParen hphase h.rest h.reached⟩

/-- A keyword names a typed value. -/
theorem keyword (hphase : phase.Awaits) (h : Stands start base L frames phase before)
    (name : Text) : Stands start base L frames (.named name) (before ++ [.keyword]) :=
  ⟨remaining_keyword hphase h.rest name, reached_keyword hphase h.rest h.reached name⟩

theorem literal (hphase : phase.Awaits) (h : Stands start base L frames phase before)
    {kind : LexemeKind} (hkind : kind ∈ literals) (value : Parameter) :
    Stands start base L frames (.filled value) (before ++ [kind]) :=
  ⟨remaining_literal hphase h.rest hkind, reached_literal hphase h.rest h.reached hkind value⟩

/-- The parenthesis of a typed value opens. -/
theorem typed {name : Text} (h : Stands start base L frames (.named name) before) :
    Stands start base L (.typed name :: frames) .wanted (before ++ [.leftParen]) :=
  ⟨remaining_named h.rest, reached_named h.rest h.reached⟩

/-- A comma goes on with the row of the group. -/
theorem comma_outside (h : Stands start base L [] (.filled value) before) :
    Stands start base L [] .wanted (before ++ [.comma]) :=
  ⟨remaining_comma h.rest (by simp), (reached_comma h.rest h.reached).1 rfl⟩

/-- A comma goes on with a list. -/
theorem comma (h : Stands start base L (.row row :: outer) (.filled value) before)
    (items : List Parameter) :
    Stands start base L (.row items :: outer) .wanted (before ++ [.comma]) :=
  ⟨remaining_comma h.rest (by simp), (reached_comma h.rest h.reached).2 row outer items rfl⟩

end Phase.Stands

/-- Wherever the reader of parameters stands, it accounts for its answer. -/
def Accounts (start : Phrase) (base : List LexemeKind) (L : Language LexemeKind)
    (items : List Parameter) (frames : List Frame) (phase : Phase) (ts : List Token) : Prop :=
  ∀ before, phase.Stands start base L frames before →
    Answers start before ts (Closes start base L (frames = [] ∧ phase = .opened))
      (parameters items frames phase ts)

section Parameters

variable {start : Phrase} {base before : List LexemeKind} {L : Language LexemeKind}
  {items : List Parameter} {frames : List Frame} {phase : Phase} {t : Token} {rest : List Token}

/-- A further token leads to the next phase, behind which the group is not empty. -/
theorem answers_next {kind : LexemeKind} {other : Prop} (hkind : t.kind = kind)
    (hsome : ¬ (frames = [] ∧ phase = .opened))
    (hstands : phase.Stands start base L frames (before ++ [kind]))
    (ih : Accounts start base L items frames phase rest) :
    Answers start before (t :: rest) (Closes start base L other)
      (parameters items frames phase rest) := by
  subst hkind
  refine Answers.cons ((ih _ hstands).imp ?_)
  rintro after _ _ ⟨hrest, row, hafter, hrow⟩
  exact ⟨hrest, row, hafter, .inl (hrow.resolve_right fun hnone => hsome hnone.2)⟩

variable [Live L]

/-- Behind a keyword opens a typed value. -/
theorem accounts_named {keyword : Text}
    (ih : ∀ items frames phase, Accounts start base L items frames phase rest) :
    Accounts start base L items frames (.named keyword) (t :: rest) := by
  intro before h
  unfold parameters
  dsimp only
  split
  · rename_i ht
    exact answers_next (congrArg Lexeme.kind ht) (by simp) h.typed (ih _ _ _)
  · rename_i ht
    exact .here (reports_named h.rest h.reached (next_not_mem fun hmem =>
      ht (lexeme_eq_of_kind rfl (List.mem_singleton.mp hmem))))

/-- Behind a parameter the row goes on, or what it stands in is closed. -/
theorem accounts_filled (hstart : start ∈ readable) (hparen : base.getLast? = some .leftParen)
    (hbase : Sits start parameterList base)
    (ih : ∀ items frames phase, Accounts start base L items frames phase rest)
    {value : Parameter} : Accounts start base L items frames (.filled value) (t :: rest) := by
  intro before h
  unfold parameters
  dsimp only
  split
  · rename_i ht
    have hkind : t.kind = .comma := congrArg Lexeme.kind ht
    cases frames with
    | nil => exact answers_next hkind (by simp) h.comma_outside (ih _ _ _)
    | cons frame outer =>
      cases frame with
      | row row => exact answers_next hkind (by simp) (h.comma _) (ih _ _ _)
      | typed keyword =>
        exact .here (reports_typed hstart hparen hbase h.rest h.reached
          (congrArg Terminal.lexeme hkind))
  · rename_i ht
    have hkind : t.kind = .rightParen := congrArg Lexeme.kind ht
    cases frames with
    | nil =>
      refine Answers.cons (.ok ⟨?_, ?_⟩)
      · rw [hkind, remaining_append, h.rest]
        exact quotient_closing_rightParen [] L
      · obtain ⟨row, hrow, hafter⟩ := (reached_rightParen h.reached).1 rfl
        exact ⟨row, by rw [hkind, hafter], .inl hrow⟩
    | cons frame outer =>
      cases frame <;> exact answers_next hkind (by simp) (h.close _) (ih _ _ _)
  · rename_i hcomma hclose
    refine .here (reports_filled hstart hparen hbase h.rest h.reached (next_not_mem ?_))
    rw [List.mem_cons, List.mem_singleton]
    rintro (hkind | hkind)
    · exact hcomma (lexeme_eq_of_kind rfl hkind)
    · exact hclose (lexeme_eq_of_kind rfl hkind)

/-- Where a parameter has to come it starts, or the fault is here. -/
theorem accounts_wanted (hparen : base.getLast? = some .leftParen)
    (ih : ∀ items frames phase, Accounts start base L items frames phase rest) :
    Accounts start base L items frames .wanted (t :: rest) := by
  intro before h
  unfold parameters
  dsimp only
  split
  · rename_i ht
    exact answers_next (congrArg Lexeme.kind ht) (by simp) (h.list (.inr rfl)) (ih _ _ _)
  · rename_i name ht
    exact answers_next (congrArg Lexeme.kind ht) (by simp) (h.keyword (.inr rfl) name) (ih _ _ _)
  · rename_i hopen hkeyword
    split
    · rename_i value hvalue
      exact answers_next rfl (by simp) (h.literal (.inr rfl) (kind_of_literal? hvalue) value)
        (ih _ _ _)
    · rename_i hliteral
      exact .here (reports_awaits hparen (.inr rfl) h.rest h.reached
        (next_not_mem (kind_not_mem_parameterStarts hopen hkeyword hliteral)))

/-- Behind an opening parenthesis a parameter starts, or the parenthesis is closed at once. -/
theorem accounts_opened (hparen : base.getLast? = some .leftParen)
    (ih : ∀ items frames phase, Accounts start base L items frames phase rest) :
    Accounts start base L items frames .opened (t :: rest) := by
  intro before h
  unfold parameters
  dsimp only
  split
  · rename_i ht
    have hkind : t.kind = .rightParen := congrArg Lexeme.kind ht
    cases frames with
    | nil =>
      obtain ⟨-, rfl⟩ | ⟨_, _, hnone, -⟩ := h.reached
      · refine Answers.cons (.ok ⟨?_, [], by rw [hkind]; rfl, .inr ⟨rfl, rfl, rfl⟩⟩)
        rw [hkind, remaining_append, h.rest, quotient_opened, if_pos rfl]
        rfl
      · cases hnone
    | cons frame outer =>
      obtain rfl := h.frame_of_opened
      exact answers_next hkind (by simp) (h.close_empty _) (ih _ _ _)
  · rename_i ht
    exact answers_next (congrArg Lexeme.kind ht) (by simp) (h.list (.inl rfl)) (ih _ _ _)
  · rename_i name ht
    exact answers_next (congrArg Lexeme.kind ht) (by simp) (h.keyword (.inl rfl) name) (ih _ _ _)
  · rename_i hclose hopen hkeyword
    split
    · rename_i value hvalue
      exact answers_next rfl (by simp) (h.literal (.inl rfl) (kind_of_literal? hvalue) value)
        (ih _ _ _)
    · rename_i hliteral
      refine .here (reports_awaits hparen (.inl rfl) h.rest h.reached (next_not_mem ?_))
      exact List.not_mem_cons_of_ne_of_not_mem (fun hkind => hclose (lexeme_eq_of_kind rfl hkind))
        (kind_not_mem_parameterStarts hopen hkeyword hliteral)

/-- Where the text ends a parameter or what follows one is missed. -/
theorem accounts_nil (hstart : start ∈ readable) (hparen : base.getLast? = some .leftParen)
    (hbase : Sits start parameterList base) : Accounts start base L items frames phase [] := by
  intro before h
  have hnext : next [] ∉ kinds phase.expected := by simp [next, kinds]
  refine .here ?_
  cases phase with
  | opened => exact reports_awaits hparen (.inl rfl) h.rest h.reached hnext
  | wanted => exact reports_awaits hparen (.inr rfl) h.rest h.reached hnext
  | named => exact reports_named h.rest h.reached hnext
  | filled => exact reports_filled hstart hparen hbase h.rest h.reached hnext

/-- The reader of parameters accounts for its answer. -/
theorem answers_parameters (hstart : start ∈ readable) (hparen : base.getLast? = some .leftParen)
    (hbase : Sits start parameterList base) (items : List Parameter) (ts : List Token)
    (hrest : start.remaining before = phase.left frames L)
    (hreached : phase.Reached start base frames before) :
    Answers start before ts (Closes start base L (frames = [] ∧ phase = .opened))
      (parameters items frames phase ts) := by
  have haccounts : ∀ items frames phase, Accounts start base L items frames phase ts := by
    induction ts with
    | nil => exact fun items frames phase => accounts_nil hstart hparen hbase
    | cons t rest ih =>
      intro items frames phase
      cases phase with
      | opened => exact accounts_opened hparen ih
      | wanted => exact accounts_wanted hparen ih
      | named keyword => exact accounts_named ih
      | filled value => exact accounts_filled hstart hparen hbase ih
  exact haccounts items frames phase before ⟨hrest, hreached⟩

end Parameters

end Reader

end Part21
