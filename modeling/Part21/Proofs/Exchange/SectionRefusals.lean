import Part21.Proofs.Exchange.Refusals

set_option autoImplicit false

/-!
# What readers of sections refuse

The readers of rows of instances, of sections and of headers account for their answers.  Between
instances it is asked first for what follows an instance anywhere (`Reader.Anticipated`), then for
what can come there (`Reader.Between`).
-/

namespace Part21

open Computability

namespace Reader

open Phrase

/-! ## Instances -/

section Instances

variable {start : Phrase} {base row : List LexemeKind} {L : Language LexemeKind} [Live L]
  {anywhere here : List Terminal} {ts : List Token}

/-- What is left between the instances of a row, with `L` behind them. -/
def moreInstances (L : Language LexemeKind) : Language LexemeKind := entityInstance.language∗ * L

instance : Live (moreInstances L) := by
  rw [moreInstances]
  infer_instance

theorem moreInstances_eq (L : Language LexemeKind) :
    moreInstances L = L + {[.entityName]} * behindName (moreInstances L) := by
  conv_lhs => rw [moreInstances, kstar_mul, entityInstance_mul]
  rfl

omit [Live L] in
theorem quotient_moreInstances (h : L.leftQuotient [.entityName] = 0) :
    (moreInstances L).leftQuotient [.entityName] = behindName (moreInstances L) := by
  conv_lhs => rw [moreInstances_eq, quotient_add, h, quotient_lit_mul, if_pos rfl, zero_add]

/-- What can come between instances, and what it is checked against. -/
structure Between (start : Phrase) (L : Language LexemeKind) (anywhere here : List Terminal) :
    Prop where
  /-- what stands behind the instances starts otherwise -/
  apart : L.leftQuotient [.entityName] = 0
  /-- another instance comes, or what stands behind them -/
  starts : ∀ t, t ∈ starts (moreInstances L) ↔ t ∈ here
  distinct : (here.map Terminal.name).Nodup
  foreseen : Anticipated start entityInstance anywhere here

/-- Instances were read since `base`. -/
theorem sits_instance (hbase : Sits start entityInstances base)
    (hrow : row ∈ entityInstances.language) : Sits start entityInstance (base ++ row) := by
  have hmore : Sits start entityInstance (base ++ ([] ++ (row ++ []))) :=
    hbase.after (c := []) (by decide) hrow
  simpa using hmore

theorem mem_entityInstances {last : List LexemeKind} (hrow : row ∈ entityInstances.language)
    (hlast : last ∈ entityInstance.language) : row ++ last ∈ entityInstances.language := by
  have hmore : row ++ (last ++ []) ∈ entityInstances.language :=
    mem_language [part entityInstances, part entityInstance] (by decide)
      (mem_words_part hrow (mem_words_part hlast mem_words_nil))
  simpa using hmore

theorem nil_mem_entityInstances : [] ∈ entityInstances.language :=
  mem_language [] (by decide) mem_words_nil

/-- Instances were read, up to a token that starts none: none at all, or some behind which what
comes next was checked. -/
def SpansInstances (start : Phrase) (base row : List LexemeKind) (L : Language LexemeKind)
    (here : List Terminal) (before : List Record) (ts : List Token) (after : List LexemeKind)
    (records : List Record) (rest : List Token) : Prop :=
  next rest ≠ .lexeme .entityName ∧
    (after = base ++ row ∧ records = before.reverse ∧ rest = ts ∨
      records ≠ [] ∧ next rest ∈ here ∧ start.remaining after = moreInstances L ∧
        ∃ all ∈ entityInstances.language, after = base ++ all)

/-- Behind an instance there are instances, with more of them or what stands behind them to
come. -/
theorem instances_of_namedRecord (hstart : start ∈ readable)
    (hbase : Sits start entityInstances base) (hbetween : Between start L anywhere here)
    (hrow : row ∈ entityInstances.language)
    (h : start.remaining (base ++ row ++ [.entityName]) = behindName (moreInstances L))
    {id : Nat} {name : Token} {inside behind : List Token} {r : Record}
    (hread : namedRecord id name inside = .ok (r, behind)) :
    ∃ used more, inside = used ++ behind ∧ more ∈ entityInstances.language ∧
      base ++ row ++ [.entityName] ++ used.map Token.kind = base ++ more ∧
      start.remaining (base ++ more) = moreInstances L ∧
      Foreseen start (base ++ more) anywhere here := by
  have hout := answers_namedRecord hstart (sits_instance hbase hrow) h id name inside
  rw [hread] at hout
  obtain ⟨used, rfl, hrest, last, hlast, hafter⟩ := hout
  rw [hafter] at hrest
  have hbehind : Behind start entityInstance (base ++ row ++ last) :=
    ⟨base ++ row, last, rfl, hlast, sits_instance hbase hrow⟩
  rw [List.append_assoc] at hrest hbehind
  exact ⟨used, row ++ last, rfl, mem_entityInstances hrow hlast,
    by rw [hafter, List.append_assoc], hrest,
    .inr ⟨entityInstance, ends_entityInstance hbehind, hbetween.foreseen⟩⟩

/-- The reader of instances accounts for its answer. -/
theorem answers_instances (hstart : start ∈ readable) (hbase : Sits start entityInstances base)
    (hbetween : Between start L anywhere here) (before : List Record) (ts : List Token)
    (hrow : row ∈ entityInstances.language)
    (h : start.remaining (base ++ row ++ [.entityName]) = behindName (moreInstances L)) :
    Answers start (base ++ row) ts (SpansInstances start base row L here before ts)
      (instances anywhere here before ts) := by
  fun_induction instances anywhere here before ts generalizing row with
  | case1 before => exact .ok ⟨by simp [next], .inl ⟨rfl, rfl, rfl⟩⟩
  | case2 before t inside id ht stop hstop =>
    have hkind : t.kind = .entityName := congrArg Lexeme.kind ht
    have hout := answers_namedRecord hstart (sits_instance hbase hrow) h id t inside
    rw [hstop] at hout
    refine Answers.cons ?_
    rw [hkind]
    exact hout
  | case3 before t inside id ht r behind hread stop hstop =>
    have hkind : t.kind = .entityName := congrArg Lexeme.kind ht
    obtain ⟨used, more, rfl, -, hbefore, hrest, hforeseen⟩ :=
      instances_of_namedRecord hstart hbase hbetween hrow h hread
    refine Answers.cons (Answers.later ?_)
    rw [hkind, hbefore]
    rcases follow_cases hrest hbetween.starts hbetween.distinct hforeseen behind with
      ⟨-, hok⟩ | ⟨_, herror, hrefuses⟩
    · rw [hstop] at hok
      cases hok
    · rw [hstop] at herror
      cases herror
      exact hrefuses
  | case4 before t inside id ht r behind hread hfollow ih =>
    have hkind : t.kind = .entityName := congrArg Lexeme.kind ht
    obtain ⟨used, more, rfl, hmore, hbefore, hrest, -⟩ :=
      instances_of_namedRecord hstart hbase hbetween hrow h hread
    have hname : start.remaining (base ++ more ++ [.entityName]) =
        behindName (moreInstances L) := by
      rw [remaining_append, hrest, quotient_moreInstances hbetween.apart]
    refine Answers.cons (Answers.later ?_)
    rw [hkind, hbefore]
    refine (ih hmore hname).imp ?_
    rintro after records rest ⟨hother, ⟨hafter, hrecords, hsame⟩ | hfurther⟩
    · refine ⟨hother, .inr ⟨by simp [hrecords], ?_, by rw [hafter, hrest], more, hmore, hafter⟩⟩
      rw [hsame]
      exact (follow_eq_ok.mp hfollow).2
    · exact ⟨hother, .inr hfurther⟩
  | case5 before t inside hother =>
    refine .ok ⟨fun hname => ?_, .inl ⟨rfl, rfl, rfl⟩⟩
    obtain ⟨id, hid⟩ := entityName_of_kind (Terminal.lexeme.inj hname)
    exact hother id hid

end Instances

/-! ## Sections -/

section Sections

variable {start : Phrase} {base : List LexemeKind} {L : Language LexemeKind} [Live L]
  {ts : List Token}

/-- What is left behind the word that opens a section, with `L` behind its parameters. -/
def behindData (L : Language LexemeKind) : Language LexemeKind :=
  {[.semicolon]} * L + {[.leftParen]} * (parameterList.language * ({[.rightParen]} *
    ({[.semicolon]} * L)))

instance : Live (behindData L) := by
  rw [behindData]
  infer_instance

/-- What is left behind the instances of a section. -/
def sectionEnd (L : Language LexemeKind) : Language LexemeKind :=
  {[.endSection]} * ({[.semicolon]} * L)

instance : Live (sectionEnd L) := by
  rw [sectionEnd]
  infer_instance

theorem dataSection_mul (L : Language LexemeKind) :
    Phrase.dataSection.language * L = {[.data]} * behindData (moreInstances (sectionEnd L)) := by
  rw [dataSection_eq, dataOpening_eq, behindData, moreInstances, sectionEnd]
  simp only [add_mul, mul_assoc]

theorem mem_starts_behindData (t : Terminal) :
    t ∈ starts (behindData L) ↔ t ∈ kinds [.leftParen, .semicolon] := by
  rw [behindData, mem_starts_add, mem_starts_lit_mul, mem_starts_lit_mul]
  simp [kinds, or_comm]

theorem quotient_behindData (L : Language LexemeKind) :
    (behindData L).leftQuotient [.semicolon] = L ∧
      (behindData L).leftQuotient [.leftParen] =
        parameterList.language * ({[.rightParen]} * ({[.semicolon]} * L)) := by
  rw [behindData]
  constructor <;> simp [-add_eq_sup, quotient_add, quotient_lit_mul]

theorem mem_dataOpening {row : List LexemeKind} (h : row ∈ parameterList.language) :
    .data :: .leftParen :: (row ++ [.rightParen, .semicolon]) ∈ dataOpening.language :=
  mem_language
    [word .data, word .leftParen, part parameterList, word .rightParen, word .semicolon]
    (by decide)
    (mem_words_word (mem_words_word (mem_words_part h
      (mem_words_word (mem_words_word mem_words_nil)))))

/-- Behind an opening parenthesis the parameters of a section are read, up to the semicolon. -/
theorem answers_dataGroup (hstart : start ∈ readable) (hbase : Sits start dataOpening base)
    (h : start.remaining (base ++ [.data]) = behindData L) {t : Token} (ht : t.lexeme = .leftParen)
    (rest : List Token) :
    Answers start (base ++ [.data]) (t :: rest) (Spans start base L dataOpening)
      (sectionParameters (t :: rest)) := by
  have hkind : t.kind = .leftParen := congrArg Lexeme.kind ht
  have hsits : Sits start parameterList (base ++ [.data, .leftParen]) :=
    hbase.inner (c := [word .rightParen, word .semicolon]) (by decide)
  have hopened : base ++ [.data] ++ [.leftParen] = base ++ [.data, .leftParen] := by simp
  have hinside : start.remaining (base ++ [.data, .leftParen]) =
      Phase.wanted.left [] ({[.semicolon]} * L) := by
    rw [← hopened, remaining_append, h, (quotient_behindData L).2, parameterList_mul]
    rfl
  have hopens : Phase.wanted.Reached start (base ++ [.data, .leftParen]) []
      (base ++ [.data, .leftParen] ++ []) := by
    refine Opens.items (.inl rfl) ?_
    rw [List.append_nil]
    exact not_sits_of_awaits (.inr rfl) hinside
  rw [List.append_nil] at hopens
  refine Answers.cons ?_
  rw [hkind, hopened]
  simp only [sectionParameters, ht]
  rcases (answers_parameters hstart (by simp) hsits [] rest hinside hopens).elim with
    ⟨values, used, behind, hout, rfl, hrest, row, hafter, hrow⟩ | ⟨stop, hout, hstop⟩
  · simp only [hout]
    have hlist := hrow.resolve_right (by simp)
    have hclosed : Apart start (base ++ [.data, .leftParen] ++ used.map Token.kind) := by
      have hgroup : base ++ [.data, .leftParen] ++ used.map Token.kind =
          base ++ [.data] ++ enclosed row := by
        rw [hafter]
        simp [enclosed]
      rw [hgroup] at hrest ⊢
      exact apart_of_enclosed hstart (nested_of_mem (by decide) hlist) (by decide) hrest
    refine Answers.later ?_
    rcases passes_require hrest hclosed behind with
      ⟨t, more, rfl, hk, hend, hleft⟩ | ⟨stop, hend, hstop⟩
    · simp only [hend]
      have hmem := mem_dataOpening hlist
      refine Answers.cons (.ok ?_)
      rw [hk]
      refine ⟨hleft, _, hmem, ?_⟩
      rw [hafter]
      simp
    · simp only [hend]
      exact hstop
  · simp only [hout]
    exact hstop

/-- The reader of the parameters of a section accounts for its answer. -/
theorem answers_sectionParameters (hstart : start ∈ readable) (hbase : Sits start dataOpening base)
    (h : start.remaining (base ++ [.data]) = behindData L) (ts : List Token) :
    Answers start (base ++ [.data]) ts (Spans start base L dataOpening) (sectionParameters ts) := by
  have hapart : Apart start (base ++ [.data]) := apart_of_last (by decide)
  cases ts with
  | nil => exact .here (.of_apart h mem_starts_behindData (by decide) (by decide) hapart)
  | cons t rest =>
    cases hlexeme : t.lexeme with
    | leftParen => exact answers_dataGroup hstart hbase h hlexeme rest
    | semicolon =>
      have hkind : t.kind = .semicolon := congrArg Lexeme.kind hlexeme
      simp only [sectionParameters, hlexeme]
      refine Answers.cons (.ok ⟨?_, [.data, .semicolon], ?_, ?_⟩)
      · rw [hkind, remaining_append, h, (quotient_behindData L).1]
      · exact mem_language [word .data, word .semicolon] (by decide)
          (mem_words_word (mem_words_word mem_words_nil))
      · rw [hkind]
        simp
    | _ =>
      simp only [sectionParameters, hlexeme]
      refine .here (.of_apart h mem_starts_behindData (by decide) (next_not_mem ?_) hapart)
      simp [Token.kind, hlexeme, Lexeme.kind]

/-- What can come within a section. -/
theorem mem_starts_inSection (t : Terminal) :
    t ∈ starts (moreInstances (sectionEnd L)) ↔ t ∈ inSection := by
  rw [moreInstances_eq, sectionEnd, mem_starts_add, mem_starts_lit_mul, mem_starts_lit_mul]
  simp [inSection, kinds]

theorem between_sectionEnd {anywhere : List Terminal}
    (h : Anticipated start entityInstance anywhere inSection) :
    Between start (sectionEnd L) anywhere inSection where
  apart := by
    rw [sectionEnd, quotient_lit_mul]
    rfl
  starts := mem_starts_inSection
  distinct := by decide
  foreseen := h

omit [Live L] in
theorem quotient_inSection (L : Language LexemeKind) :
    (moreInstances (sectionEnd L)).leftQuotient [.endSection] = {[.semicolon]} * L := by
  rw [moreInstances_eq, sectionEnd]
  simp [-add_eq_sup, quotient_add, quotient_lit_mul]

theorem mem_dataSection {opening row : List LexemeKind} (hopening : opening ∈ dataOpening.language)
    (hrow : row ∈ entityInstances.language) :
    opening ++ (row ++ [.endSection, .semicolon]) ∈ Phrase.dataSection.language :=
  mem_language
    [part dataOpening, part entityInstances, word .endSection, word .semicolon]
    (by decide)
    (mem_words_part hopening (mem_words_part hrow
      (mem_words_word (mem_words_word mem_words_nil))))

/-- The instances of a section are read up to the word that closes it, or the reader refuses. -/
theorem instances_endSection (hstart : start ∈ readable) {anywhere : List Terminal}
    (hforeseen : Anticipated start entityInstance anywhere inSection)
    (hsits : Sits start entityInstances base)
    (h : start.remaining base = moreInstances (sectionEnd L)) (hnext : next ts ∈ inSection) :
    (∃ records used closing more,
      instances anywhere inSection [] ts = .ok (records, closing :: more) ∧
        closing.kind = .endSection ∧ ts = used ++ closing :: more ∧
        start.remaining (base ++ used.map Token.kind ++ [.endSection]) = {[.semicolon]} * L ∧
        ∃ row ∈ entityInstances.language, base ++ used.map Token.kind = base ++ row) ∨
    ∃ stop, instances anywhere inSection [] ts = .error stop ∧ Refuses start base ts stop := by
  have hbetween : Between start (sectionEnd L) anywhere inSection := between_sectionEnd hforeseen
  have hname : start.remaining (base ++ [] ++ [.entityName]) =
      behindName (moreInstances (sectionEnd L)) := by
    rw [List.append_nil, remaining_append, h, quotient_moreInstances hbetween.apart]
  have hanswers := answers_instances hstart hsits hbetween [] ts nil_mem_entityInstances hname
  rw [List.append_nil] at hanswers
  rcases hanswers.elim with
    ⟨records, used, rest, hout, rfl, hother, hread⟩ | ⟨stop, hout, hstop⟩
  · have hend : next rest ∈ inSection ∧
        start.remaining (base ++ used.map Token.kind) = moreInstances (sectionEnd L) ∧
          ∃ row ∈ entityInstances.language, base ++ used.map Token.kind = base ++ row := by
      rcases hread with ⟨hafter, -, hsame⟩ | ⟨-, hmem, hleft, hrow⟩
      · rw [hafter, List.append_nil, hsame]
        exact ⟨hnext, h, [], nil_mem_entityInstances, (List.append_nil base).symm⟩
      · exact ⟨hmem, hleft, hrow⟩
    obtain ⟨hmem, hleft, hrow⟩ := hend
    have hclose : next rest = .lexeme .endSection := by
      simp only [inSection, kinds, List.map_cons, List.map_nil, List.mem_cons, List.not_mem_nil,
        or_false] at hmem
      exact hmem.resolve_right hother
    obtain ⟨closing, more, rfl, hkind⟩ := next_eq_lexeme hclose
    refine .inl ⟨records, used, closing, more, hout, hkind, rfl, ?_, hrow⟩
    rw [remaining_append, hleft, quotient_inSection]
  · exact .inr ⟨stop, hout, hstop⟩

/-- The reader of a section accounts for its answer. -/
theorem answers_dataSection (hstart : start ∈ readable) {anywhere : List Terminal}
    (hforeseen : Anticipated start entityInstance anywhere inSection)
    (hbase : Sits start Phrase.dataSection base)
    (h : start.remaining (base ++ [.data]) = behindData (moreInstances (sectionEnd L)))
    (ts : List Token) :
    Answers start (base ++ [.data]) ts (Spans start base L Phrase.dataSection)
      (dataSection anywhere ts) := by
  have hopening : Sits start dataOpening base := by
    have hinner : Sits start dataOpening (base ++ []) :=
      hbase.inner (c := [part entityInstances, word .endSection, word .semicolon]) (by decide)
    simpa using hinner
  unfold dataSection
  rcases (answers_sectionParameters hstart hopening h ts).elim with
    ⟨values, used, inside, hout, rfl, hrest, opening, hmem, hafter⟩ | ⟨stop, hout, hstop⟩
  · simp only [hout]
    have hsits : Sits start entityInstances (base ++ opening) := by
      have hbehind : Sits start entityInstances (base ++ ([] ++ (opening ++ []))) :=
        hbase.after (c := [word .endSection, word .semicolon]) (by decide) hmem
      simpa using hbehind
    refine Answers.later ?_
    rw [hafter] at hrest ⊢
    have hapart : Apart start (base ++ opening) := apart_dataOpening hmem
    rcases follow_cases hrest mem_starts_inSection (by decide) (.inl ⟨rfl, hapart⟩) inside with
      ⟨hnext, hfollow⟩ | ⟨stop, hfollow, hstop⟩
    · simp only [hfollow]
      rcases instances_endSection hstart hforeseen hsits hrest hnext with
        ⟨records, used, closing, more, hout, hkind, rfl, hleft, row, hrow, hinstances⟩ |
        ⟨stop, hout, hstop⟩
      · have hclose : require .endSection (closing :: more) = .ok more := if_pos hkind
        simp only [hout, hclose]
        refine Answers.later (Answers.cons ?_)
        rw [hkind]
        rcases passes_require hleft (apart_of_last (by decide)) more with
          ⟨t, rest, rfl, hk, hend, hlast⟩ | ⟨stop, hend, hstop⟩
        · simp only [hend]
          refine Answers.cons (.ok ?_)
          rw [hk]
          refine ⟨hlast, _, mem_dataSection hmem hrow, ?_⟩
          rw [hinstances]
          simp
        · simp only [hend]
          exact hstop
      · simp only [hout]
        exact hstop
    · simp only [hfollow]
      exact hstop
  · simp only [hout]
    exact hstop

end Sections

/-! ## Headers -/

section Headers

variable {start : Phrase} {base row : List LexemeKind} {L : Language LexemeKind} [Live L]
  {ts : List Token}

/-- What is left between the records of a header. -/
def moreHeaders (L : Language LexemeKind) : Language LexemeKind :=
  headerRecord.language∗ * sectionEnd L

instance : Live (moreHeaders L) := by
  rw [moreHeaders]
  infer_instance

theorem moreHeaders_eq (L : Language LexemeKind) :
    moreHeaders L = {[.endSection]} * ({[.semicolon]} * L) +
      {[.keyword]} * behindKeyword ({[.semicolon]} * moreHeaders L) := by
  conv_lhs => rw [moreHeaders, kstar_mul, headerRecord_mul]
  rfl

theorem mem_starts_moreHeaders (t : Terminal) :
    t ∈ starts (moreHeaders L) ↔ t ∈ kinds [.endSection, .keyword] := by
  rw [moreHeaders_eq, mem_starts_add, mem_starts_lit_mul, mem_starts_lit_mul]
  simp [kinds]

theorem quotient_moreHeaders (L : Language LexemeKind) :
    (moreHeaders L).leftQuotient [.endSection] = {[.semicolon]} * L ∧
      (moreHeaders L).leftQuotient [.keyword] =
        behindKeyword ({[.semicolon]} * moreHeaders L) := by
  constructor
  · rw [moreHeaders_eq]
    simp [-add_eq_sup, quotient_add, quotient_lit_mul]
  · conv_lhs => rw [moreHeaders_eq]
    simp [-add_eq_sup, quotient_add, quotient_lit_mul]

theorem sits_headerRecord (hbase : Sits start Phrase.headerRecords base)
    (hrow : row ∈ Phrase.headerRecords.language) : Sits start headerRecord (base ++ row) := by
  have hmore : Sits start headerRecord (base ++ ([] ++ (row ++ []))) :=
    hbase.after (c := []) (by decide) hrow
  simpa using hmore

theorem mem_headerRecords {last : List LexemeKind} (hrow : row ∈ Phrase.headerRecords.language)
    (hlast : last ∈ headerRecord.language) : row ++ last ∈ Phrase.headerRecords.language := by
  have hmore : row ++ (last ++ []) ∈ Phrase.headerRecords.language :=
    mem_language [part Phrase.headerRecords, part headerRecord] (by decide)
      (mem_words_part hrow (mem_words_part hlast mem_words_nil))
  simpa using hmore

/-- The records of a header were read up to the word behind them. -/
def SpansHeaders (start : Phrase) (base : List LexemeKind) (L : Language LexemeKind)
    (after : List LexemeKind) (_ : List Record) (_ : List Token) : Prop :=
  start.remaining after = {[.semicolon]} * L ∧
    ∃ row ∈ Phrase.headerRecords.language, after = base ++ (row ++ [.endSection])

/-- The reader of the records of a header accounts for its answer. -/
theorem answers_headerRecords (hstart : start ∈ readable)
    (hbase : Sits start Phrase.headerRecords base) (before : List Record) (ts : List Token)
    (hrow : row ∈ Phrase.headerRecords.language) (hapart : Apart start (base ++ row))
    (h : start.remaining (base ++ row) = moreHeaders L) :
    Answers start (base ++ row) ts (SpansHeaders start base L) (headerRecords before ts) := by
  have hbehind : start.remaining (base ++ row ++ [.keyword]) =
      behindKeyword ({[.semicolon]} * moreHeaders L) := by
    rw [remaining_append, h, (quotient_moreHeaders L).2]
  fun_induction headerRecords before ts generalizing row with
  | case1 before => exact .here (.of_apart h mem_starts_moreHeaders (by decide) (by decide) hapart)
  | case2 before t inside keyword ht stop hstop =>
    have hkind : t.kind = .keyword := congrArg Lexeme.kind ht
    have hout := answers_unnamedRecord hstart (sits_headerRecord hbase hrow) hbehind keyword t
      inside
    rw [hstop] at hout
    refine Answers.cons ?_
    rw [hkind]
    exact hout
  | case3 before t inside keyword ht r behind hread ih =>
    have hkind : t.kind = .keyword := congrArg Lexeme.kind ht
    have hout := answers_unnamedRecord hstart (sits_headerRecord hbase hrow) hbehind keyword t
      inside
    rw [hread] at hout
    obtain ⟨used, rfl, hrest, last, hlast, hafter⟩ := hout
    refine Answers.cons (Answers.later ?_)
    rw [hkind, hafter, List.append_assoc]
    rw [hafter, List.append_assoc] at hrest
    have hbetween : Apart start (base ++ row ++ last) := by
      refine apart_headerRecord hlast ?_
      rw [h, mem_starts_moreHeaders]
      decide
    rw [List.append_assoc] at hbetween
    refine ih (mem_headerRecords hrow hlast) hbetween hrest ?_
    rw [remaining_append, hrest, (quotient_moreHeaders L).2]
  | case4 before t inside ht =>
    have hkind : t.kind = .endSection := congrArg Lexeme.kind ht
    refine Answers.cons (.ok ?_)
    rw [hkind]
    refine ⟨?_, row, hrow, List.append_assoc ..⟩
    rw [remaining_append, h, (quotient_moreHeaders L).1]
  | case5 before t inside hkeyword hend =>
    refine .here (.of_apart h mem_starts_moreHeaders (by decide) (next_not_mem ?_) hapart)
    rw [List.mem_cons, List.mem_singleton]
    rintro (hkind | hkind)
    · exact hend (lexeme_eq_of_kind rfl hkind)
    · obtain ⟨name, hname⟩ := keyword_of_kind hkind
      exact hkeyword name hname

theorem headerSection_mul (L : Language LexemeKind) :
    headerSection.language * L = {[.header]} * ({[.semicolon]} * moreHeaders L) := by
  rw [headerSection_eq, moreHeaders, sectionEnd]
  simp only [mul_assoc]

theorem mem_headerSection (hrow : row ∈ Phrase.headerRecords.language) :
    .header :: .semicolon :: (row ++ [.endSection, .semicolon]) ∈ headerSection.language :=
  mem_language
    [word .header, word .semicolon, part Phrase.headerRecords, word .endSection, word .semicolon]
    (by decide)
    (mem_words_word (mem_words_word (mem_words_part hrow
      (mem_words_word (mem_words_word mem_words_nil)))))

/-- The reader of a header accounts for its answer. -/
theorem answers_header (hstart : start ∈ readable) (hbase : Sits start headerSection base)
    (h : start.remaining base = {[.header]} * ({[.semicolon]} * moreHeaders L))
    (ts : List Token) :
    Answers start base ts (Spans start base L headerSection) (header ts) := by
  unfold header
  rcases passes_require h (apart_of_kind hstart h (by decide)) ts with
    ⟨opening, rest, rfl, hk, hout, hrest⟩ | ⟨stop, hout, hstop⟩
  · simp only [hout]
    refine Answers.cons ?_
    rw [hk]
    rcases passes_require hrest (apart_of_last (by decide)) rest with
      ⟨semicolon, inside, rfl, hk, hout, hinside⟩ | ⟨stop, hout, hstop⟩
    · simp only [hout]
      have hopened : base ++ [.header] ++ [.semicolon] = base ++ [.header, .semicolon] := by simp
      have hsits : Sits start Phrase.headerRecords (base ++ [.header, .semicolon]) :=
        hbase.inner (c := [word .endSection, word .semicolon]) (by decide)
      refine Answers.cons ?_
      rw [hk, hopened]
      rw [hopened] at hinside
      have hnone : [] ∈ Phrase.headerRecords.language :=
        mem_language [] (by decide) mem_words_nil
      have hapart : Apart start (base ++ [.header, .semicolon] ++ []) := by
        rw [List.append_nil]
        exact apart_of_semicolon (by decide)
      have hanswers := answers_headerRecords hstart hsits [] inside hnone hapart
        (by rw [List.append_nil, hinside])
      rw [List.append_nil] at hanswers
      rcases hanswers.elim with
        ⟨records, used, closing, hout, rfl, hleft, row, hrow, hafter⟩ | ⟨stop, hout, hstop⟩
      · simp only [hout]
        refine Answers.later ?_
        have hclosed : Apart start (base ++ [.header, .semicolon] ++ used.map Token.kind) := by
          rw [hafter, ← List.append_assoc]
          exact apart_of_last (by decide)
        rcases passes_require hleft hclosed closing with
          ⟨t, more, rfl, hk, hend, hlast⟩ | ⟨stop, hend, hstop⟩
        · simp only [hend]
          refine Answers.cons (.ok ?_)
          rw [hk]
          refine ⟨hlast, _, mem_headerSection hrow, ?_⟩
          rw [hafter]
          simp
        · simp only [hend]
          exact hstop
      · simp only [hout]
        exact hstop
    · simp only [hout]
      exact hstop
  · simp only [hout]
    exact hstop

end Headers

end Reader

end Part21
