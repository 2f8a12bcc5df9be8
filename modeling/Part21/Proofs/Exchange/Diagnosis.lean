import Part21.Proofs.Exchange.SectionRefusals

set_option autoImplicit false

/-!
# Faults of texts

A text is read as a record, as a data section or as an exchange structure.  Where that fails for a
grammatical reason, what is said of the tokens is in order for the phrase that was read
(`ReadFault.reports_of_fails`).
-/

namespace Part21

open Computability Reader Phrase

/-! ## Faults of runs -/

/-- What a fault says of the tokens is in order, if it is about the grammar. -/
def ReadFault.Diagnosed (start : Phrase) (tokens : List Token) : ReadFault → Prop
  | .grammatical found expected =>
    ∃ before behind, tokens = before ++ behind ∧ behind.head? = found ∧
      Reports start (before.map Token.kind) (next behind) expected
  | .lexical _ => True
  | .duplicate _ => True

namespace TokenRun

open ReadFault

variable {run : TokenRun} {start : Phrase} {used rest : List Token} {expected : List Terminal}

/-- What a reader says where it stops is in order. -/
theorem diagnosed_faultOf (used : List Token) {ts : List Token} {stop : Stop}
    (htokens : run.tokens = used ++ ts)
    (h : Refuses start (used.map Token.kind) ts stop) :
    Diagnosed start run.tokens (run.faultOf stop) := by
  obtain ⟨more, hmore, hreports⟩ := h
  obtain ⟨rest, expected⟩ := stop
  rw [← List.map_append] at hreports
  have hparts : run.tokens = used ++ more ++ rest := by rw [htokens, hmore, List.append_assoc]
  unfold faultOf
  cases rest with
  | cons t others => exact ⟨used ++ more, t :: others, hparts, rfl, hreports⟩
  | nil =>
    cases run.stop with
    | some error => trivial
    | none => exact ⟨used ++ more, [], hparts, rfl, hreports⟩

/-- What is said of tokens that are left over is in order. -/
theorem diagnosed_finish (htokens : run.tokens = used ++ rest)
    (hreports : rest ≠ [] → Reports start (used.map Token.kind) (next rest) expected)
    {fault : ReadFault} (h : run.finish rest expected = .error fault) :
    Diagnosed start run.tokens fault := by
  unfold finish at h
  cases rest with
  | cons t others =>
    cases h
    exact diagnosed_faultOf used htokens (.here (hreports (List.cons_ne_nil _ _)))
  | nil =>
    cases hstop : run.stop with
    | some error =>
      simp only [hstop, faultOf] at h
      cases h
      trivial
    | none =>
      rw [hstop] at h
      cases h

/-- Behind a whole phrase the end is expected. -/
theorem diagnosed_finish_end (used : List Token) (htokens : run.tokens = used ++ rest)
    (hleft : start.remaining (used.map Token.kind) = 1)
    (hmerged : ∀ phrase ∈ completed, Behind start phrase (used.map Token.kind) →
      ∀ t, t ∈ [Terminal.endOfInput] ↔ t ∈ follows start phrase)
    {fault : ReadFault} (h : run.finish rest [.endOfInput] = .error fault) :
    Diagnosed start run.tokens fault := by
  refine diagnosed_finish htokens (fun hrest => ?_) h
  obtain ⟨t, others, rfl⟩ := List.exists_cons_of_ne_nil hrest
  refine .of_starts hleft (fun u => ?_) (by decide) (by simp [next])
    fun phrase hphrase hstrays => hmerged phrase hphrase hstrays.1
  rw [mem_starts_one, List.mem_singleton]

end TokenRun

/-! ## Records -/

namespace Record

theorem remaining_record :
    record.remaining [] =
      {[.entityName]} * behindName 1 + {[.keyword]} * behindKeyword ({[.semicolon]} * 1) := by
  rw [remaining_nil, record_eq, ← entityInstance_mul, ← headerRecord_mul, mul_one, mul_one]

/-- What can start the text of a record. -/
theorem mem_starts_record (t : Terminal) :
    t ∈ starts
      ({[.entityName]} * behindName 1 + {[.keyword]} * behindKeyword ({[.semicolon]} * 1)) ↔
        t ∈ kinds [.entityName, .keyword] := by
  rw [mem_starts_add, mem_starts_lit_mul, mem_starts_lit_mul]
  simp [kinds]

theorem quotient_record :
    (record.remaining []).leftQuotient [.entityName] = behindName 1 ∧
      (record.remaining []).leftQuotient [.keyword] = behindKeyword ({[.semicolon]} * 1) := by
  rw [remaining_record]
  constructor <;> simp [-add_eq_sup, quotient_add, quotient_lit_mul]

/-- The reader of a record accounts for its answer. -/
theorem answers_read (ts : List Token) :
    Answers record [] ts (fun after _ _ => record.remaining after = 1) (read ts) := by
  have hself : Sits record record [] := ⟨[], Relation.ReflTransGen.refl⟩
  unfold read
  cases ts with
  | nil =>
    exact .here (.of_apart remaining_record mem_starts_record (by decide) (by decide)
      (apart_nil record))
  | cons t rest =>
    dsimp only
    split
    · rename_i id ht
      have hkind : t.kind = .entityName := congrArg Lexeme.kind ht
      have hsits : Sits record entityInstance [] := hself.inner (a := []) (c := []) (by decide)
      refine Answers.cons ?_
      rw [hkind]
      exact (answers_namedRecord (by decide) hsits quotient_record.1 id t rest).imp
        fun _ _ _ h => h.1
    · rename_i keyword ht
      have hkind : t.kind = .keyword := congrArg Lexeme.kind ht
      have hsits : Sits record headerRecord [] := hself.inner (a := []) (c := []) (by decide)
      refine Answers.cons ?_
      rw [hkind]
      exact (answers_unnamedRecord (by decide) hsits quotient_record.2 keyword t rest).imp
        fun _ _ _ h => h.1
    · rename_i hname hkeyword
      refine .here (.of_apart remaining_record mem_starts_record (by decide) (next_not_mem ?_)
        (apart_nil record))
      rw [List.mem_cons, List.mem_singleton]
      rintro (hkind | hkind)
      · obtain ⟨id, hid⟩ := entityName_of_kind hkind
        exact hname id hid
      · obtain ⟨name, hword⟩ := keyword_of_kind hkind
        exact hkeyword name hword

/-- Behind a whole record ends nothing but an instance, and the text. -/
theorem followed_by_end {before : List LexemeKind} (h : record.remaining before = 1)
    (phrase : Phrase) (hphrase : phrase ∈ completed) (hbehind : Behind record phrase before)
    (t : Terminal) : t ∈ [Terminal.endOfInput] ↔ t ∈ follows record phrase := by
  have hhere : ∀ t ∈ Part21.starts (record.remaining before), t ∈ [Terminal.endOfInput] := by
    intro t ht
    rw [h, mem_starts_one] at ht
    exact List.mem_singleton.mpr ht
  simp only [completed, List.mem_cons, List.not_mem_nil, or_false] at hphrase
  rcases hphrase with rfl | rfl | rfl
  · exact absurd hbehind (not_behind_of_starts (by decide) (by decide) hhere (by decide))
  · exact absurd hbehind (not_behind_of_starts (by decide) (by decide) hhere (by decide))
  · exact (follows_entityInstance (by decide : record ∈ readable) t).symm

theorem diagnosed {run : TokenRun} {fault : ReadFault} (h : ofRun run = .error fault) :
    fault.Diagnosed record run.tokens := by
  unfold ofRun at h
  rcases (answers_read run.tokens).elim with
    ⟨r, used, rest, hout, htokens, hleft⟩ | ⟨stop, hout, hstop⟩
  · simp only [hout] at h
    split at h
    · rename_i own hown
      cases h
      exact TokenRun.diagnosed_finish_end used htokens hleft (followed_by_end hleft) hown
    · cases h
  · simp only [hout] at h
    cases h
    exact TokenRun.diagnosed_faultOf [] rfl hstop

end Record

/-! ## Data sections -/

namespace DataSection

theorem remaining_dataBlock :
    dataBlock.remaining [] =
      {[.data]} * behindData (moreInstances (sectionEnd 1)) + moreInstances 1 := by
  rw [remaining_nil, dataBlock_eq, ← dataSection_mul, moreInstances, mul_one, mul_one]

/-- What can come in a bare row of instances. -/
theorem mem_starts_inRow (t : Terminal) : t ∈ Part21.starts (moreInstances 1) ↔ t ∈ inRow := by
  rw [moreInstances_eq, mem_starts_add, mem_starts_one, mem_starts_lit_mul]
  simp [inRow, or_comm]

/-- What can start the text of a section. -/
theorem mem_starts_dataBlock (t : Terminal) :
    t ∈ Part21.starts
      ({[.data]} * behindData (moreInstances (sectionEnd 1)) + moreInstances 1) ↔ t ∈ starts := by
  rw [mem_starts_add, mem_starts_lit_mul, mem_starts_inRow]
  simp [inRow, starts]

/-- Between its words less can come behind an instance than anywhere. -/
theorem anticipated_inSection : Anticipated dataBlock entityInstance behindInstance inSection :=
  ⟨follows_entityInstance (by decide), by decide, by decide⟩

theorem between_inRow : Between dataBlock 1 behindInstance inRow where
  apart := quotient_one .entityName
  starts := mem_starts_inRow
  distinct := by decide
  foreseen := ⟨follows_entityInstance (by decide), by decide, by decide⟩

theorem quotient_dataBlock :
    (dataBlock.remaining []).leftQuotient [.data] =
        behindData (moreInstances (sectionEnd 1)) ∧
      (dataBlock.remaining []).leftQuotient [.entityName] = behindName (moreInstances 1) := by
  rw [remaining_dataBlock]
  constructor
  · rw [moreInstances_eq 1]
    simp [-add_eq_sup, quotient_add, quotient_lit_mul, quotient_one]
  · rw [quotient_add, quotient_lit_mul, if_neg (by decide),
      quotient_moreInstances (quotient_one .entityName), zero_add]

theorem sits_dataBlock : Sits dataBlock dataBlock [] := ⟨[], Relation.ReflTransGen.refl⟩

/-- The reader of a section between its words accounts for its answer. -/
theorem answers_between (inside : List Token) :
    Answers dataBlock [.data] inside
      (fun after _ _ => dataBlock.remaining after = 1 ∧ Apart dataBlock after)
      (Reader.dataSection behindInstance inside) := by
  have hsits : Sits dataBlock Phrase.dataSection [] :=
    sits_dataBlock.inner (a := []) (c := []) (by decide)
  refine (answers_dataSection (by decide) anticipated_inSection hsits
    quotient_dataBlock.1 inside).imp ?_
  rintro after _ _ ⟨hleft, row, hrow, hafter⟩
  refine ⟨hleft, ?_⟩
  rw [hafter]
  exact apart_dataSection hrow

/-- The reader of a bare row accounts for its answer. -/
theorem answers_row (ts : List Token) :
    Answers dataBlock [] ts (SpansInstances dataBlock [] [] 1 inRow [] ts)
      (instances behindInstance inRow [] ts) := by
  have hsits : Sits dataBlock entityInstances [] :=
    sits_dataBlock.inner (a := []) (c := []) (by decide)
  exact answers_instances (by decide) hsits between_inRow [] ts nil_mem_entityInstances
    quotient_dataBlock.2

theorem diagnosed_assembleAlone {records : List Record} {parameters : List Parameter}
    {fault : ReadFault} (h : assembleAlone records parameters = .error fault)
    (tokens : List Token) : fault.Diagnosed dataBlock tokens := by
  unfold assembleAlone at h
  split at h
  · cases h
    trivial
  · cases h

/-- Where a bare row of instances ends in front of a token, nothing was read, and what can start
the text of a section is reported. -/
theorem reports_row {t : Token} {others ts : List Token} {after : List LexemeKind}
    {records : List Record} (hdata : next ts ≠ .lexeme .data)
    (h : SpansInstances dataBlock [] [] 1 inRow [] ts after records (t :: others)) :
    Reports dataBlock after (next (t :: others)) (if records.isEmpty then starts else inRow) := by
  obtain ⟨hother, ⟨hafter, rfl, rfl⟩ | ⟨-, hmem, -⟩⟩ := h
  · rw [List.append_nil] at hafter
    subst hafter
    have hstarts : next (t :: others) ∉ starts := by
      simp only [starts, List.mem_cons, List.not_mem_nil, or_false, not_or]
      exact ⟨hdata, hother, by simp [next]⟩
    exact .of_apart remaining_dataBlock mem_starts_dataBlock (by decide) hstarts
      (apart_nil dataBlock)
  · simp only [inRow, List.mem_cons, List.not_mem_nil, or_false] at hmem
    rcases hmem with hname | hend
    · exact absurd hname hother
    · cases hend

theorem diagnosed {run : TokenRun} {fault : ReadFault} (h : (ofRun run).2 = .error fault) :
    fault.Diagnosed dataBlock run.tokens := by
  unfold ofRun at h
  split at h
  · rename_i offset line inside htokens
    rcases (answers_between inside).elim with
      ⟨content, used, rest, hout, rfl, hleft, hapart⟩ | ⟨stop, hout, hstop⟩
    · simp only [hout] at h
      split at h
      · rename_i own hown
        cases h
        exact diagnosed_assembleAlone hown _
      · split at h
        · rename_i own hown
          cases h
          exact TokenRun.diagnosed_finish_end (_ :: used) htokens hleft
            (fun phrase hphrase hbehind => absurd hbehind (hapart phrase hphrase)) hown
        · cases h
    · simp only [hout] at h
      cases h
      exact TokenRun.diagnosed_faultOf [_] htokens hstop
  · rename_i hnot
    rcases (answers_row run.tokens).elim with
      ⟨records, used, rest, hout, htokens, hread⟩ | ⟨stop, hout, hstop⟩
    · simp only [hout] at h
      split at h
      · rename_i own hown
        cases h
        refine TokenRun.diagnosed_finish htokens (fun hrest => ?_) hown
        obtain ⟨t, others, rfl⟩ := List.exists_cons_of_ne_nil hrest
        refine reports_row (fun hdata => ?_) hread
        obtain ⟨word, inside, hword, hkind⟩ := next_eq_lexeme hdata
        have hlexeme : word.lexeme = .data := lexeme_eq_of_kind rfl hkind
        exact hnot word.offset word.line inside (by rw [hword, ← hlexeme])
      · split at h
        · rename_i own hown
          cases h
          exact diagnosed_assembleAlone hown _
        · cases h
    · simp only [hout] at h
      cases h
      exact TokenRun.diagnosed_faultOf [] rfl hstop

end DataSection

/-! ## Exchange structures -/

namespace ExchangeFile

/-- What is left where another section or the end of the structure comes. -/
def moreSections : Language LexemeKind :=
  Phrase.dataSection.language∗ * ({[.closing]} * ({[.semicolon]} * 1))

instance : Live moreSections := by
  rw [moreSections]
  infer_instance

theorem moreSections_eq :
    moreSections = {[.closing]} * ({[.semicolon]} * 1) +
      {[.data]} * behindData (moreInstances (sectionEnd moreSections)) := by
  conv_lhs => rw [moreSections, kstar_mul, dataSection_mul]
  rfl

theorem mem_starts_moreSections (t : Terminal) : t ∈ starts moreSections ↔ t ∈ behindSection := by
  rw [moreSections_eq, mem_starts_add, mem_starts_lit_mul, mem_starts_lit_mul]
  simp [behindSection, kinds, or_comm]

theorem quotient_moreSections :
    moreSections.leftQuotient [.closing] = {[.semicolon]} * 1 ∧
      moreSections.leftQuotient [.data] =
        behindData (moreInstances (sectionEnd moreSections)) := by
  constructor
  · rw [moreSections_eq]
    simp [-add_eq_sup, quotient_add, quotient_lit_mul]
  · conv_lhs => rw [moreSections_eq]
    simp [-add_eq_sup, quotient_add, quotient_lit_mul]

theorem remaining_exchangeFile :
    exchangeFile.remaining [] =
      {[.opening]} * ({[.semicolon]} *
        ({[.header]} * ({[.semicolon]} * moreHeaders moreSections))) := by
  rw [remaining_nil, exchangeFile_eq, ← headerSection_mul, moreSections, mul_one]

/-- The reader of what stands in front of the sections accounts for its answer. -/
theorem answers_preamble (ts : List Token) :
    Answers exchangeFile [] ts
      (fun after _ _ => exchangeFile.remaining after = moreSections ∧
        Sits exchangeFile dataSections after) (preamble ts) := by
  have hself : Sits exchangeFile exchangeFile [] := ⟨[], Relation.ReflTransGen.refl⟩
  unfold preamble
  rcases passes_require remaining_exchangeFile (apart_nil exchangeFile) ts with
    ⟨opening, rest, rfl, hk, hout, hrest⟩ | ⟨stop, hout, hstop⟩
  · simp only [hout]
    refine Answers.cons ?_
    rw [hk]
    rcases passes_require hrest (apart_of_last (by decide)) rest with
      ⟨semicolon, inside, rfl, hk, hout, hinside⟩ | ⟨stop, hout, hstop⟩
    · simp only [hout]
      have hsits : Sits exchangeFile headerSection [.opening, .semicolon] :=
        hself.inner (a := [.opening, .semicolon])
          (c := [part dataSections, word .closing, word .semicolon]) (by decide)
      refine Answers.cons ?_
      rw [hk]
      refine (answers_header (by decide) hsits hinside inside).imp ?_
      rintro after _ _ ⟨hleft, row, hrow, rfl⟩
      refine ⟨hleft, ?_⟩
      have hbehind : Sits exchangeFile dataSections
          ([] ++ ([.opening, .semicolon] ++ (row ++ []))) :=
        hself.after (c := [word .closing, word .semicolon]) (by decide) hrow
      simpa using hbehind
    · simp only [hout]
      exact hstop
  · simp only [hout]
    exact hstop

section Sections

variable {base row : List LexemeKind}

theorem sits_dataSection (hbase : Sits exchangeFile dataSections base)
    (hrow : row ∈ dataSections.language) : Sits exchangeFile Phrase.dataSection (base ++ row) := by
  have hmore : Sits exchangeFile Phrase.dataSection (base ++ ([] ++ (row ++ []))) :=
    hbase.after (c := []) (by decide) hrow
  simpa using hmore

theorem mem_dataSections {last : List LexemeKind} (hrow : row ∈ dataSections.language)
    (hlast : last ∈ Phrase.dataSection.language) : row ++ last ∈ dataSections.language := by
  have hmore : row ++ (last ++ []) ∈ dataSections.language :=
    mem_language [part dataSections, part Phrase.dataSection] (by decide)
      (mem_words_part hrow (mem_words_part hlast mem_words_nil))
  simpa using hmore

/-- The sections of a structure were read up to the word that closes it, or what is said of a fault
is in order. -/
def SectionsRead (run : TokenRun) : Except ReadFault (List DataSection × List Token) → Prop
  | .ok (_, closing) =>
    ∃ used word, run.tokens = used ++ [word] ++ closing ∧ word.kind = .closing ∧
      exchangeFile.remaining ((used ++ [word]).map Token.kind) = {[.semicolon]} * 1
  | .error fault => fault.Diagnosed exchangeFile run.tokens

/-- Where a section or the end of the structure has to come and neither does, that is reported. -/
theorem refuses_of_follow {before : List LexemeKind} {ts : List Token} {stop : Stop}
    (h : exchangeFile.remaining before = moreSections)
    (hstop : follow behindSection behindSection ts = .error stop) :
    Refuses exchangeFile before ts stop := by
  have hapart : Apart exchangeFile before :=
    apart_of_starts (by decide) (fun t => by rw [h, mem_starts_moreSections]) (by decide)
  rcases follow_cases h mem_starts_moreSections (by decide) (.inl ⟨rfl, hapart⟩) ts with
    ⟨-, hok⟩ | ⟨_, herror, hrefuses⟩
  · rw [hstop] at hok
    cases hok
  · rw [hstop] at herror
    cases herror
    exact hrefuses

/-- The reader of a section within an exchange structure accounts for its answer. -/
theorem answers_section (hbase : Sits exchangeFile dataSections base)
    (hrow : row ∈ dataSections.language) (h : exchangeFile.remaining (base ++ row) = moreSections)
    (inside : List Token) :
    Answers exchangeFile (base ++ row ++ [.data]) inside
      (Spans exchangeFile (base ++ row) moreSections Phrase.dataSection)
      (Reader.dataSection inSection inside) := by
  have hanticipated : Anticipated exchangeFile entityInstance inSection inSection :=
    ⟨follows_entityInstance (by decide), by decide, fun _ => id⟩
  refine answers_dataSection (by decide) hanticipated (sits_dataSection hbase hrow) ?_ inside
  rw [remaining_append, h, quotient_moreSections.2]

/-- Behind a section there are sections, with more of them or the end of the structure to come. -/
theorem sections_of_dataSection (hbase : Sits exchangeFile dataSections base)
    (hrow : row ∈ dataSections.language) (h : exchangeFile.remaining (base ++ row) = moreSections)
    {tokens used inside rest : List Token} {offset line : Nat}
    (htokens : tokens = used ++ ⟨.data, offset, line⟩ :: inside)
    (hused : used.map Token.kind = base ++ row) {content : List Parameter × List Record}
    (hread : Reader.dataSection inSection inside = .ok (content, rest)) :
    ∃ all more, tokens = all ++ rest ∧ all.map Token.kind = base ++ more ∧
      more ∈ dataSections.language ∧ exchangeFile.remaining (base ++ more) = moreSections := by
  have hout := answers_section hbase hrow h inside
  rw [hread] at hout
  obtain ⟨own, rfl, hleft, last, hlast, hafter⟩ := hout
  rw [hafter, List.append_assoc] at hleft
  refine ⟨used ++ ⟨.data, offset, line⟩ :: own, row ++ last, by simp [htokens], ?_,
    mem_dataSections hrow hlast, hleft⟩
  rw [← List.append_assoc, ← hafter, ← hused]
  simp [Token.kind, Lexeme.kind]

/-- The reader of sections accounts for its answer. -/
theorem sectionsRead {run : TokenRun} (header : Header) (before : List DataSection)
    {ts used : List Token} (htokens : run.tokens = used ++ ts)
    (hused : used.map Token.kind = base ++ row) (hbase : Sits exchangeFile dataSections base)
    (hrow : row ∈ dataSections.language) (h : exchangeFile.remaining (base ++ row) = moreSections) :
    SectionsRead run (readSections run header before ts).2 := by
  fun_induction readSections run header before ts generalizing used row with
  | case1 before ts stop hstop =>
    refine TokenRun.diagnosed_faultOf _ htokens ?_
    rw [hused]
    exact refuses_of_follow h hstop
  | case2 before offset line inside stop hstop hfollow =>
    have hout := answers_section hbase hrow h inside
    rw [hstop] at hout
    have hparts : run.tokens = used ++ [⟨.data, offset, line⟩] ++ inside := by simp [htokens]
    refine TokenRun.diagnosed_faultOf _ hparts ?_
    rw [List.map_append, hused]
    exact hout
  | case3 before offset line inside parameters records rest hread stop hstop hfollow =>
    obtain ⟨all, more, htokens, hall, -, hleft⟩ :=
      sections_of_dataSection hbase hrow h htokens hused hread
    refine TokenRun.diagnosed_faultOf _ htokens ?_
    rw [hall]
    exact refuses_of_follow hleft hstop
  | case4 => trivial
  | case5 before offset line inside parameters records rest hread hnext s hs events answer
      hanswer hfollow ih =>
    obtain ⟨all, more, htokens, hall, hmore, hleft⟩ :=
      sections_of_dataSection hbase hrow h htokens hused hread
    rw [hanswer] at ih
    exact ih htokens hall hmore hleft
  | case6 before ts hother hfollow =>
    have hnext : next ts = .lexeme .data ∨ next ts = .lexeme .closing := by
      simpa [behindSection, kinds] using (follow_eq_ok.mp hfollow).2
    have hclosing : next ts = .lexeme .closing := by
      refine hnext.resolve_left fun hdata => ?_
      obtain ⟨word, inside, hword, hkind⟩ := next_eq_lexeme hdata
      have hlexeme : word.lexeme = .data := lexeme_eq_of_kind rfl hkind
      exact hother word.offset word.line inside (by rw [hword, ← hlexeme])
    obtain ⟨word, closing, rfl, hkind⟩ := next_eq_lexeme hclosing
    refine ⟨used, word, by simp [htokens], hkind, ?_⟩
    rw [List.map_append, hused, List.map_singleton, hkind, remaining_append, h,
      quotient_moreSections.1]

end Sections

theorem diagnosed {run : TokenRun} {fault : ReadFault} (h : (ofRun run).2 = .error fault) :
    fault.Diagnosed exchangeFile run.tokens := by
  unfold ofRun at h
  rcases (answers_preamble run.tokens).elim with
    ⟨header, used, inside, hout, htokens, hleft, hsits⟩ | ⟨stop, hout, hstop⟩
  · simp only [hout] at h
    have hnone : [] ∈ dataSections.language :=
      mem_language [] (by decide) mem_words_nil
    have hread := sectionsRead header [] htokens
      (List.append_nil _).symm hsits hnone (by rw [List.append_nil]; exact hleft)
    split at h
    · rename_i events own hown
      cases h
      rw [hown] at hread
      exact hread
    · rename_i events data closing hsections
      rw [hsections] at hread
      obtain ⟨all, word, htokens, hword, hend⟩ := hread
      have hapart : Apart exchangeFile ((all ++ [word]).map Token.kind) := by
        rw [List.map_append, List.map_singleton, hword]
        exact apart_of_last (by decide)
      rcases passes_require hend hapart closing with
        ⟨semicolon, rest, rfl, hk, hout, hlast⟩ | ⟨stop, hout, hstop⟩
      · simp only [hout] at h
        split at h
        · cases h
          trivial
        · split at h
          · rename_i own hown
            cases h
            have hparts : run.tokens = all ++ [word, semicolon] ++ rest := by simp [htokens]
            have hkinds : (all ++ [word, semicolon]).map Token.kind =
                all.map Token.kind ++ [.closing, .semicolon] := by simp [hword, hk]
            have hbehind : Apart exchangeFile ((all ++ [word, semicolon]).map Token.kind) := by
              rw [hkinds]
              exact apart_of_semicolon (by decide)
            refine TokenRun.diagnosed_finish_end _ hparts ?_
              (fun phrase hphrase h => absurd h (hbehind phrase hphrase)) hown
            rw [← hlast]
            simp [hk]
          · cases h
      · simp only [hout] at h
        cases h
        exact TokenRun.diagnosed_faultOf _ htokens hstop
  · simp only [hout] at h
    cases h
    exact TokenRun.diagnosed_faultOf [] rfl hstop

end ExchangeFile

/-! ## Texts -/

namespace ReadFault

/-- A text cannot be read as a phrase, because of a fault. -/
inductive Fails (t : Text) : Phrase → ReadFault → Prop
  | record {fault : ReadFault} (h : Record.ofText t = .error fault) : Fails t .record fault
  | dataBlock {fault : ReadFault} (h : (DataSection.ofText t).2 = .error fault) :
    Fails t .dataBlock fault
  | exchangeFile {fault : ReadFault} (h : (ExchangeFile.ofText t).2 = .error fault) :
    Fails t .exchangeFile fault

theorem Fails.diagnosed {t : Text} {start : Phrase} {fault : ReadFault}
    (h : Fails t start fault) : fault.Diagnosed start (Token.ofText t).tokens := by
  cases h with
  | record h => exact Record.diagnosed h
  | dataBlock h => exact DataSection.diagnosed h
  | exchangeFile h => exact ExchangeFile.diagnosed h

/-- A text that cannot be read for a grammatical reason splits in front of the token that is found:
what stands before starts a row of the phrase, and it does not with what is found; what can come
there is expected, and no more than that, unless what is found never follows the parameter, simple
record or instance that is complete there: then what is expected is what follows such a phrase
anywhere; and the place is that of what is found, or the end of the text. -/
theorem reports_of_fails {t : Text} {start : Phrase} {found : Option Token}
    {expected : List Terminal} (h : Fails t start (.grammatical found expected)) :
    ∃ before behind, (Token.ofText t).tokens = before ++ behind ∧ behind.head? = found ∧
      Reports start (before.map Token.kind) (next behind) expected ∧
      (ReadFault.grammatical found expected).location t =
        .ofOffset t ((found.map Token.offset).getD t.length) := by
  obtain ⟨before, behind, htokens, hfound, hreports⟩ := h.diagnosed
  refine ⟨before, behind, htokens, hfound, hreports, ?_⟩
  cases found <;> rfl

/-- An instance with a comma in the place of its semicolon. -/
theorem tokens_comma :
    (Token.ofText "#1=A(1),").tokens =
      [⟨.entityName 1, 0, 1⟩, ⟨.equals, 2, 1⟩, ⟨.keyword "A", 3, 1⟩, ⟨.leftParen, 4, 1⟩,
        ⟨.integer 1, 5, 1⟩, ⟨.rightParen, 6, 1⟩] ++ [⟨.comma, 7, 1⟩] := by
  decide +kernel

theorem fails_comma :
    Fails "#1=A(1)," .record (.grammatical (some ⟨.comma, 7, 1⟩) behindGroup) := by
  have hread : Record.read (Token.ofText "#1=A(1),").tokens =
      .error ⟨[⟨.comma, 7, 1⟩], behindGroup⟩ := by
    rw [tokens_comma]
    rfl
  refine .record ?_
  rw [Record.ofText, Record.ofRun, hread]
  rfl

theorem reports_of_fails_comma :
    Fails "#1=A(1)," .record (.grammatical (some ⟨.comma, 7, 1⟩) behindGroup) ∧
      ∃ before behind, (Token.ofText "#1=A(1),").tokens = before ++ behind ∧
        behind.head? = some ⟨.comma, 7, 1⟩ ∧
        Reports record (before.map Token.kind) (next behind) behindGroup ∧
        (ReadFault.grammatical (some ⟨.comma, 7, 1⟩) behindGroup).location "#1=A(1)," =
          .ofOffset "#1=A(1)," 7 :=
  ⟨fails_comma, reports_of_fails fails_comma⟩

/-- In front of the comma a keyword and a parenthesis are expected as well, and only a semicolon can
come. -/
theorem expects_beyond_comma :
    Fails "#1=A(1)," .record
        (.grammatical (some ⟨.comma, 7, 1⟩) (kinds [.keyword, .rightParen, .semicolon])) ∧
      ∃ before, (Token.ofText "#1=A(1),").tokens = before ++ [⟨.comma, 7, 1⟩] ∧
        ∀ u, u ∈ starts (record.remaining (before.map Token.kind)) ↔ u = .lexeme .semicolon := by
  have hname : record.remaining [.entityName] = behindName 1 :=
    (remaining_append record [] _).trans Record.quotient_record.1
  have hequals : record.remaining [.entityName, .equals] = behindEquals 1 := by
    refine (remaining_append record [.entityName] _).trans ?_
    rw [hname, behindName, quotient_lit_mul, if_pos rfl]
  have hkeyword : record.remaining [.entityName, .equals, .keyword] =
      behindKeyword ({[.semicolon]} * 1) := by
    refine (remaining_append record [.entityName, .equals] _).trans ?_
    rw [hequals, (quotient_behindEquals 1).1]
  have hopened : record.remaining [.entityName, .equals, .keyword, .leftParen] =
      Phase.opened.left [] ({[.semicolon]} * 1) := by
    refine (remaining_append record [.entityName, .equals, .keyword] _).trans ?_
    rw [hkeyword, behindKeyword, quotient_lit_mul, if_pos rfl]
  have hfilled : record.remaining [.entityName, .equals, .keyword, .leftParen, .integer] =
      closing [] ({[.semicolon]} * 1) :=
    remaining_literal (.inl rfl) hopened (by decide)
  have hclosed : record.remaining
      [.entityName, .equals, .keyword, .leftParen, .integer, .rightParen] =
        {[.semicolon]} * 1 := by
    refine (remaining_append record [.entityName, .equals, .keyword, .leftParen, .integer] _).trans
      ?_
    rw [hfilled, quotient_closing_rightParen]
    rfl
  refine ⟨fails_comma, _, tokens_comma, fun u => ?_⟩
  rw [← mem_starts_lit_mul (L := 1), ← hclosed]
  rfl

end ReadFault

end Part21
