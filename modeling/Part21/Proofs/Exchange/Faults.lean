import Part21.Proofs.Exchange.Oversize
import Part21.Proofs.Exchange.Sections

set_option autoImplicit false

/-!
# Where faults are

A text that cannot be read has a fault with a place.  A lexical fault stands where no lexeme can be
cut, a grammatical one at the token that does not fit or at the end of the text, and a repeated name
at the record that repeats it.

Readers stop in front of one of the tokens they were given, or behind them all (`Reader.StopsIn`),
and all tokens stand in the text at their offsets and in their lines (`Token.place_of_run`).  So the
places of faults are in the text, and line and column are those of the offset.  Only where a literal
is too large to be handled is the fault reported without a place: `ReadFault.places`.
-/

namespace Part21

/-! ## Places of tokens -/

namespace Token

/-- A token stands in the text, at its offset and in its line. -/
theorem place_of_run {t : Text} {offset line : Nat} {token : Token}
    (h : token ∈ (run t offset line).tokens) :
    ∃ before behind, t = before ++ behind ∧ behind ≠ [] ∧ token.offset = offset + before.length ∧
      token.line = line + Text.lineFeeds before := by
  induction t using Cut.induction_on_cuts generalizing offset line with
  | nil =>
    rw [run_nil] at h
    cases h
  | @skip w more htakes ih =>
    rw [run_takes_none htakes] at h
    obtain ⟨before, behind, rfl, hsome, hoffset, hline⟩ := ih h
    refine ⟨w ++ before, behind, (List.append_assoc w before behind).symm, hsome, ?_, ?_⟩
    · rw [hoffset, List.length_append, Nat.add_assoc]
    · rw [hline, Text.lineFeeds_append, Nat.add_assoc]
  | @lexeme l w more htakes ih =>
    rw [run_takes_some htakes] at h
    rcases List.mem_cons.mp h with rfl | h
    · obtain ⟨c, rest, rfl, _⟩ := htakes
      exact ⟨[], c :: rest ++ more, rfl, List.cons_ne_nil _ _, rfl, rfl⟩
    · obtain ⟨before, behind, rfl, hsome, hoffset, hline⟩ := ih h
      refine ⟨w ++ before, behind, (List.append_assoc w before behind).symm, hsome, ?_, ?_⟩
      · rw [hoffset, List.length_append, Nat.add_assoc]
      · rw [hline, Text.lineFeeds_append, Nat.add_assoc]
  | fault hfirst =>
    rw [run_fault hfirst] at h
    cases h

/-- Tokens stop where no lexeme can be cut. -/
theorem stop_of_run {t : Text} {offset line : Nat} {error : LexError}
    (h : (run t offset line).stop = some error) :
    ∃ before c rest, t = before ++ c :: rest ∧ error.offset = offset + before.length ∧
      Cut.first c rest = .error error.fault := by
  induction t using Cut.induction_on_cuts generalizing offset line with
  | nil =>
    rw [run_nil] at h
    cases h
  | @skip w more htakes ih =>
    rw [run_takes_none htakes] at h
    obtain ⟨before, c, rest, rfl, hoffset, hfirst⟩ := ih h
    refine ⟨w ++ before, c, rest, (List.append_assoc w before _).symm, ?_, hfirst⟩
    rw [hoffset, List.length_append, Nat.add_assoc]
  | @lexeme l w more htakes ih =>
    rw [run_takes_some htakes] at h
    obtain ⟨before, c, rest, rfl, hoffset, hfirst⟩ := ih h
    refine ⟨w ++ before, c, rest, (List.append_assoc w before _).symm, ?_, hfirst⟩
    rw [hoffset, List.length_append, Nat.add_assoc]
  | @fault c rest f hfirst =>
    rw [run_fault hfirst] at h
    cases h
    exact ⟨[], c, rest, rfl, rfl, hfirst⟩

end Token

/-! ## Places where readers stop -/

namespace Reader

/-- If a reader stops, it does so in front of one of the tokens or behind them all. -/
def StopsIn {α : Type} (ts : List Token) (outcome : Except Stop α) : Prop :=
  ∀ stop, outcome = .error stop → stop.rest <:+ ts

namespace StopsIn

variable {α : Type} {ts more : List Token}

theorem ok (value : α) : StopsIn ts (.ok value : Except Stop α) := by
  intro stop h
  cases h

theorem here (expected : List Terminal) : StopsIn ts (.error ⟨ts, expected⟩ : Except Stop α) := by
  intro stop h
  cases h
  exact List.suffix_refl ts

theorem empty (expected : List Terminal) : StopsIn ts (.error ⟨[], expected⟩ : Except Stop α) := by
  intro stop h
  cases h
  exact List.nil_suffix

/-- What stops further on stops among the tokens. -/
theorem later {outcome : Except Stop α} (h : StopsIn more outcome) (hmore : more <:+ ts) :
    StopsIn ts outcome := fun stop hstop => (h stop hstop).trans hmore

/-- A stop is handed on. -/
theorem pass {β : Type} {outcome : Except Stop α} {stop : Stop} (h : StopsIn ts outcome)
    (hstop : outcome = .error stop) : StopsIn ts (.error stop : Except Stop β) := by
  intro own hown
  cases hown
  exact h stop hstop

end StopsIn

variable {ts rest : List Token}

theorem Exact.suffix {α : Type} {read : List Token → Answer α} {spells : α → List Token → Prop}
    (h : Exact read spells) {value : α} (hread : read ts = .ok (value, rest)) : rest <:+ ts := by
  obtain ⟨used, rfl, _⟩ := (h ts value rest).mp hread
  exact List.suffix_append used rest

theorem stopsIn_require (k : LexemeKind) (ts : List Token) : StopsIn ts (require k ts) := by
  unfold require
  split
  · exact .here _
  · split
    · exact .ok _
    · exact .here _

theorem suffix_of_require {k : LexemeKind} (h : require k ts = .ok rest) : rest <:+ ts := by
  unfold require at h
  split at h
  · cases h
  · split at h
    · cases h
      exact List.suffix_cons _ _
    · cases h

theorem stopsIn_follow (anywhere here : List Terminal) (ts : List Token) :
    StopsIn ts (follow anywhere here ts) := by
  unfold follow
  dsimp only
  repeat' split
  all_goals first
    | exact .ok _
    | exact .here _

theorem stopsIn_parameters (items : List Parameter) (frames : List Frame) (phase : Phase)
    (ts : List Token) : StopsIn ts (parameters items frames phase ts) := by
  fun_induction parameters items frames phase ts
  all_goals first
    | exact .ok _
    | exact .here _
    | (rename_i ih; exact ih.later (List.suffix_cons _ _))

theorem stopsIn_group (keyword : Text) (ts : List Token) : StopsIn ts (group keyword ts) := by
  unfold group
  split
  · rename_i stop hstop
    exact (stopsIn_require _ _).pass hstop
  · rename_i inside hinside
    split
    · rename_i stop hstop
      exact ((stopsIn_parameters _ _ _ _).pass hstop).later (suffix_of_require hinside)
    · exact .ok _

theorem stopsIn_endOfSimple (ts : List Token) : StopsIn ts (endOfSimple ts) := by
  unfold endOfSimple
  split
  · rename_i stop hstop
    exact (stopsIn_follow _ _ _).pass hstop
  · exact .ok _

theorem stopsIn_parts (before : List Group) (ts : List Token) : StopsIn ts (parts before ts) := by
  fun_induction parts before ts with
  | case1 => exact .here _
  | case2 before t inside name ht stop hstop =>
    exact ((stopsIn_group _ _).pass hstop).later (List.suffix_cons _ _)
  | case3 before t inside name ht part behind hgroup stop hstop =>
    have hbehind := ((exact_group name).suffix hgroup).trans (List.suffix_cons t inside)
    exact ((stopsIn_follow _ _ _).pass hstop).later hbehind
  | case4 => exact .empty _
  | case5 => exact .ok _
  | case6 before t inside name ht part next more hfollow hnext hgroup _ ih =>
    exact ih.later (((exact_group name).suffix hgroup).trans (List.suffix_cons t inside))
  | case7 => exact .here _

theorem stopsIn_namedRecord (id : Nat) (name : Token) (ts : List Token) :
    StopsIn ts (namedRecord id name ts) := by
  unfold namedRecord
  split
  · rename_i stop hstop
    exact (stopsIn_require _ _).pass hstop
  · exact .empty _
  · rename_i t inside hequals
    have hrest := suffix_of_require hequals
    have hinside := (List.suffix_cons t inside).trans hrest
    split
    · split
      · rename_i stop hstop
        exact ((stopsIn_group _ _).pass hstop).later hinside
      · rename_i g behind hgroup
        split
        · rename_i stop hstop
          have hbehind := ((exact_group _).suffix hgroup).trans hinside
          exact ((stopsIn_endOfSimple _).pass hstop).later hbehind
        · exact .ok _
    · split
      · rename_i stop hstop
        exact ((stopsIn_parts _ _).pass hstop).later hinside
      · rename_i more hparts
        obtain ⟨used, groups, rfl, _⟩ := spellsParts_of_parts hparts
        exact (StopsIn.here _).later ((List.suffix_append used more).trans hinside)
      · rename_i first others behind hparts
        obtain ⟨used, groups, rfl, _⟩ := spellsParts_of_parts hparts
        split
        · rename_i stop hstop
          have hbehind := (List.suffix_append used behind).trans hinside
          exact ((stopsIn_require _ _).pass hstop).later hbehind
        · exact .ok _
    · exact (StopsIn.here _).later hrest

theorem stopsIn_unnamedRecord (keyword : Text) (start : Token) (ts : List Token) :
    StopsIn ts (unnamedRecord keyword start ts) := by
  unfold unnamedRecord
  split
  · rename_i stop hstop
    exact (stopsIn_group _ _).pass hstop
  · rename_i g behind hgroup
    split
    · rename_i stop hstop
      exact ((stopsIn_endOfSimple _).pass hstop).later ((exact_group _).suffix hgroup)
    · exact .ok _

theorem stopsIn_instances (anywhere here : List Terminal) (before : List Record)
    (ts : List Token) : StopsIn ts (instances anywhere here before ts) := by
  fun_induction instances anywhere here before ts with
  | case1 => exact .ok _
  | case2 before t inside id ht stop hstop =>
    exact ((stopsIn_namedRecord _ _ _).pass hstop).later (List.suffix_cons _ _)
  | case3 before t inside id ht r more hread stop hstop =>
    obtain ⟨used, rfl, _⟩ := Record.spelledBy_of_namedRecord ht hread
    have hmore := (List.suffix_append used more).trans (List.suffix_cons t _)
    exact ((stopsIn_follow _ _ _).pass hstop).later hmore
  | case4 before t inside id ht r more hread hfollow ih =>
    obtain ⟨used, rfl, _⟩ := Record.spelledBy_of_namedRecord ht hread
    exact ih.later ((List.suffix_append used more).trans (List.suffix_cons t _))
  | case5 => exact .ok _

theorem stopsIn_sectionParameters (ts : List Token) : StopsIn ts (sectionParameters ts) := by
  unfold sectionParameters
  split
  · exact .here _
  · rename_i t inside
    split
    · exact .ok _
    · split
      · rename_i stop hstop
        exact ((stopsIn_parameters _ _ _ _).pass hstop).later (List.suffix_cons t inside)
      · rename_i values behind hvalues
        split
        · rename_i stop hstop
          have hbehind := (exact_parameters_wanted.suffix hvalues).trans (List.suffix_cons t inside)
          exact ((stopsIn_require _ _).pass hstop).later hbehind
        · exact .ok _
    · exact .here _

theorem stopsIn_dataSection (anywhere : List Terminal) (ts : List Token) :
    StopsIn ts (dataSection anywhere ts) := by
  unfold dataSection
  split
  · rename_i stop hstop
    exact (stopsIn_sectionParameters _).pass hstop
  · rename_i values inside hvalues
    have hinside := exact_sectionParameters.suffix hvalues
    split
    · rename_i stop hstop
      exact ((stopsIn_follow _ _ _).pass hstop).later hinside
    · split
      · rename_i stop hstop
        exact ((stopsIn_instances _ _ _ _).pass hstop).later hinside
      · rename_i records behind hrecords
        obtain ⟨used, own, rfl, _⟩ := spellsInstances_of_instances hrecords
        have hbehind := (List.suffix_append used behind).trans hinside
        split
        · rename_i stop hstop
          exact ((stopsIn_require _ _).pass hstop).later hbehind
        · rename_i closing hclosing
          split
          · rename_i stop hstop
            have hlast := (suffix_of_require hclosing).trans hbehind
            exact ((stopsIn_require _ _).pass hstop).later hlast
          · exact .ok _

theorem stopsIn_headerRecords (before : List Record) (ts : List Token) :
    StopsIn ts (headerRecords before ts) := by
  fun_induction headerRecords before ts with
  | case1 => exact .here _
  | case2 before t inside keyword ht stop hstop =>
    exact ((stopsIn_unnamedRecord _ _ _).pass hstop).later (List.suffix_cons _ _)
  | case3 before t inside keyword ht r more hread ih =>
    obtain ⟨used, rfl, _⟩ := Record.spelledBy_of_unnamedRecord ht hread
    exact ih.later ((List.suffix_append used more).trans (List.suffix_cons t _))
  | case4 => exact .ok _
  | case5 => exact .here _

theorem stopsIn_header (ts : List Token) : StopsIn ts (header ts) := by
  unfold header
  split
  · rename_i stop hstop
    exact (stopsIn_require _ _).pass hstop
  · rename_i opening hopening
    have hopened := suffix_of_require hopening
    split
    · rename_i stop hstop
      exact ((stopsIn_require _ _).pass hstop).later hopened
    · rename_i inside hinside
      have hstart := (suffix_of_require hinside).trans hopened
      split
      · rename_i stop hstop
        exact ((stopsIn_headerRecords _ _).pass hstop).later hstart
      · rename_i records closing hrecords
        obtain ⟨used, more, ending, rfl, _⟩ := spells_of_headerRecords hrecords
        split
        · rename_i stop hstop
          have hclosing := (List.suffix_cons ending closing).trans (List.suffix_append used _)
          exact ((stopsIn_require _ _).pass hstop).later (hclosing.trans hstart)
        · exact .ok _

theorem stopsIn_read (ts : List Token) : StopsIn ts (Record.read ts) := by
  unfold Record.read
  split
  · exact .here _
  · rename_i t inside
    split
    · exact (stopsIn_namedRecord _ _ _).later (List.suffix_cons t inside)
    · exact (stopsIn_unnamedRecord _ _ _).later (List.suffix_cons t inside)
    · exact .here _

theorem stopsIn_preamble (ts : List Token) : StopsIn ts (ExchangeFile.preamble ts) := by
  unfold ExchangeFile.preamble
  split
  · rename_i stop hstop
    exact (stopsIn_require _ _).pass hstop
  · rename_i semicolon hopening
    have hopened := suffix_of_require hopening
    split
    · rename_i stop hstop
      exact ((stopsIn_require _ _).pass hstop).later hopened
    · rename_i inside hinside
      exact (stopsIn_header _).later ((suffix_of_require hinside).trans hopened)

end Reader

/-! ## Records among tokens -/

/-- Tokens in a row spell the record. -/
def Record.StandsAmong (r : Record) (ts : List Token) : Prop :=
  ∃ own, own <:+: ts ∧ r.SpelledBy own

namespace Record

variable {r : Record} {records : List Record} {ts more : List Token}

theorem StandsAmong.mono (h : r.StandsAmong ts) (hmore : ts <:+: more) : r.StandsAmong more := by
  obtain ⟨own, hown, hspelled⟩ := h
  exact ⟨own, hown.trans hmore, hspelled⟩

theorem SpelledInTurn.standsAmong (h : SpelledInTurn records ts) (hr : r ∈ records) :
    r.StandsAmong ts := by
  induction h with
  | nil => cases hr
  | @cons first rest own others hfirst _ ih =>
    rcases List.mem_cons.mp hr with rfl | hr
    · exact ⟨own, (List.prefix_append own others).isInfix, hfirst⟩
    · exact (ih hr).mono (List.suffix_append own others).isInfix

end Record

namespace Reader

theorem SpellsSection.standsAmong {content : List Parameter × List Record} {ts : List Token}
    (h : SpellsSection content ts) {r : Record} (hr : r ∈ content.2) : r.StandsAmong ts := by
  obtain ⟨opening, inside, ending, semicolon, rfl, _, hinside, _⟩ := h
  exact (hinside.spelled.standsAmong hr).mono (List.infix_append' _ _ _)

end Reader

theorem ExchangeFile.SpellsSections.standsAmong {sections : List DataSection} {ts : List Token}
    (h : ExchangeFile.SpellsSections sections ts) {r : Record}
    (hr : r ∈ sections.flatMap DataSection.records) : r.StandsAmong ts := by
  induction h with
  | nil => cases hr
  | @cons s rest word ts more _ hs _ ih =>
    rw [List.flatMap_cons, List.mem_append] at hr
    rcases hr with hr | hr
    · exact (hs.standsAmong hr).mono (List.infix_append [word] ts more)
    · exact (ih hr).mono (List.suffix_append _ more).isInfix

/-! ## Faults of a run of tokens -/

/-- A fault that a run of tokens can lead to: the one that stops it, a token of it or its end where
something else should come, or two records among its tokens that have the same name. -/
inductive ReadFault.Arises (run : TokenRun) : ReadFault → Prop
  | lexical {error : LexError} (h : run.stop = some error) : Arises run (.lexical error)
  | token {token : Token} (h : token ∈ run.tokens) (expected : List Terminal) :
      Arises run (.grammatical (some token) expected)
  | ending (expected : List Terminal) : Arises run (.grammatical none expected)
  | duplicate {id : Int} {first second : Record} (hfirst : first.StandsAmong run.tokens)
      (hsecond : second.StandsAmong run.tokens) (hsame : first.id = some id ∧ second.id = some id) :
      Arises run (.duplicate ⟨id, first.offset, second.offset, second.line⟩)

namespace TokenRun

variable {run : TokenRun} {fault : ReadFault}

theorem arises_faultOf {stop : Stop} (h : stop.rest <:+ run.tokens) :
    ReadFault.Arises run (run.faultOf stop) := by
  unfold faultOf
  split
  · rename_i token rest hrest
    rw [hrest] at h
    exact .token (h.subset List.mem_cons_self) _
  · rename_i hstop
    exact .lexical hstop
  · exact .ending _

theorem arises_finish {rest : List Token} {expected : List Terminal} (hrest : rest <:+ run.tokens)
    (h : run.finish rest expected = .error fault) : ReadFault.Arises run fault := by
  unfold finish at h
  split at h <;> cases h
  exact arises_faultOf hrest

theorem arises_stop {α : Type} {ts : List Token} {outcome : Except Stop α} {stop : Stop}
    (houtcome : Reader.StopsIn ts outcome) (hts : ts <:+ run.tokens)
    (h : outcome = .error stop) : ReadFault.Arises run (run.faultOf stop) :=
  arises_faultOf ((houtcome stop h).trans hts)

/-- A repeated name is that of two records that stand among the tokens. -/
theorem arises_duplicate {records : List Record} {name : DuplicateName}
    (hrecords : ∀ r ∈ records, r.StandsAmong run.tokens)
    (h : Record.duplicate? [] records = some name) : ReadFault.Arises run (.duplicate name) := by
  obtain ⟨first, second, ⟨before, between, behind, rfl, hfirst, hsecond, _⟩, hname⟩ :=
    @Record.repeats_of_duplicate? [] records name List.nodup_nil h
  rw [hname]
  exact .duplicate (hrecords first (by simp)) (hrecords second (by simp)) ⟨hfirst, hsecond⟩

theorem arises_assemble {records : List Record} {parameters : List Parameter} {header : Header}
    {name : DuplicateName} (hrecords : ∀ r ∈ records, r.StandsAmong run.tokens)
    (h : DataSection.assemble records parameters header = .error name) :
    ReadFault.Arises run (.duplicate name) := by
  unfold DataSection.assemble at h
  split at h
  · rename_i own hown
    cases h
    exact arises_duplicate hrecords hown
  · cases h

theorem arises_assembleAlone {records : List Record} {parameters : List Parameter}
    (hrecords : ∀ r ∈ records, r.StandsAmong run.tokens)
    (h : DataSection.assembleAlone records parameters = .error fault) :
    ReadFault.Arises run fault := by
  unfold DataSection.assembleAlone at h
  split at h
  · rename_i name hname
    cases h
    exact arises_assemble hrecords hname
  · cases h

end TokenRun

open TokenRun Reader

theorem Record.arises_of_ofRun {run : TokenRun} {fault : ReadFault}
    (h : Record.ofRun run = .error fault) : ReadFault.Arises run fault := by
  unfold Record.ofRun at h
  split at h
  · rename_i stop hstop
    cases h
    exact arises_stop (stopsIn_read _) (List.suffix_refl _) hstop
  · rename_i r rest hread
    split at h
    · rename_i own hown
      cases h
      exact arises_finish (Record.exact_read.suffix hread) hown
    · cases h

theorem DataSection.arises_of_ofRun {run : TokenRun} {fault : ReadFault}
    (h : (DataSection.ofRun run).2 = .error fault) : ReadFault.Arises run fault := by
  unfold DataSection.ofRun at h
  split at h
  · rename_i offset line inside htokens
    have hinside : inside <:+ run.tokens := htokens ▸ List.suffix_cons _ inside
    split at h
    · rename_i stop hstop
      cases h
      exact arises_stop (stopsIn_dataSection _ _) hinside hstop
    · rename_i parameters records rest hread
      obtain ⟨used, rfl, hspells⟩ := (exact_dataSection (by simp [behindInstance])
        (by simp [behindInstance]) _ _ _).mp hread
      have hrecords : ∀ r ∈ records, r.StandsAmong run.tokens := fun r hr =>
        (hspells.standsAmong hr).mono ((List.prefix_append used rest).isInfix.trans hinside.isInfix)
      split at h
      · rename_i own hown
        cases h
        exact arises_assembleAlone hrecords hown
      · split at h
        · rename_i own hown
          cases h
          exact arises_finish ((List.suffix_append used rest).trans hinside) hown
        · cases h
  · split at h
    · rename_i stop hstop
      cases h
      exact arises_stop (stopsIn_instances _ _ _ _) (List.suffix_refl _) hstop
    · rename_i records rest hread
      obtain ⟨used, own, htokens, hown, hspells, _⟩ := spellsInstances_of_instances hread
      obtain rfl : records = own := hown
      split at h
      · rename_i own hown
        cases h
        exact arises_finish (htokens ▸ List.suffix_append used rest) hown
      · split at h
        · rename_i own hown
          cases h
          refine arises_assembleAlone (fun r hr => ?_) hown
          exact (hspells.spelled.standsAmong hr).mono
            (htokens ▸ (List.prefix_append used rest).isInfix)
        · cases h

namespace ExchangeFile

variable {run : TokenRun} {fault : ReadFault}

theorem arises_of_readSections {header : Header} {before : List DataSection} {ts : List Token}
    (hts : ts <:+ run.tokens) (h : (readSections run header before ts).2 = .error fault) :
    ReadFault.Arises run fault := by
  fun_induction readSections run header before ts with
  | case1 before ts stop hstop =>
    cases h
    exact arises_stop (stopsIn_follow _ _ _) hts hstop
  | case2 before offset line inside stop hstop hfollow =>
    cases h
    exact arises_stop (stopsIn_dataSection _ _) ((List.suffix_cons _ _).trans hts) hstop
  | case3 before offset line inside parameters records rest hread stop hstop hfollow =>
    cases h
    have hrest := (exact_section.suffix hread).trans ((List.suffix_cons _ _).trans hts)
    exact arises_stop (stopsIn_follow _ _ _) hrest hstop
  | case4 before offset line inside parameters records rest hread hnext name hname hfollow =>
    cases h
    obtain ⟨used, rfl, hspells⟩ := (exact_section _ _ _).mp hread
    have hused := (List.prefix_append used rest).isInfix.trans
      ((List.suffix_cons _ _).trans hts).isInfix
    exact arises_assemble (fun r hr => (hspells.standsAmong hr).mono hused) hname
  | case5 before offset line inside parameters records rest hread hnext s hs events answer
      hanswer hfollow ih =>
    rw [hanswer] at ih
    exact ih ((exact_section.suffix hread).trans ((List.suffix_cons _ _).trans hts)) h
  | case6 => cases h

theorem arises_of_ofRun (h : (ofRun run).2 = .error fault) : ReadFault.Arises run fault := by
  unfold ofRun at h
  split at h
  · rename_i stop hstop
    cases h
    exact arises_stop (stopsIn_preamble _) (List.suffix_refl _) hstop
  · rename_i header inside hread
    have hinside := exact_preamble.suffix hread
    split at h
    · rename_i events own hsections
      cases h
      exact arises_of_readSections hinside (congrArg Prod.snd hsections)
    · rename_i events data closing hsections
      obtain ⟨used, more, word, rfl, hmore, hspells, _⟩ :=
        spells_of_readSections (congrArg Prod.snd hsections)
      obtain rfl : data = more := hmore
      have hclosing := ((List.suffix_cons word closing).trans (List.suffix_append used _)).trans
        hinside
      split at h
      · rename_i stop hstop
        cases h
        exact arises_stop (stopsIn_require _ _) hclosing hstop
      · rename_i rest hlast
        split at h
        · rename_i name hname
          cases h
          rw [assemble, DataSection.duplicate?_eq] at hname
          split at hname
          · rename_i own hown
            cases hname
            refine arises_duplicate (fun r hr => ?_) hown
            exact (hspells.standsAmong hr).mono
              ((List.prefix_append used _).isInfix.trans hinside.isInfix)
          · cases hname
        · split at h
          · rename_i own hown
            cases h
            exact arises_finish ((suffix_of_require hlast).trans hclosing) hown
          · cases h

end ExchangeFile

/-! ## Places in a text -/

/-- The place of an offset in a text, with its line and its column. -/
def Location.PointsInto (l : Location) (t : Text) : Prop :=
  ∃ offset line column, l = ⟨some offset, some line, some column⟩ ∧ offset ≤ t.length ∧
    t.lineAndColumn offset = (line, (column : Int))

theorem Location.pointsInto_ofOffset {t : Text} {offset : Nat} (h : offset ≤ t.length) :
    (Location.ofOffset t offset).PointsInto t :=
  ⟨offset, t.lineAt offset, t.columnAt offset, rfl, h, t.lineAndColumn_ofNat offset⟩

/-- The record stands at an offset in a text and in the line of this offset, where its tokens
begin. -/
structure Record.StandsIn (r : Record) (t : Text) : Prop where
  among : r.StandsAmong (Token.ofText t).tokens
  place : ∃ offset, offset < t.length ∧ r.offset = some offset ∧ r.line = some (t.lineAt offset)

namespace ReadFault

/-- What the place of a fault in a text is.  A lexical fault without a place comes of a literal that
is too large to be handled, which starts at the offset where the tokens stop. -/
inductive Placed (t : Text) : ReadFault → Prop
  | lexical {error : LexError} (hlocated : error.fault.isLocated = true)
      (hplace : ((lexical error).location t).PointsInto t) : Placed t (.lexical error)
  | oversized {error : LexError} (hoffset : error.offset ≤ t.length)
      (hsize : Cut.Oversized (t.drop error.offset) error.fault) : Placed t (.lexical error)
  | grammatical {found : Option Token} {expected : List Terminal}
      (hplace : ((grammatical found expected).location t).PointsInto t) :
      Placed t (.grammatical found expected)
  | duplicate {name : DuplicateName} {first second : Record} (hfirst : first.StandsIn t)
      (hsecond : second.StandsIn t)
      (hsame : first.id = some name.id ∧ second.id = some name.id)
      (hoffsets : name.firstOffset = first.offset ∧ name.offset = second.offset)
      (hplace : (duplicate name).location t = ⟨second.offset, second.line, none⟩) :
      Placed t (.duplicate name)

end ReadFault

theorem Token.place_of_ofText {t : Text} {token : Token} (h : token ∈ (ofText t).tokens) :
    token.offset < t.length ∧ token.line = t.lineAt token.offset := by
  obtain ⟨before, behind, rfl, hsome, hoffset, hline⟩ := place_of_run h
  have hpos : 0 < behind.length := List.length_pos_iff.mpr hsome
  rw [Nat.zero_add] at hoffset
  rw [hoffset, hline, List.length_append, Text.lineAt, List.take_left, Nat.add_comm 1]
  exact ⟨by omega, rfl⟩

theorem Record.StandsAmong.standsIn {r : Record} {t : Text}
    (h : r.StandsAmong (Token.ofText t).tokens) : r.StandsIn t := by
  refine ⟨h, ?_⟩
  obtain ⟨own, hown, hspelled⟩ := h
  cases own with
  | nil =>
    -- No record is spelled by nothing.
    have hsemicolon : Lexeme.semicolon ∈ r.lexemes := by simp [Record.lexemes]
    rw [← hspelled.lexemes] at hsemicolon
    cases hsemicolon
  | cons first rest =>
    obtain ⟨hoffset, hline⟩ := hspelled.placed first rfl
    obtain ⟨hinside, hown⟩ := Token.place_of_ofText (hown.subset List.mem_cons_self)
    exact ⟨first.offset, hinside, hoffset, hown ▸ hline⟩

theorem LexError.placed {t : Text} {error : LexError} (h : (Token.ofText t).stop = some error) :
    ReadFault.Placed t (.lexical error) := by
  obtain ⟨before, c, rest, rfl, hoffset, hfirst⟩ := Token.stop_of_run h
  rw [Nat.zero_add] at hoffset
  have hinside : error.offset ≤ (before ++ c :: rest).length := by
    rw [hoffset, List.length_append]
    exact Nat.le_add_right _ _
  rcases Cut.located_of_first hfirst with hlocated | hsize
  · refine .lexical hlocated ?_
    rw [ReadFault.location, if_pos hlocated]
    exact Location.pointsInto_ofOffset hinside
  · refine .oversized hinside ?_
    rwa [hoffset, List.drop_left]

/-- A fault that the tokens of a text lead to has its place in the text. -/
theorem ReadFault.Arises.placed {t : Text} {fault : ReadFault}
    (h : ReadFault.Arises (Token.ofText t) fault) : ReadFault.Placed t fault := by
  cases h with
  | lexical h => exact LexError.placed h
  | token h expected =>
    exact .grammatical (Location.pointsInto_ofOffset (Token.place_of_ofText h).1.le)
  | ending expected => exact .grammatical (Location.pointsInto_ofOffset (Nat.le_refl _))
  | duplicate hfirst hsecond hsame =>
    exact .duplicate hfirst.standsIn hsecond.standsIn hsame ⟨rfl, rfl⟩ rfl

/-- Every text is cut into tokens and read as a record, as a data section and as an exchange
structure, or has a fault in a known place.  A lexical or a grammatical fault has an offset between
zero and the length of the text, with the line and the column of this offset, and a repeated name
those of the record that repeats it.  The only faults without a place are those of literals that are
too large to be handled. -/
theorem ReadFault.places (t : Text) :
    (∀ error, (Token.ofText t).stop = some error → Placed t (.lexical error)) ∧
      (∀ fault, Record.ofText t = .error fault → Placed t fault) ∧
      (∀ fault, (DataSection.ofText t).2 = .error fault → Placed t fault) ∧
      ∀ fault, (ExchangeFile.ofText t).2 = .error fault → Placed t fault :=
  ⟨fun _ h => LexError.placed h, fun _ h => (Record.arises_of_ofRun h).placed,
    fun _ h => (DataSection.arises_of_ofRun h).placed,
    fun _ h => (ExchangeFile.arises_of_ofRun h).placed⟩

/-- A directive for a character beyond all words stops the tokens at the beginning of the text, and
this fault has no place there. -/
theorem ReadFault.unplaced_beyond_words :
    (Token.ofText "'\\X4\\80000000\\X0\\'").stop = some ⟨.badString .outOfWord, 0⟩ ∧
      ¬((lexical ⟨.badString .outOfWord, 0⟩).location "'\\X4\\80000000\\X0\\'").PointsInto
        "'\\X4\\80000000\\X0\\'" := by
  refine ⟨by decide +kernel, ?_⟩
  rintro ⟨offset, line, column, hplace, _⟩
  simp [location, LexFault.isLocated, Location.unknown] at hplace

end Part21
