import Part21.Proofs.Exchange.Faults

set_option autoImplicit false

/-!
# Tokens from any place of a text

The tokens of a text do not depend on where the cutting began.  A token takes a slice of the text,
and between the slices of two tokens stand blanks and complete comments only.  From each place
between two slices that is not within a comment the text is cut into the tokens that are still to
come, at the same places and with the same fault behind them, and the line of a token is that of its
offset (`Token.Resumes`).

The main statement is `Token.runFrom_resumes`.  It covers the records that are read from a text as
well, which stand in the lines of their offsets.
-/

namespace Part21

/-! ## Blanks and comments -/

/-- In front of the first place of a mark the mark stands nowhere. -/
theorem Text.not_infix_of_cut? {mark t before behind : Text} (hmark : mark ≠ [])
    (h : Text.cut? mark t = some (before, behind)) : ¬ mark <:+: before := by
  induction t generalizing before with
  | nil => simp [Text.cut?, hmark] at h
  | cons c rest ih =>
    obtain ⟨hsame, -⟩ := Cut.cut?_eq_some hmark h []
    rw [Text.cut?] at h
    split at h
    · cases h
      simpa using hmark
    · rename_i hnone
      obtain ⟨⟨front, rear⟩, hrest, hparts⟩ := Option.map_eq_some_iff.mp h
      cases hparts
      rw [List.infix_cons_iff]
      rintro (hstart | hlater)
      · obtain ⟨more, hmore⟩ := hstart.trans ⟨mark ++ behind, hsame.symm⟩
        rw [List.isPrefixOf?_eq_some_iff_append_eq.mpr hmore] at hnone
        cases hnone
      · exact ih hrest hlater

/-- A comment that starts a text is a complete one. -/
theorem Cut.exists_of_commentLength? {t : Text} {length : Nat}
    (h : commentLength? t = some length) :
    ∃ body behind : Text, ¬ Text.ofString "*/" <:+: body ∧
      t = "/*" ++ (body ++ ("*/" ++ behind)) ∧ length = body.length + 4 := by
  unfold commentLength? at h
  split at h
  · cases h
  · rename_i inside hinside
    obtain ⟨⟨body, behind⟩, hcut, rfl⟩ := Option.map_eq_some_iff.mp h
    obtain ⟨rfl, -⟩ := cut?_eq_some (by decide) hcut []
    have hopened := List.isPrefixOf?_eq_some_iff_append_eq.mp hinside
    exact ⟨body, behind, Text.not_infix_of_cut? (by decide) hcut, hopened.symm, rfl⟩

/-- A place of a text lies within a comment, behind its first code point and in front of its end,
where the comments and blanks before it are complete. -/
def WithinComment (t : Text) (place : Nat) : Prop :=
  ∃ lead body behind : Text, Separates lead ∧ ¬ Text.ofString "*/" <:+: body ∧
    t = lead ++ ("/*" ++ (body ++ ("*/" ++ behind))) ∧
    lead.length < place ∧ place < lead.length + body.length + 4

namespace Separates

theorem append {s t : Text} (hs : Separates s) (ht : Separates t) : Separates (s ++ t) := by
  induction hs with
  | nil => exact ht
  | blank hc _ ih => exact .blank hc ih
  | comment hbody _ ih =>
    simp only [List.append_assoc]
    exact .comment hbody ih

/-- One complete comment. -/
theorem closed {body : Text} (hbody : ¬ Text.ofString "*/" <:+: body) :
    Separates ("/*" ++ (body ++ "*/")) := by
  simpa using Separates.comment hbody .nil

theorem length_closed (body : Text) :
    (Text.ofString "/*" ++ (body ++ Text.ofString "*/")).length = body.length + 4 := by
  have hmarks : (Text.ofString "/*").length = 2 ∧ (Text.ofString "*/").length = 2 := ⟨rfl, rfl⟩
  simp only [List.length_append, hmarks]
  omega

/-- What is cut without a lexeme is a blank or a comment. -/
theorem of_takes {w behind : Text} (h : Cut.Takes none w behind) : Separates w := by
  obtain ⟨c, rest, rfl, hfirst⟩ := h
  obtain ⟨hc, hcut⟩ | ⟨length, hlength, hcut⟩ | ⟨l, hl, _⟩ := (Cut.rule_of_first hfirst).lexeme
  · obtain rfl : rest = [] := by simpa using hcut
    exact .blank hc .nil
  · obtain ⟨body, more, hbody, htext, rfl⟩ := Cut.exists_of_commentLength? hlength
    obtain ⟨hword, -⟩ : c :: rest = Text.ofString "/*" ++ (body ++ "*/") ∧ behind = more := by
      refine List.append_inj (by simpa using htext) ?_
      simp only [Cut.mk.injEq, true_and] at hcut
      rw [length_closed, hcut]
    rw [hword]
    exact closed hbody
  · cases hl

/-- Up to a place outside comments, blanks and comments are complete. -/
theorem take {gap : Text} (h : Separates gap) {n : Nat} (hn : ¬ WithinComment gap n) :
    Separates (gap.take n) := by
  induction h generalizing n with
  | nil => simpa using Separates.nil
  | @blank c t hc _ ih =>
    cases n with
    | zero => exact .nil
    | succ n =>
      refine .blank hc (ih fun hwithin => hn ?_)
      obtain ⟨lead, body, behind, hlead, hbody, rfl, hlow, hhigh⟩ := hwithin
      refine ⟨c :: lead, body, behind, .blank hc hlead, hbody, rfl, ?_, ?_⟩
      · simpa using hlow
      · simp only [List.length_cons]
        omega
  | @comment body t hbody _ ih =>
    have hsplit : Text.ofString "/*" ++ (body ++ (Text.ofString "*/" ++ t)) =
        (Text.ofString "/*" ++ (body ++ "*/")) ++ t := by simp
    by_cases hzero : n = 0
    · subst hzero
      exact .nil
    by_cases hinside : n < body.length + 4
    · refine absurd ?_ hn
      exact ⟨[], body, t, .nil, hbody, rfl, Nat.pos_of_ne_zero hzero, by simpa using hinside⟩
    · obtain ⟨m, rfl⟩ := Nat.exists_eq_add_of_le (Nat.le_of_not_lt hinside)
      rw [hsplit, ← length_closed body, List.take_length_add_append]
      refine (closed hbody).append (ih fun hwithin => hn ?_)
      obtain ⟨lead, other, behind, hlead, hother, rfl, hlow, hhigh⟩ := hwithin
      refine ⟨(Text.ofString "/*" ++ (body ++ "*/")) ++ lead, other, behind,
        (closed hbody).append hlead, hother, ?_, ?_, ?_⟩
      · simp
      · rw [List.length_append, length_closed]
        omega
      · rw [List.length_append, length_closed]
        omega

end Separates

/-! ## Slices -/

namespace Token

/-- How many code points of a text a token takes: as many as are cut where it stands. -/
def width (t : Text) (token : Token) : Nat :=
  match t.drop token.offset with
  | [] => 0
  | c :: rest =>
    match Cut.first c rest with
    | .error _ => 0
    | .ok cut => cut.length

/-- A token is cut from a text where it stands, and has the line of its offset. -/
structure CutFrom (t : Text) (token : Token) : Prop where
  slice : Cut.Takes (some token.lexeme) ((t.drop token.offset).take (token.width t))
    (t.drop (token.offset + token.width t))
  line : token.line = (t.lineAndColumn token.offset).1

/-- The place behind the slice of the last of some tokens, or where the cutting began. -/
def placeBehind (t : Text) (start : Nat) (before : List Token) : Nat :=
  match before.getLast? with
  | none => start
  | some token => token.offset + token.width t

/-- Where the first token of a run stands, or the fault that stops it; a run without both is over at
the end of the text. -/
def Continues (t : Text) (place : Nat) (run : TokenRun) : Prop :=
  match run.tokens, run.stop with
  | token :: _, _ => token.offset = place
  | [], some error => error.offset = place
  | [], none => t.length ≤ place

/-- From a place of a text on, a run of tokens is still to come.  Blanks and complete comments stand
in front of its first token.  From where this token stands, and from each place in front of it
outside comments, the text is cut into that run. -/
def Resumes (t : Text) (place : Nat) (run : TokenRun) : Prop :=
  ∃ gap : Text, Separates gap ∧ gap <+: t.drop place ∧ Continues t (place + gap.length) run ∧
    runFrom t (place + gap.length) = run ∧
    ∀ n ≤ gap.length, ¬ WithinComment gap n → runFrom t (place + n) = run

section Steps

variable {t w behind : Text} {place : Nat}

theorem drop_add_length (h : t.drop place = w ++ behind) : t.drop (place + w.length) = behind := by
  rw [← List.drop_drop, h, List.drop_left]

theorem lineAt_add_length (h : t.drop place = w ++ behind) :
    t.lineAt (place + w.length) = t.lineAt place + Text.lineFeeds w := by
  rw [Text.lineAt, Text.lineAt, List.take_add, h, List.take_left, Text.lineFeeds_append]
  omega

theorem runFrom_separates (hw : Separates w) (h : t.drop place = w ++ behind) :
    runFrom t (place + w.length) = runFrom t place := by
  rw [runFrom, runFrom, h, run_separates hw, lineAt_add_length h, drop_add_length h]

theorem runFrom_takes {l : Lexeme} (hw : Cut.Takes (some l) w behind)
    (h : t.drop place = w ++ behind) :
    runFrom t place = ⟨⟨l, place, t.lineAt place⟩ :: (runFrom t (place + w.length)).tokens,
      (runFrom t (place + w.length)).stop⟩ := by
  rw [runFrom, h, run_takes_some hw, runFrom, lineAt_add_length h, drop_add_length h]

theorem width_of_takes {l : Lexeme} {line : Nat} (hw : Cut.Takes (some l) w behind)
    (h : t.drop place = w ++ behind) : width t ⟨l, place, line⟩ = w.length := by
  obtain ⟨c, rest, rfl, hfirst⟩ := hw
  simp only [width, h, List.cons_append, hfirst]

theorem cutFrom_of_takes {l : Lexeme} (hw : Cut.Takes (some l) w behind)
    (h : t.drop place = w ++ behind) : CutFrom t ⟨l, place, t.lineAt place⟩ where
  slice := by
    simp only [width_of_takes hw h, h, List.take_left, drop_add_length h]
    exact hw
  line := by rw [Text.lineAndColumn_ofNat]

theorem placeBehind_cons (t : Text) (first : Token) (before : List Token) (start : Nat) :
    placeBehind t start (first :: before) =
      placeBehind t (first.offset + first.width t) before := by
  cases before using List.reverseRecOn with
  | nil => rfl
  | append_singleton front last => simp [placeBehind, List.getLast?_cons]

end Steps

theorem cutFrom_runFrom {t : Text} {start : Nat} {token : Token}
    (h : token ∈ (runFrom t start).tokens) : CutFrom t token := by
  generalize hs : t.drop start = s
  induction s using Cut.induction_on_cuts generalizing start with
  | nil =>
    rw [runFrom, hs, run_nil] at h
    cases h
  | skip htakes ih =>
    rw [← runFrom_separates (.of_takes htakes) hs] at h
    exact ih h (drop_add_length hs)
  | lexeme htakes ih =>
    rw [runFrom_takes htakes hs] at h
    rcases List.mem_cons.mp h with rfl | h
    · exact cutFrom_of_takes htakes hs
    · exact ih h (drop_add_length hs)
  | fault hfirst =>
    rw [runFrom, hs, run_fault hfirst] at h
    cases h

/-- Behind its first token a run goes on as if the cutting had begun there. -/
theorem runFrom_behind {t : Text} {start : Nat} {first : Token} {more : List Token}
    (h : (runFrom t start).tokens = first :: more) :
    runFrom t (first.offset + first.width t) = ⟨more, (runFrom t start).stop⟩ := by
  generalize hs : t.drop start = s
  induction s using Cut.induction_on_cuts generalizing start with
  | nil =>
    rw [runFrom, hs, run_nil] at h
    cases h
  | skip htakes ih =>
    have hrun := runFrom_separates (.of_takes htakes) hs
    rw [← hrun] at h ⊢
    exact ih h (drop_add_length hs)
  | lexeme htakes ih =>
    rw [runFrom_takes htakes hs] at h ⊢
    obtain ⟨rfl, rfl⟩ := List.cons.inj h
    rw [width_of_takes htakes hs]
  | fault hfirst =>
    rw [runFrom, hs, run_fault hfirst] at h
    cases h

/-- Blanks and complete comments stand in front of what comes first. -/
theorem exists_gap (t : Text) (place : Nat) :
    ∃ gap behind, Separates gap ∧ t.drop place = gap ++ behind ∧
      Continues t (place + gap.length) (runFrom t place) := by
  generalize hs : t.drop place = s
  induction s using Cut.induction_on_cuts generalizing place with
  | nil =>
    have hrun : runFrom t place = ⟨[], none⟩ := by rw [runFrom, hs, run_nil]
    rw [hrun]
    exact ⟨[], [], .nil, rfl, List.drop_eq_nil_iff.mp hs⟩
  | @skip w rest htakes ih =>
    have hw := Separates.of_takes htakes
    obtain ⟨gap, behind, hgap, rfl, hnext⟩ := ih (place + w.length) (drop_add_length hs)
    rw [runFrom_separates hw hs, Nat.add_assoc, ← List.length_append] at hnext
    exact ⟨w ++ gap, behind, hw.append hgap, (List.append_assoc w gap behind).symm, hnext⟩
  | lexeme htakes ih =>
    rw [runFrom_takes htakes hs]
    exact ⟨[], _, .nil, rfl, rfl⟩
  | @fault c rest f hfirst =>
    have hrun : runFrom t place = ⟨[], some ⟨f, place⟩⟩ := by rw [runFrom, hs, run_fault hfirst]
    rw [hrun]
    exact ⟨[], _, .nil, rfl, rfl⟩

/-- Where the cutting begins, the whole run is still to come. -/
theorem resumes_runFrom (t : Text) (place : Nat) : Resumes t place (runFrom t place) := by
  obtain ⟨gap, behind, hgap, hs, hnext⟩ := exists_gap t place
  refine ⟨gap, hgap, ⟨behind, hs.symm⟩, hnext, runFrom_separates hgap hs,
    fun n hn houtside => ?_⟩
  have hsplit : t.drop place = gap.take n ++ (gap.drop n ++ behind) := by
    rw [hs, ← List.append_assoc, List.take_append_drop]
  have hrun := runFrom_separates (hgap.take houtside) hsplit
  rwa [List.length_take_of_le hn] at hrun

/-- Behind any of its tokens a run is resumed. -/
theorem resumes_of_append {t : Text} {start : Nat} {before after : List Token}
    (h : (runFrom t start).tokens = before ++ after) :
    Resumes t (placeBehind t start before) ⟨after, (runFrom t start).stop⟩ := by
  induction before generalizing start with
  | nil =>
    rw [List.nil_append] at h
    subst h
    exact resumes_runFrom t start
  | cons first before ih =>
    have hbehind := runFrom_behind h
    have hrest := @ih (first.offset + first.width t) (by rw [hbehind]; rfl)
    rwa [hbehind, ← placeBehind_cons] at hrest

end Token

/-! ## Records -/

/-- The record has an offset in a text, and the line of this offset. -/
def Record.InLine (r : Record) (t : Text) : Prop :=
  ∃ offset : Nat, r.offset = some offset ∧ r.line = some (t.lineAndColumn offset).1

theorem Record.StandsAmong.inLine {t : Text} {r : Record}
    (h : r.StandsAmong (Token.ofText t).tokens) : r.InLine t := by
  obtain ⟨offset, -, hoffset, hline⟩ := h.standsIn.place
  exact ⟨offset, hoffset, by rw [hline, Text.lineAndColumn_ofNat]⟩

theorem Record.inLine_of_ofText {t : Text} {r : Record} (h : Record.ofText t = .ok r) :
    r.InLine t := by
  obtain ⟨hspelled, -⟩ := Record.ofRun_eq_ok.mp h
  exact Record.StandsAmong.inLine ⟨_, List.infix_refl _, hspelled⟩

open Reader

theorem DataSection.records_of_assembleAlone {records : List Record}
    {parameters : List Parameter} {data : DataSection}
    (h : assembleAlone records parameters = .ok data) : data.records = records := by
  unfold assembleAlone at h
  split at h <;> cases h
  rename_i hdata
  exact (assemble_eq_ok.mp hdata).1 ▸ rfl

/-- The records of a section that is read stand among the tokens. -/
theorem DataSection.standsAmong_of_ofRun {run : TokenRun} {data : DataSection}
    (h : (DataSection.ofRun run).2 = .ok data) {r : Record} (hr : r ∈ data.records) :
    r.StandsAmong run.tokens := by
  unfold DataSection.ofRun at h
  split at h
  · rename_i offset line inside htokens
    split at h
    · cases h
    · rename_i parameters records rest hread
      split at h
      · cases h
      · rename_i own hown
        split at h <;> cases h
        rw [records_of_assembleAlone hown] at hr
        obtain ⟨used, rfl, hspells⟩ := (exact_dataSection (by simp [behindInstance])
          (by simp [behindInstance]) _ _ _).mp hread
        rw [htokens]
        exact (hspells.standsAmong hr).mono (List.infix_append [_] used rest)
  · split at h
    · cases h
    · rename_i records rest hread
      split at h
      · cases h
      · split at h
        · cases h
        · rename_i own hown
          cases h
          rw [records_of_assembleAlone hown] at hr
          obtain ⟨used, more, htokens, hmore, hspells, -⟩ := spellsInstances_of_instances hread
          obtain rfl : records = more := hmore
          rw [htokens]
          exact (hspells.spelled.standsAmong hr).mono (List.prefix_append used rest).isInfix

theorem DataSection.inLine_of_ofText {t : Text} {data : DataSection}
    (h : (DataSection.ofText t).2 = .ok data) : ∀ r ∈ data.records, r.InLine t :=
  fun _ hr => (DataSection.standsAmong_of_ofRun h hr).inLine

theorem ExchangeFile.inLine_of_ofText {t : Text} {file : ExchangeFile}
    (h : (ExchangeFile.ofText t).2 = .ok file) :
    ∀ r ∈ file.header.records ++ file.records, r.InLine t := by
  obtain ⟨⟨start, inside, closing, semicolon, htokens, hstart, hinside, -⟩, -⟩ :=
    ExchangeFile.ofRun_eq_ok.mp h
  intro r hr
  refine Record.StandsAmong.inLine ?_
  rw [htokens]
  rcases List.mem_append.mp hr with hr | hr
  · obtain ⟨opening, first, header, rfl, -, -, hheader⟩ := hstart
    obtain ⟨word, second, records, ending, last, rfl, -, -, hrecords, -⟩ := hheader
    refine (hrecords.spelled.standsAmong hr).mono ?_
    exact ⟨[opening, first, word, second],
      [ending, last] ++ (inside ++ [closing, semicolon]), by simp⟩
  · exact (hinside.standsAmong hr).mono (List.infix_append' _ _ _)

/-- Every token of a text is cut where it stands and has the line of its offset.  Behind any tokens
of the text, blanks and complete comments stand in front of the next one, of the fault that stops
the tokens or of the end, and from each place among them outside comments the text is cut into the
tokens still to come.  So every record that is read from a text has the line of its offset. -/
theorem Token.runFrom_resumes (t : Text) (start : Nat) :
    (∀ token ∈ (runFrom t start).tokens, CutFrom t token) ∧
      (∀ before after, (runFrom t start).tokens = before ++ after →
        Resumes t (placeBehind t start before) ⟨after, (runFrom t start).stop⟩) ∧
      (∀ r, Record.ofText t = .ok r → r.InLine t) ∧
      (∀ data, (DataSection.ofText t).2 = .ok data → ∀ r ∈ data.records, r.InLine t) ∧
      ∀ file, (ExchangeFile.ofText t).2 = .ok file →
        ∀ r ∈ file.header.records ++ file.records, r.InLine t :=
  ⟨fun _ h => cutFrom_runFrom h, fun _ _ h => resumes_of_append h,
    fun _ h => Record.inLine_of_ofText h, fun _ h => DataSection.inLine_of_ofText h,
    fun _ h => ExchangeFile.inLine_of_ofText h⟩

end Part21
