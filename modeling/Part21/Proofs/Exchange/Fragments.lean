import Part21.Proofs.Exchange.Continuation

set_option autoImplicit false

/-!
# Records in every context

Texts that hold one record each can be joined.  The tokens of the joined text are those of the
texts, each moved by what stands in front, because a record ends with a semicolon.  The same holds
between the words of a section and of an exchange structure, whose own tokens are known.  What the
readers make of these tokens is told by what they invert, so all that is left is to compare
names, and moving a record does not change its name.  The main statement is
`Record.read_fragments`.
-/

namespace Part21

/-! ## Places behind a text -/

namespace Token

/-- A token where it stands if `before` comes in front of its text. -/
def behind (before : Text) (t : Token) : Token :=
  ⟨t.lexeme, t.offset + before.length, t.line + before.lineFeeds⟩

/-- The tokens of a text that stands behind another one. -/
def runBehind (before t : Text) : TokenRun := run t before.length (before.lineFeeds + 1)

theorem runBehind_nil (t : Text) : runBehind [] t = ofText t := rfl

/-- A text is cut into tokens, the same ones wherever it stands. -/
def Stands (t : Text) (ts : List Token) : Prop :=
  ∀ before more, runBehind before (t ++ more) =
    ⟨ts.map (Token.behind before) ++ (runBehind (before ++ t) more).tokens,
      (runBehind (before ++ t) more).stop⟩

theorem behind_append (before t : Text) (token : Token) :
    (token.behind t).behind before = token.behind (before ++ t) := by
  simp only [Token.behind, List.length_append, Text.lineFeeds_append]
  rw [Nat.add_assoc, Nat.add_assoc, Nat.add_comm t.length, Nat.add_comm t.lineFeeds]

theorem Stands.nil : Stands [] [] := by
  intro before more
  rw [List.append_nil]
  rfl

theorem Stands.append {s t : Text} {ts us : List Token} (hs : Stands s ts) (ht : Stands t us) :
    Stands (s ++ t) (ts ++ us.map (Token.behind s)) := by
  intro before more
  rw [List.append_assoc, hs, ht, List.map_append, List.map_map, List.append_assoc,
    List.append_assoc]
  have hplaces : Token.behind before ∘ Token.behind s = Token.behind (before ++ s) :=
    funext (behind_append before s)
  rw [hplaces]

/-- The tokens of a text all move when something comes in front of it. -/
theorem run_moved {t : Text} {offset line : Nat} {ts : List Token}
    (h : run t offset line = ⟨ts, none⟩) (before : Text) :
    run t (offset + before.length) (line + before.lineFeeds) =
      ⟨ts.map (Token.behind before), none⟩ := by
  induction t using Cut.induction_on_cuts generalizing offset line ts with
  | nil =>
    rw [run_nil] at h ⊢
    cases h
    rfl
  | skip htakes ih =>
    rw [run_takes_none htakes] at h ⊢
    rw [Nat.add_right_comm, Nat.add_right_comm line]
    exact ih h
  | @lexeme l w rest htakes ih =>
    rw [run_takes_some htakes] at h ⊢
    obtain ⟨htokens, hstop⟩ := TokenRun.mk.inj h
    have hrun : run rest (offset + w.length) (line + Text.lineFeeds w) =
        ⟨(run rest (offset + w.length) (line + Text.lineFeeds w)).tokens, none⟩ := by
      rw [← hstop]
    rw [Nat.add_right_comm, Nat.add_right_comm line, ih hrun, ← htokens]
    rfl
  | fault hfirst =>
    rw [run_fault hfirst] at h
    cases h

/-- A text without faults whose last lexeme is a semicolon. -/
theorem stands_of_ofText {t : Text} {ts : List Token} (h : ofText t = ⟨ts, none⟩)
    (hlast : ∀ last ∈ ts.getLast?, last.lexeme = .semicolon) : Stands t ts := by
  intro before more
  have hrun : runBehind before t = ⟨ts.map (Token.behind before), none⟩ := by
    have hmoved := run_moved h before
    rw [Nat.zero_add, Nat.add_comm] at hmoved
    exact hmoved
  have hlastMoved : ∀ last ∈ (runBehind before t).tokens.getLast?, last.lexeme = .semicolon := by
    intro last hmem
    rw [hrun, List.getLast?_map] at hmem
    obtain ⟨own, hown, rfl⟩ := Option.map_eq_some_iff.mp hmem
    exact hlast own hown
  have hplace : run more (before.length + t.length) (before.lineFeeds + 1 + t.lineFeeds) =
      runBehind (before ++ t) more := by
    rw [runBehind, List.length_append, Text.lineFeeds_append, Nat.add_right_comm]
  have happend := run_append (congrArg TokenRun.stop hrun) hlastMoved more
  rw [hplace] at happend
  have htokens : (run t before.length (before.lineFeeds + 1)).tokens =
      ts.map (Token.behind before) := congrArg TokenRun.tokens hrun
  rw [runBehind, happend, htokens]

theorem Stands.ofText {t : Text} {ts : List Token} (h : Stands t ts) :
    ofText t = ⟨ts.map (Token.behind []), none⟩ := by
  have hrun := h [] []
  rw [List.append_nil, runBehind_nil] at hrun
  rw [hrun, runBehind, run_nil, List.append_nil]

/-! ## The words around records -/

/-- A text is cut into given lexemes, wherever it stands. -/
def Holds (t : Text) (ls : List Lexeme) : Prop :=
  ∃ ts, Stands t ts ∧ ts.map Token.lexeme = ls

theorem Holds.append {s t : Text} {ls ms : List Lexeme} (hs : Holds s ls) (ht : Holds t ms) :
    Holds (s ++ t) (ls ++ ms) := by
  obtain ⟨ts, hts, rfl⟩ := hs
  obtain ⟨us, hus, rfl⟩ := ht
  refine ⟨_, hts.append hus, ?_⟩
  rw [List.map_append, List.map_map]
  rfl

/-- A word that a semicolon ends is cut wherever it stands. -/
theorem holds_word {l : Lexeme} {w : Text} (h : ∀ more, Cut.Takes (some l) w (";" ++ more)) :
    Holds (w ++ ";") [l, .semicolon] := by
  have hmark : ∀ more, Cut.Takes (some .semicolon) ";" more := fun more =>
    ⟨';', [], rfl, Cut.first_mark rfl more⟩
  refine ⟨[⟨l, 0, 1⟩, ⟨.semicolon, w.length, w.lineFeeds + 1⟩], fun before more => ?_, rfl⟩
  have hplace : run more (before.length + w.length + (Text.ofString ";").length)
      (before.lineFeeds + 1 + w.lineFeeds + Text.lineFeeds ";") =
        runBehind (before ++ (w ++ ";")) more := by
    simp only [runBehind, List.length_append, Text.lineFeeds_append]
    rw [Nat.add_assoc, Nat.add_right_comm _ 1, Nat.add_right_comm _ 1, Nat.add_assoc _ w.lineFeeds]
  rw [runBehind, List.append_assoc, run_takes_some (h more), run_takes_some (hmark more), hplace]
  simp [Token.behind, Nat.add_comm, Nat.add_left_comm, Nat.add_assoc]

theorem holds_data : Holds "DATA;" [.data, .semicolon] :=
  @holds_word .data "DATA" fun _ => ⟨'D', "ATA", rfl, rfl⟩

theorem holds_endSection : Holds "ENDSEC;" [.endSection, .semicolon] :=
  @holds_word .endSection "ENDSEC" fun _ => ⟨'E', "NDSEC", rfl, rfl⟩

theorem holds_front : Holds "ISO-10303-21;HEADER;ENDSEC;DATA;" [.opening, .semicolon, .header,
    .semicolon, .endSection, .semicolon, .data, .semicolon] := by
  have hopening : Holds "ISO-10303-21;" [.opening, .semicolon] :=
    @holds_word .opening "ISO-10303-21" fun _ => ⟨'I', "SO-10303-21", rfl, rfl⟩
  have hheader : Holds "HEADER;" [.header, .semicolon] :=
    @holds_word .header "HEADER" fun _ => ⟨'H', "EADER", rfl, rfl⟩
  exact hopening.append (hheader.append (holds_endSection.append holds_data))

theorem holds_back :
    Holds "ENDSEC;END-ISO-10303-21;" [.endSection, .semicolon, .closing, .semicolon] := by
  have hclosing : Holds "END-ISO-10303-21;" [.closing, .semicolon] :=
    @holds_word .closing "END-ISO-10303-21" fun _ => ⟨'E', "ND-ISO-10303-21", rfl, rfl⟩
  exact holds_endSection.append hclosing

/-- A text between others that hold given lexemes. -/
theorem ofText_between {front t back : Text} {ls ms : List Lexeme} {ts : List Token}
    (hfront : Holds front ls) (ht : Stands t ts) (hback : Holds back ms) :
    ∃ start rest, ofText (front ++ (t ++ back)) = ⟨start ++ (ts.map (Token.behind front) ++ rest),
      none⟩ ∧ start.map Token.lexeme = ls ∧ rest.map Token.lexeme = ms := by
  obtain ⟨start, hstart, rfl⟩ := hfront
  obtain ⟨rest, hrest, rfl⟩ := hback
  have hplaces : ∀ s : Text, Token.behind [] ∘ Token.behind s = Token.behind s := fun s =>
    funext (behind_append [] s)
  refine ⟨start.map (Token.behind []), (rest.map (Token.behind t)).map (Token.behind front), ?_, ?_,
    ?_⟩
  · rw [(hstart.append (ht.append hrest)).ofText, List.map_append, List.map_map, hplaces,
      List.map_append]
  · rw [List.map_map]
    rfl
  · rw [List.map_map, List.map_map]
    rfl

end Token

/-! ## Records behind a text -/

namespace Record

open Reader (SpellsInstances)

/-- A record where it stands if `before` comes in front of its text. -/
def behind (before : Text) (r : Record) : Record :=
  { r with offset := r.offset.map (· + before.length), line := r.line.map (· + before.lineFeeds) }

/-- The records of texts that stand one behind another, all of them behind `before`. -/
def inPlace (before : Text) : List Text → List Record → List Record
  | t :: texts, r :: records => r.behind before :: inPlace (before ++ t) texts records
  | _, _ => []

/-- Each text holds a record with a name. -/
abbrev Fragments (texts : List Text) (records : List Record) : Prop :=
  List.Forall₂ (fun t r => ofText t = .ok r ∧ r.id.isSome = true) texts records

theorem SpelledBy.behind {r : Record} {ts : List Token} (h : r.SpelledBy ts) (before : Text) :
    (r.behind before).SpelledBy (ts.map (Token.behind before)) where
  spellable := ⟨h.spellable.name, h.spellable.body, h.spellable.named⟩
  lexemes := by
    rw [List.map_map]
    exact h.lexemes
  placed := by
    intro first hmem
    rw [List.head?_map] at hmem
    obtain ⟨own, hown, rfl⟩ := Option.map_eq_some_iff.mp hmem
    obtain ⟨hoffset, hline⟩ := h.placed own hown
    rw [Record.behind, hoffset, hline]
    exact ⟨rfl, rfl⟩

/-- The tokens of a record end with a semicolon. -/
theorem SpelledBy.last {r : Record} {ts : List Token} (h : r.SpelledBy ts) :
    ∀ last ∈ ts.getLast?, last.lexeme = .semicolon := by
  intro last hmem
  have hlast := congrArg List.getLast? h.lexemes
  rw [List.getLast?_map, hmem, Record.lexemes, List.getLast?_concat] at hlast
  exact Option.some.inj hlast

theorem ids_inPlace {texts : List Text} {records : List Record} (h : Fragments texts records)
    (before : Text) :
    (inPlace before texts records).filterMap Record.id = records.filterMap Record.id := by
  induction h generalizing before with
  | nil => rfl
  | @cons t r texts records hr _ ih =>
    obtain ⟨id, hid⟩ := Option.isSome_iff_exists.mp hr.2
    have hmoved : (r.behind before).id = some id := hid
    rw [inPlace, List.filterMap_cons_some hid, List.filterMap_cons_some hmoved, ih]

/-- The tokens of texts that hold records, one behind another, spell the records in their
places. -/
theorem stands_fragments {texts : List Text} {records : List Record}
    (h : Fragments texts records) :
    ∃ ts, Token.Stands texts.flatten ts ∧
      ∀ before, SpellsInstances (inPlace before texts records) (ts.map (Token.behind before)) := by
  induction h with
  | nil => exact ⟨[], .nil, fun _ => .nil⟩
  | @cons t r texts records hr _ ih =>
    obtain ⟨hread, hname⟩ := hr
    obtain ⟨hspelled, hstop⟩ := ofRun_eq_ok.mp hread
    obtain ⟨ts, hts, hrest⟩ := ih
    have hrun : Token.ofText t = ⟨(Token.ofText t).tokens, none⟩ := by rw [← hstop]
    have hown := Token.stands_of_ofText hrun hspelled.last
    refine ⟨_, hown.append hts, fun before => ?_⟩
    have hplaces : Token.behind before ∘ Token.behind t = Token.behind (before ++ t) :=
      funext (Token.behind_append before t)
    rw [List.map_append, List.map_map, hplaces]
    exact .cons (hspelled.behind before) hname (hrest (before ++ t))

end Record

/-! ## Readers of records in their contexts -/

open Reader

theorem DataSection.assembleAlone_eq (records : List Record) :
    assembleAlone records [] =
      match Record.duplicate? [] records with
      | some name => .error (.duplicate name)
      | none => .ok ⟨records, [], ⟨[]⟩⟩ := by
  rw [assembleAlone, assemble]
  cases Record.duplicate? [] records <;> rfl

/-- Instances start with a name. -/
theorem Reader.SpellsInstances.first_ne_data {records : List Record} {ts : List Token}
    (h : SpellsInstances records ts) : ∀ t ∈ ts.head?, t.lexeme ≠ .data := by
  obtain ⟨hspelled, hnamed⟩ := h
  cases hspelled with
  | nil => simp
  | @cons r rest us more hr _ =>
    obtain ⟨id, hid⟩ := Option.isSome_iff_exists.mp (hnamed r List.mem_cons_self)
    obtain ⟨name, equals, inside, semicolon, rfl, hname, _⟩ := hr.of_named hid
    intro t hmem
    cases hmem
    rw [hname]
    simp

/-- A row of records without words around it. -/
theorem DataSection.ofRun_row {records : List Record} {ts : List Token}
    (h : SpellsInstances records ts) :
    (ofRun ⟨ts, none⟩).2 = assembleAlone records [] := by
  have hread : instances behindInstance inRow [] (ts ++ []) = .ok (records, []) := by
    have hmore : Terminal.lexeme .entityName ∈ behindInstance ∧
        Terminal.lexeme .entityName ∈ inRow := by decide
    have hend : next [] ∈ behindInstance ∧ next [] ∈ inRow := by decide
    exact instances_of_spellsInstances hmore h (by decide) fun _ => hend
  rw [List.append_nil] at hread
  unfold ofRun
  split
  · rename_i offset line inside hdata
    obtain rfl : ts = ⟨.data, offset, line⟩ :: inside := hdata
    exact absurd rfl (h.first_ne_data _ rfl)
  · dsimp only
    rw [hread]
    dsimp only
    rw [TokenRun.finish_eq_ok.mpr ⟨rfl, rfl⟩]
    dsimp only
    cases assembleAlone records [] <;> rfl

/-- The first two tokens of a row whose lexemes are known. -/
theorem Token.pair_of_lexemes {ts : List Token} {l m : Lexeme} {ls : List Lexeme}
    (h : ts.map Token.lexeme = [l, m] ++ ls) :
    ∃ t u rest, ts = t :: u :: rest ∧ t.lexeme = l ∧ u.lexeme = m ∧
      rest.map Token.lexeme = ls := by
  obtain ⟨front, rest, rfl, hfront, hrest⟩ := List.map_eq_append_iff.mp h
  obtain ⟨t, u, rfl, ht, hu⟩ := Token.two_of_lexemes hfront
  exact ⟨t, u, rest, rfl, ht, hu, hrest⟩

/-- A semicolon, records and the end of a section are what the word that opens a section wants. -/
theorem Reader.spellsSection_of_instances {records : List Record} {semicolon : Token}
    {inside rest : List Token} (hsemicolon : semicolon.lexeme = .semicolon)
    (hinside : SpellsInstances records inside)
    (hrest : rest.map Token.lexeme = [.endSection, .semicolon]) :
    SpellsSection ([], records) (semicolon :: (inside ++ rest)) := by
  obtain ⟨ending, last, rfl, hending, hlast⟩ := Token.two_of_lexemes hrest
  exact ⟨[semicolon], inside, ending, last, rfl, ⟨trivial, by simp [hsemicolon,
    DataSection.parameterLexemes]⟩, hinside, hending, hlast⟩

/-- A row of records between the words of a section. -/
theorem DataSection.ofRun_section {records : List Record} {start inside rest : List Token}
    (hstart : start.map Token.lexeme = [.data, .semicolon])
    (hinside : SpellsInstances records inside)
    (hrest : rest.map Token.lexeme = [.endSection, .semicolon]) :
    (ofRun ⟨start ++ (inside ++ rest), none⟩).2 = assembleAlone records [] := by
  obtain ⟨⟨_, offset, line⟩, semicolon, rfl, rfl, hsemicolon⟩ := Token.two_of_lexemes hstart
  have hspells := spellsSection_of_instances hsemicolon hinside hrest
  have hread : dataSection behindInstance (semicolon :: (inside ++ rest)) =
      .ok (([], records), []) :=
    (exact_dataSection (by decide) (by decide) _ _ _).mpr
      ⟨_, (List.append_nil _).symm, hspells⟩
  unfold ofRun
  dsimp only [List.cons_append, List.nil_append]
  rw [hread]
  dsimp only
  cases assembleAlone records [] with
  | error fault => rfl
  | ok data =>
    dsimp only
    rw [TokenRun.finish_eq_ok.mpr ⟨rfl, rfl⟩]

namespace ExchangeFile

/-- The words in front of the only section of an exchange structure, and those that open it. -/
theorem spellsPreamble_of_lexemes {start : List Token}
    (h : start.map Token.lexeme = [.opening, .semicolon, .header, .semicolon, .endSection,
      .semicolon, .data, .semicolon]) :
    ∃ front data semicolon, start = front ++ [data, semicolon] ∧ SpellsPreamble ⟨[]⟩ front ∧
      data.lexeme = .data ∧ semicolon.lexeme = .semicolon := by
  obtain ⟨opening, mark, behindOpening, rfl, hopening, hmark, hbehindOpening⟩ :=
    Token.pair_of_lexemes h
  obtain ⟨header, headerMark, behindHeader, rfl, hheader, hheaderMark, hbehindHeader⟩ :=
    Token.pair_of_lexemes hbehindOpening
  obtain ⟨headerEnd, endMark, behindEnd, rfl, hheaderEnd, hendMark, hbehindEnd⟩ :=
    Token.pair_of_lexemes hbehindHeader
  obtain ⟨data, dataMark, rfl, hdata, hdataMark⟩ := Token.two_of_lexemes hbehindEnd
  have hspellsHeader : SpellsHeader ⟨[]⟩ [header, headerMark, headerEnd, endMark] :=
    ⟨header, headerMark, [], headerEnd, endMark, rfl, hheader, hheaderMark, ⟨.nil, by simp⟩,
      hheaderEnd, hendMark⟩
  exact ⟨[opening, mark, header, headerMark, headerEnd, endMark], data, dataMark, rfl,
    ⟨opening, mark, _, rfl, hopening, hmark, hspellsHeader⟩, hdata, hdataMark⟩

/-- A fault in the sections is what is answered. -/
theorem ofRun_of_readSections {run : TokenRun} {header : Header} {front inside : List Token}
    {fault : ReadFault} (hrun : run.tokens = front ++ inside) (hfront : SpellsPreamble header front)
    (h : (readSections run header [] inside).2 = .error fault) :
    (ofRun run).2 = .error fault := by
  unfold ofRun
  rw [hrun, (exact_preamble _ _ _).mpr ⟨front, rfl, hfront⟩]
  dsimp only
  generalize readSections run header [] inside = answer at h ⊢
  obtain ⟨events, answer⟩ := answer
  cases h
  rfl

/-- A row of records in the only section of an exchange structure. -/
theorem ofRun_section {records : List Record} {start inside rest : List Token}
    (hstart : start.map Token.lexeme = [.opening, .semicolon, .header, .semicolon, .endSection,
      .semicolon, .data, .semicolon])
    (hinside : SpellsInstances records inside)
    (hrest : rest.map Token.lexeme = [.endSection, .semicolon, .closing, .semicolon]) :
    (ofRun ⟨start ++ (inside ++ rest), none⟩).2 =
      match DataSection.assembleAlone records [] with
      | .error fault => .error fault
      | .ok data => .ok ⟨⟨[]⟩, [data]⟩ := by
  obtain ⟨front, data, mark, rfl, hfront, hdata, hmark⟩ := spellsPreamble_of_lexemes hstart
  have hends : rest.map Token.lexeme = [.endSection, .semicolon] ++ [.closing, .semicolon] := hrest
  obtain ⟨sectionEnd, last, rfl, hsectionEnd, hlast⟩ := List.map_eq_append_iff.mp hends
  obtain ⟨closing, closingMark, rfl, hclosing, hclosingMark⟩ := Token.two_of_lexemes hlast
  have hspells := spellsSection_of_instances hmark hinside hsectionEnd
  have htokens : front ++ [data, mark] ++ (inside ++ (sectionEnd ++ [closing, closingMark])) =
      front ++ (data :: (mark :: (inside ++ sectionEnd)) ++ [closing, closingMark]) := by simp
  rw [DataSection.assembleAlone_eq, htokens]
  cases hduplicate : Record.duplicate? [] records with
  | none =>
    have hsections : SpellsSections [⟨records, [], ⟨[]⟩⟩]
        (data :: (mark :: (inside ++ sectionEnd)) ++ []) := .cons hdata hspells .nil
    rw [List.append_nil] at hsections
    have hids : ExchangeFile.ids ⟨⟨[]⟩, [⟨records, [], ⟨[]⟩⟩]⟩ = records.filterMap Record.id := by
      simp [ids, ExchangeFile.records]
    exact ofRun_eq_ok.mpr ⟨⟨front, _, closing, closingMark, rfl, hfront, hsections, hclosing,
      hclosingMark⟩, rfl, hids ▸ Record.duplicate?_nil_eq_none.mp hduplicate, by simp⟩
  | some name =>
    have hread : dataSection inSection
        (mark :: (inside ++ sectionEnd) ++ [closing, closingMark]) =
          .ok (([], records), [closing, closingMark]) :=
      (exact_section _ _ _).mpr ⟨_, rfl, hspells⟩
    have hfollow : follow behindSection behindSection [closing, closingMark] = .ok () :=
      follow_spellsSections .nil hclosing [closingMark]
    refine ofRun_of_readSections rfl hfront ?_
    rw [List.cons_append, readSections_cons hdata hread hfollow, DataSection.assemble, hduplicate]

end ExchangeFile

/-! ## Contexts -/

namespace Record

/-- What a reader answers if a name occurs twice. -/
def RepeatedIn {α : Type} (records : List Record) (answer : Except ReadFault α) : Prop :=
  ∃ id first second, Repeats records id first second ∧
    answer = .error (.duplicate ⟨id, first.offset, second.offset, second.line⟩)

/-- What is answered for records depends on whether a name occurs twice. -/
theorem assembleAlone_of_ids {records : List Record} :
    ((records.filterMap Record.id).Nodup →
      DataSection.assembleAlone records [] = .ok ⟨records, [], ⟨[]⟩⟩) ∧
    (¬ (records.filterMap Record.id).Nodup →
      RepeatedIn records (DataSection.assembleAlone records [])) := by
  rw [← duplicate?_nil_eq_none, DataSection.assembleAlone_eq]
  cases hduplicate : duplicate? [] records with
  | none => exact ⟨fun _ => rfl, fun h => absurd rfl h⟩
  | some name =>
    refine ⟨by simp, fun _ => ?_⟩
    obtain ⟨first, second, hrepeats, hname⟩ :=
      @repeats_of_duplicate? [] records name List.nodup_nil hduplicate
    exact ⟨name.id, first, second, hrepeats, by rw [← hname]⟩

/-- Texts that hold records are read in the same way in every context.  Joined they are read as a
row of records, between the words of a section as a section, and between the words of an exchange
structure as its only section, and the records are those of the texts, each in its place.  If names
repeat, the fault is the same in all three: the first name that occurred before. -/
theorem read_fragments {texts : List Text} {records : List Record}
    (h : Fragments texts records) :
    ((records.filterMap Record.id).Nodup →
      (DataSection.ofText texts.flatten).2 = .ok ⟨inPlace [] texts records, [], ⟨[]⟩⟩ ∧
      (DataSection.ofText ("DATA;" ++ (texts.flatten ++ "ENDSEC;"))).2 =
        .ok ⟨inPlace "DATA;" texts records, [], ⟨[]⟩⟩ ∧
      (ExchangeFile.ofText ("ISO-10303-21;HEADER;ENDSEC;DATA;" ++
          (texts.flatten ++ "ENDSEC;END-ISO-10303-21;"))).2 =
        .ok ⟨⟨[]⟩, [⟨inPlace "ISO-10303-21;HEADER;ENDSEC;DATA;" texts records, [], ⟨[]⟩⟩]⟩) ∧
    (¬ (records.filterMap Record.id).Nodup →
      RepeatedIn (inPlace [] texts records) (DataSection.ofText texts.flatten).2 ∧
      RepeatedIn (inPlace "DATA;" texts records)
        (DataSection.ofText ("DATA;" ++ (texts.flatten ++ "ENDSEC;"))).2 ∧
      RepeatedIn (inPlace "ISO-10303-21;HEADER;ENDSEC;DATA;" texts records)
        (ExchangeFile.ofText ("ISO-10303-21;HEADER;ENDSEC;DATA;" ++
          (texts.flatten ++ "ENDSEC;END-ISO-10303-21;"))).2) := by
  obtain ⟨ts, hts, hspells⟩ := stands_fragments h
  have hbare : (DataSection.ofText texts.flatten).2 =
      DataSection.assembleAlone (inPlace [] texts records) [] := by
    rw [DataSection.ofText, hts.ofText]
    exact DataSection.ofRun_row (hspells [])
  have hsection : (DataSection.ofText ("DATA;" ++ (texts.flatten ++ "ENDSEC;"))).2 =
      DataSection.assembleAlone (inPlace "DATA;" texts records) [] := by
    obtain ⟨start, rest, hrun, hstart, hrest⟩ :=
      Token.ofText_between Token.holds_data hts Token.holds_endSection
    rw [DataSection.ofText, hrun]
    exact DataSection.ofRun_section hstart (hspells "DATA;") hrest
  have hfile : (ExchangeFile.ofText ("ISO-10303-21;HEADER;ENDSEC;DATA;" ++
      (texts.flatten ++ "ENDSEC;END-ISO-10303-21;"))).2 =
      match DataSection.assembleAlone
        (inPlace "ISO-10303-21;HEADER;ENDSEC;DATA;" texts records) [] with
      | .error fault => .error fault
      | .ok data => .ok ⟨⟨[]⟩, [data]⟩ := by
    obtain ⟨start, rest, hrun, hstart, hrest⟩ :=
      Token.ofText_between Token.holds_front hts Token.holds_back
    rw [ExchangeFile.ofText, hrun]
    exact ExchangeFile.ofRun_section hstart (hspells _) hrest
  rw [hbare, hsection, hfile]
  constructor
  · intro hids
    have hok : ∀ before, DataSection.assembleAlone (inPlace before texts records) [] =
        .ok ⟨inPlace before texts records, [], ⟨[]⟩⟩ := fun before =>
      assembleAlone_of_ids.1 ((ids_inPlace h before).symm ▸ hids)
    rw [hok, hok, hok]
    exact ⟨rfl, rfl, rfl⟩
  · intro hids
    have hrepeated : ∀ before, RepeatedIn (inPlace before texts records)
        (DataSection.assembleAlone (inPlace before texts records) []) := fun before =>
      assembleAlone_of_ids.2 ((ids_inPlace h before).symm ▸ hids)
    obtain ⟨id, first, second, hrepeats, hfault⟩ :=
      hrepeated "ISO-10303-21;HEADER;ENDSEC;DATA;"
    exact ⟨hrepeated _, hrepeated _, id, first, second, hrepeats, by rw [hfault]⟩

/-- Two lines with one record each, under different names and under the same one. -/
theorem read_fragments_pair :
    ((DataSection.ofText "#1=A();\n#2=A();").2 =
        .ok ⟨[⟨some 1, .simple ⟨"A", []⟩, some 0, some 1⟩,
          ⟨some 2, .simple ⟨"A", []⟩, some 8, some 2⟩], [], ⟨[]⟩⟩ ∧
      (DataSection.ofText "DATA;#1=A();\n#2=A();ENDSEC;").2 =
        .ok ⟨[⟨some 1, .simple ⟨"A", []⟩, some 5, some 1⟩,
          ⟨some 2, .simple ⟨"A", []⟩, some 13, some 2⟩], [], ⟨[]⟩⟩ ∧
      (ExchangeFile.ofText
          "ISO-10303-21;HEADER;ENDSEC;DATA;#1=A();\n#2=A();ENDSEC;END-ISO-10303-21;").2 =
        .ok ⟨⟨[]⟩, [⟨[⟨some 1, .simple ⟨"A", []⟩, some 32, some 1⟩,
          ⟨some 2, .simple ⟨"A", []⟩, some 40, some 2⟩], [], ⟨[]⟩⟩]⟩) ∧
    RepeatedIn [⟨some 1, .simple ⟨"A", []⟩, some 0, some 1⟩,
      ⟨some 1, .simple ⟨"A", []⟩, some 8, some 2⟩] (DataSection.ofText "#1=A();\n#1=A();\n").2 := by
  have hkeyword : Lexeme.Written (.keyword "A") "A" :=
    .keyword ⟨.inl (.mk (by decide) (by decide)), by decide⟩
  have hspellable : ∀ id : Nat,
      IsSpellable ⟨some id, .simple ⟨"A", []⟩, none, none⟩ := fun id =>
    ⟨by simp, trivial, by simp⟩
  have hone : Lexeme.Written (.entityName 1) "#1" := Lexeme.written_entityName (by decide)
  have htwo : Lexeme.Written (.entityName 2) "#2" := Lexeme.written_entityName (by decide)
  have hfirst : ofText "#1=A();\n" = .ok ⟨some 1, .simple ⟨"A", []⟩, some 0, some 1⟩ :=
    ofText_append (hspellable 1) .nil <|
      .cons hone .nil <| .cons (.mark (c := '=') rfl) .nil <| .cons hkeyword .nil <|
      .cons (.mark (c := '(') rfl) .nil <| .cons (.mark (c := ')') rfl) .nil <|
      .cons (.mark (c := ';') rfl) (.blank (by decide) .nil) .nil
  have hsecond : ofText "#2=A();" = .ok ⟨some 2, .simple ⟨"A", []⟩, some 0, some 1⟩ :=
    ofText_append (hspellable 2) .nil <|
      .cons htwo .nil <| .cons (.mark (c := '=') rfl) .nil <| .cons hkeyword .nil <|
      .cons (.mark (c := '(') rfl) .nil <| .cons (.mark (c := ')') rfl) .nil <|
      .cons (.mark (c := ';') rfl) .nil .nil
  have hdistinct := (read_fragments (.cons ⟨hfirst, rfl⟩ (.cons ⟨hsecond, rfl⟩ .nil))).1 (by decide)
  have hrepeated := (read_fragments (.cons ⟨hfirst, rfl⟩ (.cons ⟨hfirst, rfl⟩ .nil))).2 (by decide)
  exact ⟨hdistinct, hrepeated.1⟩

end Record

end Part21
