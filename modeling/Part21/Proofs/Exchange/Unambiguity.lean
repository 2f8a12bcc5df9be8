import Part21.Proofs.Exchange.Sections

set_option autoImplicit false

/-!
# No row of lexemes has two readings

What tokens spell is decided by their lexemes, but for the places of records.  So the lexemes of a
text decide what is read from it: a record or an exchange structure is read if the lexemes are
those of its spelling, and there is no other one with the same spelling.  The main statement is
`Reader.readings_exact`.
-/

namespace Part21

namespace Reader

/-- Where a reader is exact, tokens spell one value only, whatever stands behind them. -/
theorem Exact.unique {α : Type} {read : List Token → Answer α} {spells : α → List Token → Prop}
    (h : Exact read spells) {first second : α} {ts us rest behind : List Token}
    (hfirst : spells first ts) (hsecond : spells second us) (hsame : ts ++ rest = us ++ behind) :
    first = second ∧ rest = behind := by
  have hread := (h _ first rest).mpr ⟨ts, rfl, hfirst⟩
  rw [hsame, (h _ second behind).mpr ⟨us, rfl, hsecond⟩] at hread
  obtain ⟨rfl, rfl⟩ := Prod.mk.inj (Except.ok.inj hread)
  exact ⟨rfl, rfl⟩

end Reader

/-- A row of two tokens whose lexemes are known. -/
theorem Token.two_of_lexemes {ts : List Token} {l m : Lexeme} (h : ts.map Token.lexeme = [l, m]) :
    ∃ t u, ts = [t, u] ∧ t.lexeme = l ∧ u.lexeme = m := by
  obtain ⟨t, rest, rfl, ht, hrest⟩ := List.map_eq_cons_iff.mp h
  obtain ⟨u, rfl, hu⟩ := List.map_eq_singleton_iff.mp hrest
  exact ⟨t, u, rfl, ht, hu⟩

/-- A property that depends only on what a function keeps holds of all members of a row, if it does
of all members of a row from which the same is kept. -/
theorem forall_of_map_eq {α β : Type} {keep : α → β} {P : α → Prop}
    (hP : ∀ {a b : α}, keep a = keep b → P a → P b) {as bs : List α}
    (h : as.map keep = bs.map keep) (has : ∀ a ∈ as, P a) : ∀ b ∈ bs, P b := by
  intro b hmem
  have hkept : keep b ∈ as.map keep := h ▸ List.mem_map_of_mem hmem
  obtain ⟨a, ha, hsame⟩ := List.mem_map.mp hkept
  exact hP hsame (has a ha)

/-- So do all rows that are joined. -/
theorem flatMap_of_map_eq {α β γ : Type} {keep : α → β} {f : α → List γ} {g : β → List γ}
    (hf : ∀ a, f a = g (keep a)) {as bs : List α} (h : as.map keep = bs.map keep) :
    as.flatMap f = bs.flatMap f := by
  have hkept : ∀ cs : List α, cs.flatMap f = (cs.map keep).flatMap g := by
    intro cs
    rw [List.flatMap_map]
    exact List.flatMap_congr fun a _ => hf a
  rw [hkept, h, ← hkept]

/-! ## Records -/

namespace Record

theorem unplaced_eq {r s : Record} :
    r.unplaced = s.unplaced ↔ r.id = s.id ∧ r.body = s.body := by
  simp [unplaced]

theorem id_of_unplaced {r s : Record} (h : r.unplaced = s.unplaced) : r.id = s.id :=
  (unplaced_eq.mp h).1

theorem isSpellable_of_unplaced {r s : Record} (h : r.unplaced = s.unplaced)
    (hr : r.IsSpellable) : s.IsSpellable := by
  obtain ⟨hid, hbody⟩ := unplaced_eq.mp h
  exact ⟨hid ▸ hr.name, hbody ▸ hr.body, hid ▸ hbody ▸ hr.named⟩

theorem lexemes_of_unplaced {r s : Record} (h : r.unplaced = s.unplaced) :
    r.lexemes = s.lexemes := by
  obtain ⟨hid, hbody⟩ := unplaced_eq.mp h
  rw [lexemes, lexemes, hid, hbody]

/-- Tokens with the lexemes of a record spell it, at a place. -/
theorem exists_spelledBy {r : Record} {ts : List Token} (hr : r.IsSpellable)
    (hts : ts.map Token.lexeme = r.lexemes) :
    ∃ own : Record, own.unplaced = r.unplaced ∧ own.SpelledBy ts := by
  cases ts with
  | nil => simp [lexemes] at hts
  | cons t rest =>
    refine ⟨⟨r.id, r.body, some t.offset, some t.line⟩, rfl, ⟨hr.name, hr.body, hr.named⟩, hts, ?_⟩
    rintro first hfirst
    cases hfirst
    exact ⟨rfl, rfl⟩

theorem SpelledInTurn.lexemes {records : List Record} {ts : List Token}
    (h : SpelledInTurn records ts) :
    (∀ r ∈ records, r.IsSpellable) ∧
      ts.map Token.lexeme = records.flatMap Record.lexemes := by
  induction h with
  | nil => exact ⟨by simp, rfl⟩
  | cons hr _ ih =>
    refine ⟨List.forall_mem_cons.mpr ⟨hr.spellable, ih.1⟩, ?_⟩
    rw [List.map_append, hr.lexemes, ih.2, List.flatMap_cons]

theorem exists_spelledInTurn {records : List Record} {ts : List Token}
    (hrecords : ∀ r ∈ records, r.IsSpellable)
    (hts : ts.map Token.lexeme = records.flatMap Record.lexemes) :
    ∃ own : List Record, own.map unplaced = records.map unplaced ∧ SpelledInTurn own ts := by
  induction records generalizing ts with
  | nil =>
    obtain rfl := List.map_eq_nil_iff.mp hts
    exact ⟨[], rfl, .nil⟩
  | cons r rest ih =>
    obtain ⟨hr, hrest⟩ := List.forall_mem_cons.mp hrecords
    rw [List.flatMap_cons] at hts
    obtain ⟨first, more, rfl, hfirst, hmore⟩ := List.map_eq_append_iff.mp hts
    obtain ⟨own, hown, hspelled⟩ := exists_spelledBy hr hfirst
    obtain ⟨others, hothers, hinTurn⟩ := ih hrest hmore
    exact ⟨own :: others, by rw [List.map_cons, List.map_cons, hown, hothers],
      .cons hspelled hinTurn⟩

end Record

/-! ## Sections and headers -/

namespace Header

theorem unplaced_eq {g h : Header} :
    g.unplaced = h.unplaced ↔ g.records.map Record.unplaced = h.records.map Record.unplaced := by
  simp [unplaced]

theorem isSpellable_of_unplaced {g h : Header} (heq : g.unplaced = h.unplaced)
    (hg : g.IsSpellable) : h.IsSpellable where
  records := forall_of_map_eq Record.isSpellable_of_unplaced (unplaced_eq.mp heq) hg.records
  unnamed := forall_of_map_eq (fun hsame hr => Record.id_of_unplaced hsame ▸ hr)
    (unplaced_eq.mp heq) hg.unnamed

theorem lexemes_of_unplaced {g h : Header} (heq : g.unplaced = h.unplaced) :
    g.lexemes = h.lexemes := by
  have hforms : ∀ r : Record, r.lexemes = r.unplaced.lexemes := fun _ => rfl
  rw [lexemes, lexemes, flatMap_of_map_eq hforms (unplaced_eq.mp heq)]

end Header

namespace Reader

theorem SpellsHeader.lexemes {h : Header} {ts : List Token} (hspells : SpellsHeader h ts) :
    h.IsSpellable ∧ ts.map Token.lexeme = h.lexemes := by
  obtain ⟨word, semicolon, inside, ending, last, rfl, hword, hsemicolon, hinside, hending, hlast⟩ :=
    hspells
  obtain ⟨hspellable, hlexemes⟩ := hinside.spelled.lexemes
  refine ⟨⟨hspellable, hinside.unnamed⟩, ?_⟩
  simp [Header.lexemes, hword, hsemicolon, hlexemes, hending, hlast]

theorem exists_spellsHeader {h : Header} {ts : List Token} (hspellable : h.IsSpellable)
    (hts : ts.map Token.lexeme = h.lexemes) :
    ∃ own : Header, own.unplaced = h.unplaced ∧ SpellsHeader own ts := by
  obtain ⟨start, rest, rfl, hstart, hrest⟩ := List.map_eq_append_iff.mp hts
  obtain ⟨word, behind, rfl, hword, hbehind⟩ := List.map_eq_cons_iff.mp hstart
  obtain ⟨semicolon, inside, rfl, hsemicolon, hinside⟩ := List.map_eq_cons_iff.mp hbehind
  obtain ⟨ending, last, rfl, hending, hlast⟩ := Token.two_of_lexemes hrest
  obtain ⟨own, hown, hspelled⟩ := Record.exists_spelledInTurn hspellable.records hinside
  have hunnamed : ∀ r ∈ own, r.id = none :=
    forall_of_map_eq (fun hsame hr => Record.id_of_unplaced hsame ▸ hr) hown.symm
      hspellable.unnamed
  exact ⟨⟨own⟩, Header.unplaced_eq.mpr hown, word, semicolon, inside, ending, last, by simp, hword,
    hsemicolon, ⟨hspelled, hunnamed⟩, hending, hlast⟩

theorem SpellsSection.lexemes {s : DataSection} {ts : List Token}
    (h : SpellsSection (s.parameters, s.records) ts) :
    s.IsSpellable ∧ .data :: ts.map Token.lexeme = s.lexemes := by
  obtain ⟨opening, inside, ending, semicolon, rfl, hopening, hinside, hending, hsemicolon⟩ := h
  obtain ⟨hspellable, hlexemes⟩ := hinside.spelled.lexemes
  refine ⟨⟨hopening.spellable, hspellable, hinside.named⟩, ?_⟩
  simp [DataSection.lexemes, hopening.lexemes, hlexemes, hending, hsemicolon]

theorem exists_spellsSection {s : DataSection} {ts : List Token} (hs : s.IsSpellable)
    (hts : .data :: ts.map Token.lexeme = s.lexemes) :
    ∃ records, records.map Record.unplaced = s.records.map Record.unplaced ∧
      SpellsSection (s.parameters, records) ts := by
  have hlexemes : ts.map Token.lexeme = DataSection.parameterLexemes s.parameters ++ [.semicolon] ++
      (s.records.flatMap Record.lexemes ++ [.endSection, .semicolon]) := by
    simpa [DataSection.lexemes] using hts
  obtain ⟨opening, rest, rfl, hopening, hrest⟩ := List.map_eq_append_iff.mp hlexemes
  obtain ⟨inside, last, rfl, hinside, hlast⟩ := List.map_eq_append_iff.mp hrest
  obtain ⟨ending, semicolon, rfl, hending, hsemicolon⟩ := Token.two_of_lexemes hlast
  obtain ⟨own, hown, hspelled⟩ := Record.exists_spelledInTurn hs.records hinside
  have hnamed : ∀ r ∈ own, r.id.isSome = true :=
    forall_of_map_eq (fun hsame hr => Record.id_of_unplaced hsame ▸ hr) hown.symm hs.named
  exact ⟨own, hown, opening, inside, ending, semicolon, rfl, ⟨hs.parameters, hopening⟩,
    ⟨hspelled, hnamed⟩, hending, hsemicolon⟩

end Reader

namespace DataSection

theorem unplaced_eq {s u : DataSection} :
    s.unplaced = u.unplaced ↔
      s.records.map Record.unplaced = u.records.map Record.unplaced ∧
        s.parameters = u.parameters ∧ s.header.unplaced = u.header.unplaced := by
  simp [unplaced]

theorem isSpellable_of_unplaced {s u : DataSection} (h : s.unplaced = u.unplaced)
    (hs : s.IsSpellable) : u.IsSpellable := by
  obtain ⟨hrecords, hparameters, _⟩ := unplaced_eq.mp h
  refine ⟨hparameters ▸ hs.parameters, ?_, ?_⟩
  · exact forall_of_map_eq Record.isSpellable_of_unplaced hrecords hs.records
  · exact forall_of_map_eq (fun hsame hr => Record.id_of_unplaced hsame ▸ hr) hrecords hs.named

theorem lexemes_unplaced (s : DataSection) : s.lexemes = s.unplaced.lexemes := by
  rw [lexemes, lexemes, unplaced]
  dsimp only
  rw [List.flatMap_map]
  rfl

end DataSection

/-! ## Exchange structures -/

namespace ExchangeFile

open Reader

theorem unplaced_eq {f g : ExchangeFile} :
    f.unplaced = g.unplaced ↔ f.header.unplaced = g.header.unplaced ∧
      f.sections.map DataSection.unplaced = g.sections.map DataSection.unplaced := by
  simp [unplaced]

theorem isSpellable_of_unplaced {f g : ExchangeFile} (h : f.unplaced = g.unplaced)
    (hf : f.IsSpellable) : g.IsSpellable := by
  obtain ⟨hheader, hsections⟩ := unplaced_eq.mp h
  refine ⟨Header.isSpellable_of_unplaced hheader hf.header, ?_, ?_⟩
  · exact forall_of_map_eq DataSection.isSpellable_of_unplaced hsections hf.sections
  · have hshared : ∀ s ∈ f.sections, s.header.unplaced = g.header.unplaced :=
      fun s hmem => (hf.shared s hmem).trans hheader
    exact forall_of_map_eq (fun hsame hs => (DataSection.unplaced_eq.mp hsame).2.2.symm.trans hs)
      hsections hshared

theorem lexemes_of_unplaced {f g : ExchangeFile} (h : f.unplaced = g.unplaced) :
    f.lexemes = g.lexemes := by
  obtain ⟨hheader, hsections⟩ := unplaced_eq.mp h
  rw [lexemes, lexemes, Header.lexemes_of_unplaced hheader,
    flatMap_of_map_eq DataSection.lexemes_unplaced hsections]

theorem ids_of_unplaced {f g : ExchangeFile} (h : f.unplaced = g.unplaced) : f.ids = g.ids := by
  have hids : ∀ s : DataSection, s.records.filterMap Record.id = s.unplaced.ids := by
    intro s
    rw [DataSection.ids, DataSection.unplaced, List.filterMap_map]
    rfl
  rw [ids, ids, records, records, List.filterMap_flatMap, List.filterMap_flatMap,
    flatMap_of_map_eq hids (unplaced_eq.mp h).2]

theorem SpellsSections.lexemes {sections : List DataSection} {ts : List Token}
    (h : SpellsSections sections ts) :
    (∀ s ∈ sections, s.IsSpellable) ∧
      ts.map Token.lexeme = sections.flatMap DataSection.lexemes := by
  induction h with
  | nil => exact ⟨by simp, rfl⟩
  | cons hword hs _ ih =>
    obtain ⟨hspellable, hlexemes⟩ := hs.lexemes
    refine ⟨List.forall_mem_cons.mpr ⟨hspellable, ih.1⟩, ?_⟩
    rw [List.map_append, List.map_cons, hword, hlexemes, ih.2, List.flatMap_cons]

theorem exists_spellsSections {sections : List DataSection} {ts : List Token}
    (hsections : ∀ s ∈ sections, s.IsSpellable)
    (hts : ts.map Token.lexeme = sections.flatMap DataSection.lexemes) {header : Header}
    (hheader : ∀ s ∈ sections, s.header.unplaced = header.unplaced) :
    ∃ own : List DataSection, own.map DataSection.unplaced = sections.map DataSection.unplaced ∧
      SpellsSections own ts ∧ ∀ s ∈ own, s.header = header := by
  induction sections generalizing ts with
  | nil =>
    obtain rfl := List.map_eq_nil_iff.mp hts
    exact ⟨[], rfl, .nil, by simp⟩
  | cons s rest ih =>
    obtain ⟨hs, hrest⟩ := List.forall_mem_cons.mp hsections
    obtain ⟨hown, hothers⟩ := List.forall_mem_cons.mp hheader
    rw [List.flatMap_cons] at hts
    obtain ⟨first, more, rfl, hfirst, hmore⟩ := List.map_eq_append_iff.mp hts
    obtain ⟨word, inside, rfl, hword, hinside⟩ := List.map_eq_cons_iff.mp hfirst
    have hlexemes : .data :: inside.map Token.lexeme = s.lexemes := by
      rw [hinside]
      rfl
    obtain ⟨records, hrecords, hspells⟩ := exists_spellsSection hs hlexemes
    obtain ⟨others, hsame, hspelled, hshared⟩ := ih hrest hmore hothers
    have hsection : DataSection.unplaced ⟨records, s.parameters, header⟩ = s.unplaced :=
      DataSection.unplaced_eq.mpr ⟨hrecords, rfl, hown.symm⟩
    exact ⟨⟨records, s.parameters, header⟩ :: others,
      by rw [List.map_cons, List.map_cons, hsame, hsection], .cons hword hspells hspelled,
      List.forall_mem_cons.mpr ⟨rfl, hshared⟩⟩

theorem SpelledBy.lexemes {f : ExchangeFile} {ts : List Token} (h : f.SpelledBy ts)
    (hshared : ∀ s ∈ f.sections, s.header = f.header) :
    f.IsSpellable ∧ ts.map Token.lexeme = f.lexemes := by
  obtain ⟨_, inside, closing, semicolon, rfl, ⟨opening, first, header, rfl, hopening, hfirst,
    hheader⟩, hsections, hclosing, hsemicolon⟩ := h
  obtain ⟨hheaderSpellable, hheaderLexemes⟩ := hheader.lexemes
  obtain ⟨hspellable, hlexemes⟩ := hsections.lexemes
  refine ⟨⟨hheaderSpellable, hspellable, fun s hmem => hshared s hmem ▸ rfl⟩, ?_⟩
  simp [ExchangeFile.lexemes, hopening, hfirst, hheaderLexemes, hlexemes, hclosing, hsemicolon]

/-- Tokens with the lexemes of an exchange structure spell it, with its records at places. -/
theorem exists_spelledBy {f : ExchangeFile} {ts : List Token} (hf : f.IsSpellable)
    (hts : ts.map Token.lexeme = f.lexemes) :
    ∃ own : ExchangeFile, own.unplaced = f.unplaced ∧ own.SpelledBy ts ∧
      ∀ s ∈ own.sections, s.header = own.header := by
  obtain ⟨start, last, rfl, hstart, hlast⟩ := List.map_eq_append_iff.mp hts
  obtain ⟨closing, semicolon, rfl, hclosing, hsemicolon⟩ := Token.two_of_lexemes hlast
  obtain ⟨front, inside, rfl, hfront, hinside⟩ := List.map_eq_append_iff.mp hstart
  obtain ⟨opening, behind, rfl, hopening, hbehind⟩ := List.map_eq_cons_iff.mp hfront
  obtain ⟨first, middle, rfl, hfirst, hmiddle⟩ := List.map_eq_cons_iff.mp hbehind
  obtain ⟨header, hheader, hspells⟩ := exists_spellsHeader hf.header hmiddle
  obtain ⟨own, hown, hspelled, hshared⟩ := exists_spellsSections hf.sections hinside
    fun s hmem => (hf.shared s hmem).trans hheader.symm
  exact ⟨⟨header, own⟩, unplaced_eq.mpr ⟨hheader, hown⟩,
    ⟨_, inside, closing, semicolon, by simp, ⟨opening, first, middle, rfl, hopening, hfirst,
      hspells⟩, hspelled, hclosing, hsemicolon⟩, hshared⟩

/-- Tokens in front of a closing word spell one row of sections only. -/
theorem SpellsSections.unique {first second : List DataSection} {ts us rest behind : List Token}
    (hfirst : SpellsSections first ts) (hsecond : SpellsSections second us)
    {header : Header} (hheader : ∀ s ∈ first, s.header = header)
    (hheaderOther : ∀ s ∈ second, s.header = header) {closing ending : Token}
    (hclosing : closing.lexeme = .closing) (hending : ending.lexeme = .closing)
    (hsame : ts ++ closing :: rest = us ++ ending :: behind) : first = second := by
  induction hfirst generalizing second us with
  | nil =>
    cases hsecond with
    | nil => rfl
    | cons hword _ _ =>
      obtain ⟨rfl, _⟩ := List.cons.inj hsame
      rw [hclosing] at hword
      cases hword
  | @cons s others word ts more hword hs hothers ih =>
    cases hsecond with
    | nil =>
      obtain ⟨rfl, _⟩ := List.cons.inj hsame
      rw [hending] at hword
      cases hword
    | @cons u others' word' us more' hword' hu hothers' =>
      obtain ⟨hown, hrest⟩ := List.forall_mem_cons.mp hheader
      obtain ⟨hownOther, hrestOther⟩ := List.forall_mem_cons.mp hheaderOther
      rw [List.append_assoc, List.append_assoc] at hsame
      obtain ⟨hcontent, hbehind⟩ := exact_section.unique hs hu (List.cons.inj hsame).2
      obtain ⟨hparameters, hrecords⟩ := Prod.mk.inj hcontent
      obtain ⟨records, parameters, _⟩ := s
      obtain ⟨records', parameters', _⟩ := u
      cases hparameters
      cases hrecords
      cases hown
      cases hownOther
      rw [ih hothers' hrest hrestOther hbehind]

/-- Tokens spell one exchange structure only. -/
theorem SpelledBy.unique {f g : ExchangeFile} {ts : List Token} (hf : f.SpelledBy ts)
    (hg : g.SpelledBy ts) (hshared : ∀ s ∈ f.sections, s.header = f.header)
    (hsharedOther : ∀ s ∈ g.sections, s.header = g.header) : f = g := by
  obtain ⟨start, inside, closing, semicolon, rfl, hstart, hinside, hclosing, _⟩ := hf
  obtain ⟨start', inside', closing', semicolon', hts, hstart', hinside', hclosing', _⟩ := hg
  obtain ⟨hheader, hbehind⟩ := exact_preamble.unique hstart hstart' hts
  obtain ⟨header, sections⟩ := f
  obtain ⟨header', sections'⟩ := g
  obtain rfl : header = header' := hheader
  have hsections : sections = sections' :=
    hinside.unique hinside' hshared hsharedOther hclosing hclosing' hbehind
  rw [hsections]

end ExchangeFile

/-! ## Readings of texts -/

namespace Reader

/-- Every row of lexemes is that of some tokens. -/
theorem exists_tokens (lexemes : List Lexeme) :
    ∃ ts : List Token, ts.map Token.lexeme = lexemes :=
  ⟨lexemes.map fun l => ⟨l, 0, 0⟩, by simp [Function.comp_def]⟩

/-- The lexemes of a text decide what is read from it.  A record is read from a text if nothing
stops the tokens of the text and their lexemes are those of the record, and an exchange structure
if, moreover, all names in it are distinct.  No two records have the same lexemes, and no two
exchange structures, but for the places of records. -/
theorem readings_exact :
    (∀ (t : Text) (r : Record),
      (∃ own, Record.ofText t = .ok own ∧ own.unplaced = r.unplaced) ↔
        (Token.ofText t).stop = none ∧ r.IsSpellable ∧
          (Token.ofText t).tokens.map Token.lexeme = r.lexemes) ∧
    (∀ (t : Text) (f : ExchangeFile),
      (∃ own, (ExchangeFile.ofText t).2 = .ok own ∧ own.unplaced = f.unplaced) ↔
        (Token.ofText t).stop = none ∧ f.IsSpellable ∧
          (Token.ofText t).tokens.map Token.lexeme = f.lexemes ∧ f.ids.Nodup) ∧
    (∀ r s : Record, r.IsSpellable → s.IsSpellable → r.lexemes = s.lexemes →
      r.unplaced = s.unplaced) ∧
    ∀ f g : ExchangeFile, f.IsSpellable → g.IsSpellable → f.lexemes = g.lexemes →
      f.unplaced = g.unplaced := by
  refine ⟨fun t r => ?_, fun t f => ?_, fun r s hr hs hsame => ?_, fun f g hf hg hsame => ?_⟩
  · constructor
    · rintro ⟨own, hread, hown⟩
      obtain ⟨hspelled, hstop⟩ := Record.ofRun_eq_ok.mp hread
      exact ⟨hstop, Record.isSpellable_of_unplaced hown hspelled.spellable,
        hspelled.lexemes.trans (Record.lexemes_of_unplaced hown)⟩
    · rintro ⟨hstop, hr, hlexemes⟩
      obtain ⟨own, hown, hspelled⟩ := Record.exists_spelledBy hr hlexemes
      exact ⟨own, Record.ofRun_eq_ok.mpr ⟨hspelled, hstop⟩, hown⟩
  · constructor
    · rintro ⟨own, hread, hown⟩
      obtain ⟨hspelled, hstop, hnodup, hshared⟩ := ExchangeFile.ofRun_eq_ok.mp hread
      obtain ⟨hspellable, hlexemes⟩ := hspelled.lexemes hshared
      exact ⟨hstop, ExchangeFile.isSpellable_of_unplaced hown hspellable,
        hlexemes.trans (ExchangeFile.lexemes_of_unplaced hown),
        ExchangeFile.ids_of_unplaced hown ▸ hnodup⟩
    · rintro ⟨hstop, hf, hlexemes, hnodup⟩
      obtain ⟨own, hown, hspelled, hshared⟩ := ExchangeFile.exists_spelledBy hf hlexemes
      exact ⟨own, ExchangeFile.ofRun_eq_ok.mpr
        ⟨hspelled, hstop, (ExchangeFile.ids_of_unplaced hown).symm ▸ hnodup, hshared⟩, hown⟩
  · obtain ⟨ts, hts⟩ := exists_tokens r.lexemes
    obtain ⟨own, hown, hspelled⟩ := Record.exists_spelledBy hr hts
    obtain ⟨other, hother, hspelledOther⟩ := Record.exists_spelledBy hs (hts.trans hsame)
    have hends : ts ++ [] = ts ++ [] := rfl
    rw [← hown, ← hother, (Record.exact_read.unique hspelled hspelledOther hends).1]
  · obtain ⟨ts, hts⟩ := exists_tokens f.lexemes
    obtain ⟨own, hown, hspelled, hshared⟩ := ExchangeFile.exists_spelledBy hf hts
    obtain ⟨other, hother, hspelledOther, hsharedOther⟩ :=
      ExchangeFile.exists_spelledBy hg (hts.trans hsame)
    rw [← hown, ← hother, hspelled.unique hspelledOther hshared hsharedOther]

end Reader

end Part21
