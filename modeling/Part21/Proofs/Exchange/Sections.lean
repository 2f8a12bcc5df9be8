import Mathlib.Data.List.Nodup
import Part21.Proofs.Exchange.Records

set_option autoImplicit false

/-!
# Reading sections and exchange structures

A section, a header and an exchange structure are read from the tokens that spell them and from
no others (`Reader.exact_dataSection`, `ExchangeFile.exact_preamble`, `ExchangeFile.ofRun_eq_ok`).
Names that occur twice are no matter of spelling: an exchange structure is read if, beyond its
spelling, all names in it are distinct.
-/

namespace Part21

namespace Reader

/-! ## Sections -/

/-- Tokens spell the parameters of a section, if it has some, and a semicolon. -/
structure SpellsParameters (values : List Parameter) (ts : List Token) : Prop where
  spellable : Parameter.AllSpellable values
  lexemes : ts.map Token.lexeme = DataSection.parameterLexemes values ++ [.semicolon]

/-- The reader of the parameters of a section is exact. -/
theorem exact_sectionParameters : Exact sectionParameters SpellsParameters := by
  intro ts values rest
  constructor
  · intro h
    unfold sectionParameters at h
    split at h
    · cases h
    · rename_i t more
      split at h
      · rename_i ht
        cases h
        exact ⟨[t], rfl, trivial, congrArg (· :: []) ht⟩
      · rename_i ht
        split at h
        · cases h
        · rename_i row behind hrow
          split at h
          · cases h
          · rename_i after hrequire
            cases h
            obtain ⟨used, rfl, hsome, hspells⟩ := (exact_parameters_wanted _ _ _).mp hrow
            obtain ⟨semicolon, rfl, hsemicolon⟩ :=
              lexeme_of_require (m := .semicolon) rfl rfl hrequire
            obtain ⟨first, others, rfl⟩ := List.exists_cons_of_ne_nil hsome
            refine ⟨t :: used ++ [semicolon], by simp, hspells.spellable, ?_⟩
            rw [List.map_append, List.map_cons, ht, hspells.lexemes, List.map_singleton, hsemicolon]
            rfl
      · cases h
  · rintro ⟨used, rfl, hspellable, hused⟩
    cases values with
    | nil =>
      obtain ⟨t, rfl, ht⟩ := List.map_eq_singleton_iff.mp hused
      rw [List.singleton_append, sectionParameters, ht]
    | cons first others =>
      rw [DataSection.parameterLexemes, List.cons_append] at hused
      obtain ⟨t, behind, rfl, ht, hbehind⟩ := List.map_eq_cons_iff.mp hused
      obtain ⟨row, last, rfl, hrow, hlast⟩ := List.map_eq_append_iff.mp hbehind
      obtain ⟨semicolon, rfl, hsemicolon⟩ := List.map_eq_singleton_iff.mp hlast
      have hread := (exact_parameters_wanted _ (first :: others) ([semicolon] ++ rest)).mpr
        ⟨row, rfl, by simp, hspellable, hrow⟩
      rw [List.cons_append, sectionParameters, ht, List.append_assoc, hread]
      dsimp only
      rw [List.singleton_append, require_of_lexeme (k := .semicolon) hsemicolon rfl]

/-- Tokens spell a section but for the word that opens it. -/
def SpellsSection (content : List Parameter × List Record) (ts : List Token) : Prop :=
  ∃ opening inside ending semicolon, ts = opening ++ (inside ++ [ending, semicolon]) ∧
    SpellsParameters content.1 opening ∧ SpellsInstances content.2 inside ∧
    ending.lexeme = .endSection ∧ semicolon.lexeme = .semicolon

/-- The reader of sections is exact, wherever they stand: what can follow an instance there is
another one or the end of the section at least. -/
theorem exact_dataSection {anywhere : List Terminal} (hname : .lexeme .entityName ∈ anywhere)
    (hend : .lexeme .endSection ∈ anywhere) : Exact (dataSection anywhere) SpellsSection := by
  intro ts content rest
  constructor
  · intro h
    unfold dataSection at h
    split at h
    · cases h
    · rename_i values inside hvalues
      split at h
      · cases h
      · split at h
        · cases h
        · rename_i records behind hrecords
          split at h
          · cases h
          · rename_i closing hclosing
            split at h
            · cases h
            · rename_i more hlast
              cases h
              obtain ⟨opening, rfl, hopening⟩ := (exact_sectionParameters _ _ _).mp hvalues
              obtain ⟨used, own, rfl, hown, hspells, _⟩ := spellsInstances_of_instances hrecords
              obtain rfl : records = own := hown
              obtain ⟨ending, rfl, hending⟩ :=
                lexeme_of_require (m := .endSection) rfl rfl hclosing
              obtain ⟨semicolon, rfl, hsemicolon⟩ :=
                lexeme_of_require (m := .semicolon) rfl rfl hlast
              exact ⟨opening ++ (used ++ [ending, semicolon]), by simp, opening, used, ending,
                semicolon, rfl, hopening, hspells, hending, hsemicolon⟩
  · rintro ⟨_, rfl, opening, inside, ending, semicolon, rfl, hopening, hinside, hending,
      hsemicolon⟩
    obtain ⟨values, records⟩ := content
    have hvalues := (exact_sectionParameters _ values
      (inside ++ ([ending, semicolon] ++ rest))).mpr ⟨opening, rfl, hopening⟩
    have hkind : next ([ending, semicolon] ++ rest) = .lexeme .endSection := next_cons hending _
    have hfollow : follow inSection inSection (inside ++ ([ending, semicolon] ++ rest)) =
        .ok () := by
      rw [follow_eq_ok, hinside.next_append, hkind]
      split <;> simp [inSection, kinds]
    have hrecords : instances anywhere inSection [] (inside ++ ([ending, semicolon] ++ rest)) =
        .ok (records, [ending, semicolon] ++ rest) :=
      instances_of_spellsInstances ⟨hname, by simp [inSection, kinds]⟩ hinside
        (by rw [hkind]; simp) fun _ => hkind ▸ ⟨hend, by simp [inSection, kinds]⟩
    unfold dataSection
    rw [List.append_assoc, List.append_assoc, hvalues]
    dsimp only
    rw [hfollow, hrecords]
    dsimp only [List.cons_append]
    rw [require_of_lexeme (k := .endSection) hending rfl]
    dsimp only
    rw [require_of_lexeme (k := .semicolon) hsemicolon rfl]
    rfl

/-- The reader of the sections of an exchange structure is exact. -/
theorem exact_section : Exact (dataSection inSection) SpellsSection :=
  exact_dataSection (by simp [inSection, kinds]) (by simp [inSection, kinds])

/-! ## Headers -/

/-- Tokens spell records without names, one after another. -/
structure SpellsHeaderRecords (records : List Record) (ts : List Token) : Prop where
  spelled : Record.SpelledInTurn records ts
  unnamed : ∀ r ∈ records, r.id = none

/-- What is read as the records of a header is spelled by tokens in front of the word that closes
it. -/
theorem spells_of_headerRecords {before records : List Record} {ts rest : List Token}
    (h : headerRecords before ts = .ok (records, rest)) :
    ∃ used more ending, ts = used ++ ending :: rest ∧ records = before.reverse ++ more ∧
      SpellsHeaderRecords more used ∧ ending.lexeme = .endSection := by
  fun_induction headerRecords before ts
  all_goals first | cases h; done | skip
  case case3 before t inside keyword ht r behind hread ih =>
    obtain ⟨used, more, ending, rfl, rfl, hmore, hending⟩ := ih h
    obtain ⟨own, rfl, hr, hname⟩ := Record.spelledBy_of_unnamedRecord ht hread
    exact ⟨(t :: own) ++ used, r :: more, ending, by simp, by simp,
      ⟨.cons hr hmore.spelled, List.forall_mem_cons.mpr ⟨hname, hmore.unnamed⟩⟩, hending⟩
  case case4 before t inside ht =>
    cases h
    exact ⟨[], [], t, rfl, by simp, ⟨.nil, by simp⟩, ht⟩

/-- A header goes on behind a record that is read. -/
theorem headerRecords_cons {t : Token} {keyword : Text} (ht : t.lexeme = .keyword keyword)
    {inside more : List Token} {r : Record}
    (hread : unnamedRecord keyword t inside = .ok (r, more)) (before : List Record) :
    headerRecords before (t :: inside) = headerRecords (r :: before) more := by
  rw [headerRecords.eq_def]
  dsimp only
  split
  · rename_i own hown
    obtain rfl : keyword = own := Lexeme.keyword.inj (ht.symm.trans hown)
    split
    · rename_i stop hstop
      rw [hread] at hstop
      cases hstop
    · rename_i hsame
      rw [hread] at hsame
      cases hsame
      rfl
  · rename_i hother
    rw [ht] at hother
    cases hother
  · rename_i hother _
    exact absurd ht (hother keyword)

/-- Tokens that spell the records of a header are read so. -/
theorem headerRecords_of_spells {before records : List Record} {used : List Token}
    (h : SpellsHeaderRecords records used) {ending : Token} (hending : ending.lexeme = .endSection)
    (rest : List Token) :
    headerRecords before (used ++ ending :: rest) = .ok (before.reverse ++ records, rest) := by
  obtain ⟨hspelled, hunnamed⟩ := h
  induction hspelled generalizing before with
  | nil => rw [List.nil_append, headerRecords, hending, List.append_nil]
  | @cons r others ts more hr hothers ih =>
    obtain ⟨hname, hnames⟩ := List.forall_mem_cons.mp hunnamed
    obtain ⟨g, start, inside, semicolon, rfl, _⟩ := hr.of_unnamed hname
    obtain ⟨keyword, hstart, hread⟩ :=
      Record.unnamedRecord_of_spelledBy hname hr (more ++ ending :: rest)
    rw [List.append_assoc, List.cons_append, headerRecords_cons hstart hread, ih hnames,
      List.reverse_cons, List.append_assoc]
    rfl

/-- Tokens spell a header. -/
def SpellsHeader (h : Header) (ts : List Token) : Prop :=
  ∃ word semicolon inside ending last, ts = word :: semicolon :: (inside ++ [ending, last]) ∧
    word.lexeme = .header ∧ semicolon.lexeme = .semicolon ∧ SpellsHeaderRecords h.records inside ∧
    ending.lexeme = .endSection ∧ last.lexeme = .semicolon

/-- The reader of headers is exact. -/
theorem exact_header : Exact header SpellsHeader := by
  intro ts h rest
  constructor
  · intro hread
    unfold header at hread
    split at hread
    · cases hread
    · rename_i opening hopening
      split at hread
      · cases hread
      · rename_i inside hfirst
        split at hread
        · cases hread
        · rename_i records closing hrecords
          split at hread
          · cases hread
          · rename_i more hclosing
            cases hread
            obtain ⟨word, rfl, hword⟩ := lexeme_of_require (m := .header) rfl rfl hopening
            obtain ⟨semicolon, rfl, hsemicolon⟩ :=
              lexeme_of_require (m := .semicolon) rfl rfl hfirst
            obtain ⟨used, own, ending, rfl, hown, hspells, hending⟩ :=
              spells_of_headerRecords hrecords
            obtain rfl : records = own := hown
            obtain ⟨last, rfl, hlast⟩ := lexeme_of_require (m := .semicolon) rfl rfl hclosing
            exact ⟨word :: semicolon :: (used ++ [ending, last]), by simp, word, semicolon, used,
              ending, last, rfl, hword, hsemicolon, hspells, hending, hlast⟩
  · rintro ⟨_, rfl, word, semicolon, inside, ending, last, rfl, hword, hsemicolon, hinside,
      hending, hlast⟩
    have hrecords : headerRecords [] (inside ++ ending :: last :: rest) =
        .ok (h.records, last :: rest) := headerRecords_of_spells hinside hending (last :: rest)
    unfold header
    rw [List.cons_append, List.cons_append, require_of_lexeme (k := .header) hword rfl]
    dsimp only
    rw [require_of_lexeme (k := .semicolon) hsemicolon rfl, List.append_assoc]
    dsimp only [List.cons_append, List.nil_append]
    rw [hrecords]
    dsimp only
    rw [require_of_lexeme (k := .semicolon) hlast rfl]

end Reader

/-! ## Names that occur twice -/

namespace Record

/-- No name occurs twice if all are distinct, and differ from those of the records before. -/
theorem duplicate?_eq_none {earlier records : List Record} :
    duplicate? earlier records = none ↔
      (records.filterMap Record.id).Nodup ∧
        ∀ id ∈ records.filterMap Record.id, ∀ first ∈ earlier, first.id ≠ some id := by
  induction records generalizing earlier with
  | nil => simp [duplicate?]
  | cons r rest ih =>
    unfold duplicate?
    cases hid : r.id with
    | none =>
      rw [List.filterMap_cons_none hid]
      exact ih
    | some id =>
      rw [List.filterMap_cons_some hid]
      dsimp only
      cases hfind : earlier.find? fun first => first.id = some id with
      | some first =>
        refine iff_of_false (by simp) fun h => ?_
        have hsame := List.find?_some hfind
        exact h.2 id List.mem_cons_self first (List.mem_of_find?_eq_some hfind)
          (of_decide_eq_true hsame)
      | none =>
        have hfresh : ∀ first ∈ earlier, first.id ≠ some id := by
          simpa using List.find?_eq_none.mp hfind
        dsimp only
        rw [ih, List.nodup_cons]
        constructor
        · rintro ⟨hnodup, hrest⟩
          refine ⟨⟨fun hmem => ?_, hnodup⟩, ?_⟩
          · exact hrest id hmem r (List.mem_append_right _ (List.mem_singleton_self r)) hid
          · rintro other hmem first hfirst
            rcases List.mem_cons.mp hmem with rfl | hmem
            · exact hfresh first hfirst
            · exact hrest other hmem first (List.mem_append_left _ hfirst)
        · rintro ⟨⟨hnew, hnodup⟩, hearlier⟩
          refine ⟨hnodup, fun other hmem first hfirst => ?_⟩
          rcases List.mem_append.mp hfirst with hfirst | hfirst
          · exact hearlier other (List.mem_cons_of_mem _ hmem) first hfirst
          · rw [List.mem_singleton.mp hfirst, hid]
            rintro hsame
            exact hnew (Option.some.inj hsame ▸ hmem)

/-- Of two records of a row, the second is the first one whose name occurred before, and the first
one has that name. -/
def Repeats (records : List Record) (id : Int) (first second : Record) : Prop :=
  ∃ before between behind, records = before ++ first :: (between ++ second :: behind) ∧
    first.id = some id ∧ second.id = some id ∧
      ((before ++ first :: between).filterMap Record.id).Nodup

/-- The name that is reported is the first one that occurred before. -/
theorem repeats_of_duplicate? {earlier records : List Record} {d : DuplicateName}
    (hearlier : (earlier.filterMap Record.id).Nodup)
    (h : duplicate? (earlier.filter fun r => r.id.isSome) records = some d) :
    ∃ first second, Repeats (earlier ++ records) d.id first second ∧
      d = ⟨d.id, first.offset, second.offset, second.line⟩ := by
  induction records generalizing earlier with
  | nil => cases h
  | cons r rest ih =>
    have hrow : earlier ++ r :: rest = earlier ++ [r] ++ rest := by simp
    unfold duplicate? at h
    cases hid : r.id with
    | none =>
      rw [hid] at h
      rw [hrow]
      exact ih (by simpa [hid] using hearlier) (by simpa [hid] using h)
    | some id =>
      rw [hid] at h
      dsimp only at h
      split at h
      · rename_i first hfind
        cases h
        have hsame : first.id = some id := by simpa using List.find?_some hfind
        have hmem := (List.mem_filter.mp (List.mem_of_find?_eq_some hfind)).1
        obtain ⟨before, between, rfl⟩ := List.append_of_mem hmem
        exact ⟨first, r, ⟨before, between, rest, by simp, hsame, hid, hearlier⟩, rfl⟩
      · rename_i hnone
        have hfresh : ∀ first ∈ earlier, first.id ≠ some id := by
          intro first hfirst hsame
          have hmem : first ∈ earlier.filter fun r => r.id.isSome :=
            List.mem_filter.mpr ⟨hfirst, by rw [hsame]; rfl⟩
          exact List.find?_eq_none.mp hnone first hmem (decide_eq_true hsame)
        rw [hrow]
        refine ih ?_ (by simpa [hid] using h)
        rw [List.filterMap_append, List.nodup_append]
        refine ⟨hearlier, by simp [hid], fun i hi j hj => ?_⟩
        obtain ⟨first, hfirst, hsame⟩ := List.mem_filterMap.mp hi
        obtain rfl : j = id := by simpa [hid] using hj
        rintro rfl
        exact hfresh first hfirst hsame

theorem duplicate?_nil_eq_none {records : List Record} :
    duplicate? [] records = none ↔ (records.filterMap Record.id).Nodup := by
  rw [duplicate?_eq_none]
  simp

/-- Records before do not count but for their names. -/
theorem duplicate?_congr {earlier others records : List Record}
    (h : ∀ id : Int, (earlier.find? fun first => first.id = some id) =
      others.find? fun first => first.id = some id) :
    duplicate? earlier records = duplicate? others records := by
  induction records generalizing earlier others with
  | nil => rfl
  | cons r rest ih =>
    unfold duplicate?
    split
    · exact ih h
    · rename_i id _
      rw [h id]
      split
      · rfl
      · refine ih fun name => ?_
        rw [List.find?_append, List.find?_append, h name]

/-- In two rows, a name occurs twice in the first one or else in the second one behind it. -/
theorem duplicate?_append (earlier records behind : List Record) :
    duplicate? earlier (records ++ behind) =
      (duplicate? earlier records).or (duplicate? (earlier ++ records) behind) := by
  induction records generalizing earlier with
  | nil => rw [List.nil_append, List.append_nil, duplicate?, Option.none_or]
  | cons r rest ih =>
    rw [List.cons_append, duplicate?, duplicate?]
    split
    · rename_i hnone
      rw [ih]
      refine congrArg (Option.or _) (duplicate?_congr fun id => ?_)
      rw [List.find?_append, List.find?_append, List.find?_cons_of_neg (by simp [hnone])]
    · split
      · rw [Option.some_or]
      · rw [ih, List.append_assoc, List.singleton_append]

end Record

namespace DataSection

/-- A name occurs twice in sections if it does so in all their records. -/
theorem duplicate?_eq (earlier : List Record) (sections : List DataSection) :
    duplicate? earlier sections =
      Record.duplicate? earlier (sections.flatMap DataSection.records) := by
  induction sections generalizing earlier with
  | nil => rfl
  | cons s rest ih =>
    rw [List.flatMap_cons, Record.duplicate?_append, duplicate?, ih]
    cases Record.duplicate? earlier s.records <;> rfl

/-- A section is put together if all names in it are distinct. -/
theorem assemble_eq_ok {records : List Record} {parameters : List Parameter} {header : Header}
    {s : DataSection} :
    assemble records parameters header = .ok s ↔
      s = ⟨records, parameters, header⟩ ∧ (records.filterMap Record.id).Nodup := by
  unfold assemble
  rw [← Record.duplicate?_nil_eq_none]
  cases Record.duplicate? [] records with
  | some name => exact iff_of_false (by simp) fun h => by simp at h
  | none => simp [eq_comm]

end DataSection

/-! ## Exchange structures -/

namespace ExchangeFile

open Reader

/-- An exchange structure is put together if all names in it are distinct.  All its sections stand
under its header. -/
theorem assemble_eq_ok {header : Header} {sections : List DataSection} {f : ExchangeFile} :
    assemble header sections = .ok f ↔
      f = ⟨header, sections.map fun s => { s with header := header }⟩ ∧
        ((sections.flatMap DataSection.records).filterMap Record.id).Nodup := by
  unfold assemble
  rw [DataSection.duplicate?_eq, ← Record.duplicate?_nil_eq_none]
  cases Record.duplicate? [] (sections.flatMap DataSection.records) with
  | some name => exact iff_of_false (by simp) fun h => by simp at h
  | none => simp [eq_comm]

/-- Tokens spell sections one after another. -/
inductive SpellsSections : List DataSection → List Token → Prop
  | nil : SpellsSections [] []
  | cons {s : DataSection} {rest : List DataSection} {word : Token} {ts more : List Token}
      (hword : word.lexeme = .data) (hs : SpellsSection (s.parameters, s.records) ts)
      (hrest : SpellsSections rest more) : SpellsSections (s :: rest) (word :: ts ++ more)

/-- Another section or the closing word comes behind a section. -/
theorem follow_spellsSections {sections : List DataSection} {used : List Token}
    (h : SpellsSections sections used) {closing : Token} (hclosing : closing.lexeme = .closing)
    (rest : List Token) :
    follow behindSection behindSection (used ++ closing :: rest) = .ok () := by
  rw [follow_eq_ok, and_self]
  cases h with
  | nil =>
    rw [List.nil_append, next_cons hclosing]
    decide
  | @cons s others word ts more hword hs hrest =>
    rw [List.append_assoc, List.cons_append, next_cons hword]
    decide

/-- What is read as sections is spelled by tokens in front of the closing word, and stands under no
header. -/
theorem spells_of_readSections {run : TokenRun} {header : Header}
    {before sections : List DataSection} {ts rest : List Token}
    (h : (readSections run header before ts).2 = .ok (sections, rest)) :
    ∃ used more closing, ts = used ++ closing :: rest ∧ sections = before.reverse ++ more ∧
      SpellsSections more used ∧ closing.lexeme = .closing ∧ ∀ s ∈ more, s.header = ⟨[]⟩ := by
  fun_induction readSections run header before ts
  all_goals first | cases h; done | skip
  case case5 before offset line inside values records behind hread _ s hassemble events answer
      hrest _ ih =>
    rw [hrest] at ih
    obtain ⟨used, more, closing, rfl, rfl, hmore, hclosing, hheader⟩ := ih h
    obtain ⟨own, rfl, hown⟩ := (exact_section _ _ _).mp hread
    obtain ⟨rfl, _⟩ := DataSection.assemble_eq_ok.mp hassemble
    exact ⟨⟨.data, offset, line⟩ :: own ++ used, ⟨records, values, ⟨[]⟩⟩ :: more, closing, by simp,
      by simp, .cons rfl hown hmore, hclosing, List.forall_mem_cons.mpr ⟨rfl, hheader⟩⟩
  case case6 before ts hdata hfollow =>
    rw [follow_eq_ok, and_self] at hfollow
    cases ts with
    | nil => simp [next, behindSection, kinds] at hfollow
    | cons t inside =>
      cases h
      have hkind : t.kind = .data ∨ t.kind = .closing := by
        simpa [next, behindSection, kinds] using hfollow
      rcases hkind with hkind | hkind
      · obtain ⟨lexeme, offset, line⟩ := t
        obtain rfl : lexeme = .data := lexeme_eq_of_kind (m := .data) rfl hkind
        exact (hdata offset line inside rfl).elim
      · exact ⟨[], [], t, rfl, by simp, .nil, lexeme_eq_of_kind (m := .closing) rfl hkind, by simp⟩

/-- Sections go on behind one that is read, if no name occurs twice in it. -/
theorem readSections_cons {run : TokenRun} {header : Header} {before : List DataSection}
    {word : Token} (hword : word.lexeme = .data) {inside rest : List Token}
    {values : List Parameter} {records : List Record}
    (hread : dataSection inSection inside = .ok ((values, records), rest))
    (hfollow : follow behindSection behindSection rest = .ok ()) :
    (readSections run header before (word :: inside)).2 =
      match DataSection.assemble records values ⟨[]⟩ with
      | .error name => .error (.duplicate name)
      | .ok s => (readSections run header (s :: before) rest).2 := by
  have hfirst : follow behindSection behindSection (word :: inside) = .ok () := by
    rw [follow_eq_ok, next_cons hword]
    decide
  obtain ⟨lexeme, offset, line⟩ := word
  cases hword
  rw [readSections.eq_def, hfirst]
  dsimp only
  split
  · rename_i stop hstop
    rw [hread] at hstop
    cases hstop
  · rename_i hsame
    rw [hread] at hsame
    cases hsame
    rw [hfollow]
    dsimp only
    cases DataSection.assemble records values ⟨[]⟩ <;> rfl

/-- Tokens that spell sections are read so, if no name occurs twice in a section. -/
theorem readSections_of_spells {run : TokenRun} {header : Header}
    {before sections : List DataSection} {used : List Token} (h : SpellsSections sections used)
    (hsections : ∀ s ∈ sections, s.header = ⟨[]⟩ ∧ s.ids.Nodup) {closing : Token}
    (hclosing : closing.lexeme = .closing) (rest : List Token) :
    (readSections run header before (used ++ closing :: rest)).2 =
      .ok (before.reverse ++ sections, rest) := by
  induction h generalizing before with
  | nil =>
    have hfollow := follow_spellsSections .nil hclosing rest
    obtain ⟨lexeme, offset, line⟩ := closing
    cases hclosing
    rw [readSections, hfollow, List.append_nil]
    · rfl
    · intro _ _ _ hdata
      cases hdata
  | @cons s others word ts more hword hs hothers ih =>
    obtain ⟨⟨hheader, hnodup⟩, hrest⟩ := List.forall_mem_cons.mp hsections
    have hread := (exact_section _ _ (more ++ closing :: rest)).mpr ⟨ts, rfl, hs⟩
    have hassemble : DataSection.assemble s.records s.parameters ⟨[]⟩ = .ok s :=
      DataSection.assemble_eq_ok.mpr ⟨by rw [← hheader], hnodup⟩
    rw [List.append_assoc, List.cons_append, readSections_cons hword hread
      (follow_spellsSections hothers hclosing rest), hassemble]
    dsimp only
    rw [ih hrest, List.reverse_cons, List.append_assoc]
    rfl

/-- Tokens spell the opening word and the header. -/
def SpellsPreamble (header : Header) (ts : List Token) : Prop :=
  ∃ opening semicolon inside, ts = opening :: semicolon :: inside ∧ opening.lexeme = .opening ∧
    semicolon.lexeme = .semicolon ∧ SpellsHeader header inside

/-- The reader of the opening word and the header is exact. -/
theorem exact_preamble : Exact preamble SpellsPreamble := by
  intro ts header rest
  constructor
  · intro h
    unfold preamble at h
    split at h
    · cases h
    · rename_i first hfirst
      split at h
      · cases h
      · rename_i second hsecond
        obtain ⟨opening, rfl, hopening⟩ := lexeme_of_require (m := .opening) rfl rfl hfirst
        obtain ⟨semicolon, rfl, hsemicolon⟩ :=
          lexeme_of_require (m := .semicolon) rfl rfl hsecond
        obtain ⟨inside, rfl, hinside⟩ := (exact_header _ _ _).mp h
        exact ⟨opening :: semicolon :: inside, rfl, opening, semicolon, inside, rfl, hopening,
          hsemicolon, hinside⟩
  · rintro ⟨_, rfl, opening, semicolon, inside, rfl, hopening, hsemicolon, hinside⟩
    unfold preamble
    rw [List.cons_append, List.cons_append, require_of_lexeme (k := .opening) hopening rfl]
    dsimp only
    rw [require_of_lexeme (k := .semicolon) hsemicolon rfl]
    exact (exact_header _ _ _).mpr ⟨inside, rfl, hinside⟩

/-- Tokens spell an exchange structure, whatever header its sections stand under. -/
def SpelledBy (f : ExchangeFile) (ts : List Token) : Prop :=
  ∃ start inside closing semicolon, ts = start ++ (inside ++ [closing, semicolon]) ∧
    SpellsPreamble f.header start ∧ SpellsSections f.sections inside ∧
    closing.lexeme = .closing ∧ semicolon.lexeme = .semicolon

theorem SpellsSections.map {sections : List DataSection} {ts : List Token}
    (h : SpellsSections sections ts) (header : Header) :
    SpellsSections (sections.map fun s => { s with header := header }) ts := by
  induction h with
  | nil => exact .nil
  | cons hword hs _ ih => exact .cons hword hs ih

end ExchangeFile

namespace TokenRun

theorem finish_eq_ok {run : TokenRun} {rest : List Token} {expected : List Terminal} :
    run.finish rest expected = .ok () ↔ rest = [] ∧ run.stop = none := by
  unfold finish
  split
  · rename_i hstop
    simp [hstop]
  · rename_i hother
    exact iff_of_false (by simp) fun h => hother h.1 h.2

end TokenRun

namespace Record

/-- A run of tokens is read as a record if the tokens spell it and nothing stops them. -/
theorem ofRun_eq_ok {run : TokenRun} {r : Record} :
    ofRun run = .ok r ↔ r.SpelledBy run.tokens ∧ run.stop = none := by
  unfold ofRun
  constructor
  · intro h
    split at h
    · cases h
    · rename_i own rest hread
      split at h
      · cases h
      · rename_i hfinish
        cases h
        obtain ⟨rfl, hstop⟩ := TokenRun.finish_eq_ok.mp hfinish
        obtain ⟨used, hused, hspelled⟩ := (exact_read _ _ _).mp hread
        rw [hused, List.append_nil]
        exact ⟨hspelled, hstop⟩
  · rintro ⟨hspelled, hstop⟩
    rw [(exact_read _ r []).mpr ⟨run.tokens, (List.append_nil _).symm, hspelled⟩]
    dsimp only
    rw [TokenRun.finish_eq_ok.mpr ⟨rfl, hstop⟩]

end Record

namespace ExchangeFile

open Reader

/-- Names that are distinct in all sections are distinct in each of them. -/
theorem nodup_section {sections : List DataSection}
    (h : ((sections.flatMap DataSection.records).filterMap Record.id).Nodup) :
    ∀ s ∈ sections, s.ids.Nodup := by
  intro s hmem
  rw [List.filterMap_flatMap] at h
  exact (List.nodup_flatMap.mp h).1 s hmem

/-- What a run of tokens is read as, they spell, and nothing stops them. -/
theorem spelledBy_of_ofRun {run : TokenRun} {f : ExchangeFile} (h : (ofRun run).2 = .ok f) :
    f.SpelledBy run.tokens ∧ run.stop = none ∧ f.ids.Nodup ∧
      ∀ s ∈ f.sections, s.header = f.header := by
  unfold ofRun at h
  split at h
  · cases h
  · rename_i header inside hpreamble
    split at h
    · cases h
    · rename_i events sections closing hsections
      split at h
      · cases h
      · rename_i rest hlast
        split at h
        · cases h
        · rename_i file hassemble
          split at h
          · cases h
          · rename_i hfinish
            cases h
            obtain ⟨rfl, hstop⟩ := TokenRun.finish_eq_ok.mp hfinish
            obtain ⟨start, hstart, hspells⟩ := (exact_preamble _ _ _).mp hpreamble
            obtain ⟨used, own, word, rfl, hown, hused, hword, _⟩ :=
              spells_of_readSections (congrArg Prod.snd hsections)
            obtain rfl : sections = own := hown
            obtain ⟨semicolon, rfl, hsemicolon⟩ :=
              lexeme_of_require (m := .semicolon) rfl rfl hlast
            obtain ⟨rfl, hnodup⟩ := assemble_eq_ok.mp hassemble
            refine ⟨⟨start, used, word, semicolon, hstart, hspells, hused.map header, hword,
              hsemicolon⟩, hstop, ?_, ?_⟩
            · rwa [ids, records, List.flatMap_map]
            · intro s hmem
              obtain ⟨_, _, rfl⟩ := List.mem_map.mp hmem
              rfl

/-- A run of tokens is read as what they spell. -/
theorem ofRun_of_spelledBy {run : TokenRun} {f : ExchangeFile} (hspelled : f.SpelledBy run.tokens)
    (hstop : run.stop = none) (hnodup : f.ids.Nodup)
    (hheader : ∀ s ∈ f.sections, s.header = f.header) : (ofRun run).2 = .ok f := by
  obtain ⟨start, inside, closing, semicolon, hts, hstart, hinside, hclosing, hsemicolon⟩ := hspelled
  -- The sections are read under no header, and come under theirs when all is put together.
  have hbare := hinside.map ⟨[]⟩
  have hnodups : ∀ s ∈ f.sections.map (fun s => { s with header := (⟨[]⟩ : Header) }),
      s.header = ⟨[]⟩ ∧ s.ids.Nodup := by
    intro s hmem
    obtain ⟨own, hown, rfl⟩ := List.mem_map.mp hmem
    exact ⟨rfl, nodup_section hnodup own hown⟩
  have hpreamble := (exact_preamble _ f.header (inside ++ [closing, semicolon])).mpr
    ⟨start, rfl, hstart⟩
  have hsections : (readSections run f.header [] (inside ++ closing :: [semicolon])).2 =
      .ok (f.sections.map (fun s => { s with header := ⟨[]⟩ }), [semicolon]) :=
    readSections_of_spells hbare hnodups hclosing [semicolon]
  have hassemble : assemble f.header
      (f.sections.map fun s => { s with header := (⟨[]⟩ : Header) }) = .ok f := by
    rw [assemble_eq_ok, List.map_map, List.flatMap_map]
    refine ⟨?_, hnodup⟩
    have hsame : f.sections.map ((fun s => { s with header := f.header }) ∘
        fun s => { s with header := (⟨[]⟩ : Header) }) = f.sections := by
      refine (List.map_congr_left fun s hmem => ?_).trans (List.map_id _)
      rw [id, Function.comp_apply, ← hheader s hmem]
    rw [hsame]
  rw [ofRun, hts, hpreamble]
  dsimp only
  generalize readSections run f.header [] (inside ++ [closing, semicolon]) = answer at hsections ⊢
  obtain ⟨events, answer⟩ := answer
  cases hsections
  dsimp only
  rw [require_of_lexeme (k := .semicolon) hsemicolon rfl]
  dsimp only [List.reverse_nil, List.nil_append]
  rw [hassemble]
  dsimp only
  rw [TokenRun.finish_eq_ok.mpr ⟨rfl, hstop⟩]

/-- A run of tokens is read as an exchange structure if the tokens spell it and nothing stops them,
all names in it are distinct, and its sections stand under its header. -/
theorem ofRun_eq_ok {run : TokenRun} {f : ExchangeFile} :
    (ofRun run).2 = .ok f ↔
      f.SpelledBy run.tokens ∧ run.stop = none ∧ f.ids.Nodup ∧
        ∀ s ∈ f.sections, s.header = f.header :=
  ⟨spelledBy_of_ofRun, fun ⟨hspelled, hstop, hnodup, hheader⟩ =>
    ofRun_of_spelledBy hspelled hstop hnodup hheader⟩

end ExchangeFile

end Part21
