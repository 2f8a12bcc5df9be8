import Part21.Proofs.Exchange.Sections
import Part21.Proofs.Resolution.Filling

set_option autoImplicit false

/-!
# Names that occur twice, in sections and in tables

Whether a name occurs twice is looked at in every section, then across the sections of an
exchange structure, and once more by the table that takes the records.  All of them agree: what
is put together fills a table without a loss, and a row that makes no section stops a table at the
same record and for the same reason (`Table.uniqueness_agrees`).
-/

namespace Part21

/-! ## Putting all sections together -/

namespace DataSection

/-- Sections are put together one after another if no name occurs twice in one of them, and then
they are what they were. -/
theorem assembleEach_eq_ok {rows sections : List DataSection} :
    assembleEach rows = .ok sections ↔ sections = rows ∧ ∀ s ∈ rows, s.ids.Nodup := by
  induction rows generalizing sections with
  | nil => simp [assembleEach, eq_comm]
  | cons s rest ih =>
    rw [List.forall_mem_cons, assembleEach]
    constructor
    · intro h
      split at h
      · cases h
      · rename_i own hown
        split at h
        · cases h
        · rename_i others hothers
          cases h
          obtain ⟨rfl, hnames⟩ := assemble_eq_ok.mp hown
          obtain ⟨rfl, hrest⟩ := ih.mp hothers
          exact ⟨rfl, hnames, hrest⟩
    · rintro ⟨rfl, hnames, hrest⟩
      rw [assemble_eq_ok.mpr ⟨rfl, hnames⟩, ih.mpr ⟨rfl, hrest⟩]

end DataSection

namespace ExchangeFile

/-- The exchange structure of the given rows of records: each is made a section, and these are put
together under a header. -/
def assembleAll (header : Header) (rows : List DataSection) : Except DuplicateName ExchangeFile :=
  match DataSection.assembleEach rows with
  | .error duplicate => .error duplicate
  | .ok sections => assemble header sections

/-- What the sections are asked for on their own is asked for again of all of them. -/
theorem assembleAll_eq_ok {header : Header} {rows : List DataSection} {f : ExchangeFile} :
    assembleAll header rows = .ok f ↔
      f = ⟨header, rows.map fun s => { s with header := header }⟩ ∧
        ((rows.flatMap DataSection.records).filterMap Record.id).Nodup := by
  unfold assembleAll
  constructor
  · intro h
    split at h
    · cases h
    · rename_i sections hsections
      obtain ⟨rfl, _⟩ := DataSection.assembleEach_eq_ok.mp hsections
      exact assemble_eq_ok.mp h
  · rintro ⟨rfl, hnames⟩
    rw [DataSection.assembleEach_eq_ok.mpr ⟨rfl, nodup_section hnames⟩]
    exact assemble_eq_ok.mpr ⟨rfl, hnames⟩

/-- Rows are refused exactly if a name occurs twice in all of them. -/
theorem assembleAll_eq_error {header : Header} {rows : List DataSection} :
    (∃ duplicate, assembleAll header rows = .error duplicate) ↔
      ¬((rows.flatMap DataSection.records).filterMap Record.id).Nodup := by
  constructor
  · rintro ⟨duplicate, h⟩ hnames
    rw [assembleAll_eq_ok.mpr ⟨rfl, hnames⟩] at h
    cases h
  · intro hnames
    cases h : assembleAll header rows with
    | error duplicate => exact ⟨duplicate, rfl⟩
    | ok f => exact absurd (assembleAll_eq_ok.mp h).2 hnames

/-- A common header makes no difference to the records. -/
theorem records_withHeader (header : Header) (rows : List DataSection) :
    records ⟨header, rows.map fun s => { s with header := header }⟩ =
      rows.flatMap DataSection.records := by
  rw [records, List.flatMap_map]

end ExchangeFile

/-! ## The name that is reported -/

namespace Record

/-- In a row with a name that occurs twice, the first record of which the name occurred before is
reported against the first record of that name. -/
theorem exists_duplicate {records : List Record} (hnamed : ∀ r ∈ records, r.id.isSome = true)
    (h : ¬(records.map Record.id).Nodup) :
    ∃ before second behind first id, records = before ++ second :: behind ∧
      (before.map Record.id).Nodup ∧ first ∈ before ∧ first.id = some id ∧ second.id = some id ∧
      duplicate? [] records = some ⟨id, first.offset, second.offset, second.line⟩ := by
  rw [nodup_map_id hnamed, ← duplicate?_nil_eq_none] at h
  obtain ⟨name, hname⟩ := Option.ne_none_iff_exists'.mp h
  obtain ⟨first, second, ⟨before, between, behind, hrow, hfirst, hsecond, hdistinct⟩, hplaces⟩ :=
    @repeats_of_duplicate? [] records name List.nodup_nil hname
  have hsplit : records = (before ++ first :: between) ++ second :: behind := by
    rw [← List.nil_append records, hrow, List.append_assoc, List.cons_append]
  have hfront : ∀ r ∈ before ++ first :: between, r.id.isSome = true := fun r hr =>
    hnamed r (hsplit ▸ List.mem_append_left _ hr)
  exact ⟨_, second, behind, first, name.id, hsplit, (nodup_map_id hfront).mpr hdistinct, by simp,
    hfirst, hsecond, hname.trans (congrArg some hplaces)⟩

end Record

/-! ## Filling a table -/

namespace Population

variable {records : Population}

/-- A record is not taken if another one has its name. -/
theorem add_of_known {r first : Record} {id : Int} (hname : r.id = some id)
    (hknown : records.find? id = some first) :
    records.add r = .error (.duplicate ⟨id, first.offset, r.offset, r.line⟩) := by
  unfold add
  split
  · rename_i hnone
    rw [hnone] at hname
    cases hname
  · rename_i other hother
    obtain rfl : other = id := Option.some.inj (hother.symm.trans hname)
    split
    · rename_i own hown
      rw [hknown] at hown
      cases hown
      rfl
    · rename_i hnone
      rw [hknown] at hnone
      cases hnone

end Population

namespace Table

/-- A table takes two rows of records as it takes one behind the other. -/
theorem extend_append (t : Table) (before behind : List Record) :
    t.extend (before ++ behind) =
      match t.extend before with
      | (.error fault, t) => (.error fault, t)
      | (.ok (), t) => t.extend behind := by
  induction before generalizing t with
  | nil => rfl
  | cons r rest ih =>
    rw [List.cons_append, extend, extend]
    cases t.add r with
    | error fault => rfl
    | ok u => exact ih u

/-- A table takes sections one after another as it takes all their records. -/
theorem extendEach_eq (t : Table) (sections : List DataSection) :
    t.extendEach sections = t.extend (sections.flatMap DataSection.records) := by
  induction sections generalizing t with
  | nil => rfl
  | cons s rest ih =>
    rw [List.flatMap_cons, extend_append, extendEach]
    rcases t.extend s.records with ⟨outcome, u⟩
    cases outcome with
    | error fault => rfl
    | ok _ => exact ih u

/-- A record of which the name occurred before stops the filling of a table that is not sealed yet.
What was in front of it is taken, and the name is reported with the record that has it there. -/
theorem extend_of_known {t u : Table} {before : List Record}
    (hbefore : t.extend before = (.ok (), u)) (hopen : u.isSealed = false) {first second : Record}
    {id : Int} (hname : second.id = some id) (hknown : u.basis.population.find? id = some first)
    (behind : List Record) :
    t.extend (before ++ second :: behind) =
      (.error (.population (.duplicate ⟨id, first.offset, second.offset, second.line⟩)), u) := by
  rw [extend_append, hbefore]
  dsimp only
  rw [extend, add, hopen, Population.add_of_known hname hknown]
  rfl

variable (registry : Registry) (makers : Makers) (settings : Settings)

/-- A new table takes named records up to the first of which the name occurred before. -/
theorem extend_of_repeats {before : List Record} {first second : Record} {id : Int}
    (hnamed : ∀ r ∈ before, r.id.isSome = true) (hdistinct : (before.map Record.id).Nodup)
    (hmem : first ∈ before) (hfirst : first.id = some id) (hsecond : second.id = some id)
    (behind : List Record) :
    ∃ t : Table,
      (empty registry makers settings).extend (before ++ second :: behind) =
        (.error (.population (.duplicate ⟨id, first.offset, second.offset, second.line⟩)), t) ∧
      t.basis.population.records = before := by
  obtain ⟨population, hbefore, hfind⟩ :=
    extend_empty_eq_ok registry makers settings hnamed hdistinct
  exact ⟨_, extend_of_known hbefore rfl hsecond ((hfind id first).mpr ⟨hmem, hfirst⟩) behind,
    records_extend hbefore⟩

/-- A new table takes all records of an exchange structure if all have names, no two of them the
same, and has each of them under its name. -/
theorem ofExchange_eq_ok {f : ExchangeFile} (hnamed : ∀ r ∈ f.records, r.id.isSome = true)
    (hdistinct : (f.records.map Record.id).Nodup) :
    ∃ t, (empty registry makers settings).ofExchange f = .ok t ∧
      t.basis.population.records = f.records ∧ t.basis.population.ids = f.ids ∧
        ∀ r ∈ f.records, ∀ id, r.id = some id → t.lookup id = .ok r := by
  obtain ⟨population, hextend, hfind⟩ :=
    extend_empty_eq_ok registry makers settings hnamed hdistinct
  rw [ofExchange, extendEach_eq, ← ExchangeFile.records, hextend]
  refine ⟨_, rfl, records_extend hextend, ids_extend hextend, fun r hr id hid => ?_⟩
  have hrecord : population.find? id = some r := (hfind id r).mpr ⟨hr, hid⟩
  rw [lookup]
  dsimp only [report]
  rw [hrecord]

/-- Sections, exchange structures and tables agree on which names occur twice.

Named records that stand in sections are put together, section by section and then all of them,
unless a name occurs twice in the whole row.  What is put together fills a new table: it has as
many records as there are, their names in the order of the text, and each of them under its name.
If a name occurs twice in one row, the row makes no section and no full table for the same reason:
the first record of which the name occurred before, against the first record of that name.  The
table has the records in front of it then, and no others. -/
theorem uniqueness_agrees (header : Header) (rows : List DataSection)
    (hnamed : ∀ r ∈ rows.flatMap DataSection.records, r.id.isSome = true) :
    ((∃ duplicate, ExchangeFile.assembleAll header rows = .error duplicate) ↔
      ¬((rows.flatMap DataSection.records).map Record.id).Nodup) ∧
    (∀ f, ExchangeFile.assembleAll header rows = .ok f →
      ∃ t, (empty registry makers settings).ofExchange f = .ok t ∧
        t.basis.population.size = (rows.flatMap DataSection.records).length ∧
        t.basis.population.ids.map some = (rows.flatMap DataSection.records).map Record.id ∧
        ∀ r ∈ rows.flatMap DataSection.records, ∀ id, r.id = some id → t.lookup id = .ok r) ∧
    ∀ s ∈ rows, ¬(s.records.map Record.id).Nodup →
      ∃ before second behind first id t,
        s.records = before ++ second :: behind ∧
        (before.map Record.id).Nodup ∧ first ∈ before ∧
        first.id = some id ∧ second.id = some id ∧
        DataSection.assemble s.records s.parameters s.header =
          .error ⟨id, first.offset, second.offset, second.line⟩ ∧
        (empty registry makers settings).extend s.records =
          (.error (.population (.duplicate ⟨id, first.offset, second.offset, second.line⟩)), t) ∧
        t.basis.population.records = before := by
  refine ⟨?_, fun f hf => ?_, fun s hs hrepeated => ?_⟩
  · rw [ExchangeFile.assembleAll_eq_error, Record.nodup_map_id hnamed]
  · obtain ⟨rfl, hdistinct⟩ := ExchangeFile.assembleAll_eq_ok.mp hf
    have hrecords := ExchangeFile.records_withHeader header rows
    rw [← hrecords] at hnamed hdistinct ⊢
    obtain ⟨t, hfilled, hall, hids, hlookup⟩ :=
      ofExchange_eq_ok registry makers settings hnamed ((Record.nodup_map_id hnamed).mpr hdistinct)
    refine ⟨t, hfilled, ?_, ?_, hlookup⟩
    · rw [← hall, Population.size, Population.records, List.length_map]
    · rw [hids, ExchangeFile.ids, Record.map_id_eq hnamed]
  · have hown : ∀ r ∈ s.records, r.id.isSome = true := fun r hr =>
      hnamed r (List.mem_flatMap.mpr ⟨s, hs, hr⟩)
    obtain ⟨before, second, behind, first, id, hsplit, hdistinct, hmem, hfirst, hsecond, hname⟩ :=
      Record.exists_duplicate hown hrepeated
    have hfront : ∀ r ∈ before, r.id.isSome = true := fun r hr =>
      hown r (hsplit ▸ List.mem_append_left _ hr)
    obtain ⟨t, hextend, hkept⟩ :=
      extend_of_repeats registry makers settings hfront hdistinct hmem hfirst hsecond behind
    refine ⟨before, second, behind, first, id, t, hsplit, hdistinct, hmem, hfirst, hsecond, ?_,
      hsplit ▸ hextend, hkept⟩
    rw [DataSection.assemble, hname]

/-- Two sections of one record each make a table of two; with the same name in both, they do not
even make an exchange structure. -/
theorem uniqueness_agrees_two_sections :
    (∃ t, (empty (.initial []) .initial .default).ofExchange
        ⟨⟨[]⟩, [⟨[⟨some 1, .simple ⟨"A", []⟩, none, none⟩], [], ⟨[]⟩⟩,
          ⟨[⟨some 2, .simple ⟨"B", []⟩, none, none⟩], [], ⟨[]⟩⟩]⟩ = .ok t ∧
      t.basis.population.size = 2) ∧
    ∃ duplicate, ExchangeFile.assembleAll ⟨[]⟩
        [⟨[⟨some 1, .simple ⟨"A", []⟩, none, none⟩], [], ⟨[]⟩⟩,
          ⟨[⟨some 1, .simple ⟨"B", []⟩, none, none⟩], [], ⟨[]⟩⟩] = .error duplicate := by
  constructor
  · obtain ⟨t, hfilled, hsize, _⟩ :=
      (uniqueness_agrees (.initial []) .initial .default ⟨[]⟩
        [⟨[⟨some 1, .simple ⟨"A", []⟩, none, none⟩], [], ⟨[]⟩⟩,
          ⟨[⟨some 2, .simple ⟨"B", []⟩, none, none⟩], [], ⟨[]⟩⟩] (by simp)).2.1 _ rfl
    exact ⟨t, hfilled, hsize⟩
  · exact (uniqueness_agrees (.initial []) .initial .default ⟨[]⟩ _ (by simp)).1.mpr (by simp)

end Table

end Part21
