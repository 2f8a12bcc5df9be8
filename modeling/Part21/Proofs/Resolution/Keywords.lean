import Part21.Exchange.Reading
import Part21.Resolution.Table
import Part21.Proofs.Schema.Ancestry
import Part21.Proofs.Text.Capital

set_option autoImplicit false

/-!
# Keywords and names of types

Where a record is resolved, a keyword stands for the entity type of its name, in any letter case.
Where records of a type are listed, without those of subtypes, keywords are compared as they are
spelled, and only the name that is asked for is taken in capitals.  So the list has the records with
a group of the type of which the keyword is spelled in capitals, and no others
(`Basis.recordsOfType_exact`); a keyword in small letters is passed over.
-/

namespace Part21

/-- Spelled in capitals only, as far as letters have capitals. -/
def Text.IsCapital (t : Text) : Prop := t.upper = t

instance (t : Text) : Decidable t.IsCapital := inferInstanceAs (Decidable (_ = _))

namespace Basis

variable {b : Basis}

/-- A group is resolved as one of an entity type. -/
def Identifies (b : Basis) (brought : Option Blueprint) (group : Group) (e : EntityType) : Prop :=
  (b.blueprint brought group.keyword).map Blueprint.definition = .ok e

/-- The groups of a registered entity type are those that have its name for a keyword. -/
theorem identifies_iff {e : EntityType} {name : Text} (he : b.registry.entity name = .ok e)
    (brought : Option Blueprint) (group : Group) :
    b.Identifies brought group e ↔ group.keyword.upper = e.key := by
  unfold Identifies blueprint
  constructor
  · intro h
    split at h
    · rename_i definition hkeyword
      cases h
      exact (Registry.key_of_find? (Registry.entity?_eq_some.mp hkeyword)).symm
    · split at h
      · split at h
        · rename_i hkey
          cases h
          exact hkey.symm
        · cases h
      · cases h
  · intro hkey
    have hfind := Registry.find?_of_entity he
    have hsame : group.keyword.upper = name.upper := hkey.trans (Registry.key_of_find? hfind)
    rw [Registry.entity?_eq_some.mpr ((Registry.find?_congr hsame).trans hfind)]
    rfl

theorem anyOf_keywordMatches (sought : Text) (keywords : List Text) :
    anyOf (b.keywordMatches sought false) keywords = .ok (keywords.contains sought.upper) := by
  induction keywords with
  | nil => rfl
  | cons keyword rest ih =>
    rw [anyOf, ih, keywordMatches]
    by_cases hsame : keyword = sought.upper
    · simp [hsame]
    · simp [hsame, Ne.symm hsame]

/-- Without subtypes, the records are listed that have a keyword spelled like the name in
capitals. -/
theorem selectRecords_eq_filter (sought : Text) (records : List Record) :
    b.selectRecords sought false records =
      .ok (records.filter fun r => r.keywords.contains sought.upper) := by
  induction records with
  | nil => rfl
  | cons r rest ih =>
    rw [selectRecords, anyOf_keywordMatches, ih]
    dsimp only
    rw [List.filter_cons]

/-- The exact list of the records of a registered entity type.  It has the records in the order of
the table, each that has a group which is resolved as one of the type, whatever is brought along,
and of which the keyword is spelled in capitals.  The letter case of the name that is asked for does
not matter. -/
theorem recordsOfType_exact {e : EntityType} {name : Text} (he : b.registry.entity name = .ok e) :
    ∃ listed, b.recordsOfType name false = .ok listed ∧
      listed.Sublist b.population.records ∧
      ∀ brought, ∀ r ∈ b.population.records,
        (r ∈ listed ↔ ∃ group ∈ r.groups, b.Identifies brought group e ∧
          group.keyword.IsCapital) := by
  refine ⟨_, selectRecords_eq_filter name _, List.filter_sublist, fun brought r hr => ?_⟩
  have hkey : e.key = name.upper := Registry.key_of_find? (Registry.find?_of_entity he)
  rw [List.mem_filter, and_iff_right hr, List.contains_iff_mem, Record.keywords, List.mem_map]
  refine exists_congr fun group => and_congr_right fun _ => ?_
  rw [identifies_iff he, hkey, Text.IsCapital]
  constructor
  · intro hspelled
    have hcapital : group.keyword.upper = name.upper := by rw [hspelled, Text.upper_upper]
    exact ⟨hcapital, hcapital.trans hspelled.symm⟩
  · rintro ⟨hsame, hcapital⟩
    exact hcapital.symm.trans hsame

end Basis

/-! ## Samples -/

namespace Sample

/-- A type of lamps. -/
def lamp : EntityType := ⟨"LAMP", [], [], false, []⟩

/-- A lamp with its keyword spelled in a given way. -/
def lampRecord (id : Int) (keyword : Text) : Record := ⟨some id, .simple ⟨keyword, []⟩, some 0, some 1⟩

/-- A table of two lamps, of which one has its keyword in small letters. -/
def lampTable : Table :=
  ((Table.empty (((Registry.initial "lamps").register (.entity lamp) false).toOption.getD
    (.initial "lamps")) .initial .default).extend [lampRecord 1 "lamp", lampRecord 2 "LAMP"]).2

end Sample

namespace Basis

theorem recordsOfType_exact_lamps :
    Sample.lampTable.basis.registry.entity "Lamp" = .ok Sample.lamp ∧
      ∃ listed, Sample.lampTable.basis.recordsOfType "Lamp" false = .ok listed ∧
        Sample.lampRecord 2 "LAMP" ∈ listed ∧ Sample.lampRecord 1 "lamp" ∉ listed := by
  have he : Sample.lampTable.basis.registry.entity "Lamp" = .ok Sample.lamp := rfl
  have hrecords : Sample.lampTable.basis.population.records =
      [Sample.lampRecord 1 "lamp", Sample.lampRecord 2 "LAMP"] := rfl
  obtain ⟨listed, hlisted, -, hmem⟩ := recordsOfType_exact he
  refine ⟨he, listed, hlisted, (hmem none _ ?_).mpr ?_, fun hsmall => ?_⟩
  · simp [hrecords]
  · exact ⟨⟨"LAMP", []⟩, List.mem_singleton_self _, rfl, by decide⟩
  · obtain ⟨group, hgroup, -, hcapital⟩ := (hmem none _ (by simp [hrecords])).mp hsmall
    rw [List.mem_singleton.mp hgroup] at hcapital
    exact absurd hcapital (by decide)

/-- A record of a type that is missing from the records of this type: its keyword is spelled in
small letters in the text. -/
theorem not_mem_recordsOfType_of_small :
    Record.ofText "#1=lamp();" = .ok (Sample.lampRecord 1 "lamp") ∧
      Sample.lampTable.basis.registry.entity "LAMP" = .ok Sample.lamp ∧
      Sample.lampRecord 1 "lamp" ∈ Sample.lampTable.basis.population.records ∧
      (∃ group ∈ (Sample.lampRecord 1 "lamp").groups,
        Sample.lampTable.basis.Identifies none group Sample.lamp) ∧
      ∃ listed, Sample.lampTable.basis.recordsOfType "LAMP" false = .ok listed ∧
        Sample.lampRecord 1 "lamp" ∉ listed := by
  have htokens : (Token.ofText "#1=lamp();").tokens =
      [⟨.entityName 1, 0, 1⟩, ⟨.equals, 2, 1⟩, ⟨.keyword "lamp", 3, 1⟩, ⟨.leftParen, 7, 1⟩,
        ⟨.rightParen, 8, 1⟩, ⟨.semicolon, 9, 1⟩] := by
    decide +kernel
  have hstop : (Token.ofText "#1=lamp();").stop = none := by decide +kernel
  have hread : Record.ofText "#1=lamp();" = .ok (Sample.lampRecord 1 "lamp") := by
    have hread : Record.read (Token.ofText "#1=lamp();").tokens =
        .ok (Sample.lampRecord 1 "lamp", []) := by
      rw [htokens]
      rfl
    simp [Record.ofText, Record.ofRun, hread, TokenRun.finish, hstop]
  refine ⟨hread, rfl, List.mem_cons_self, ⟨_, List.mem_singleton_self _, rfl⟩,
    [Sample.lampRecord 2 "LAMP"], rfl, fun hmem => ?_⟩
  exact absurd (congrArg Record.id (List.mem_singleton.mp hmem)) (by decide)

end Basis

end Part21
