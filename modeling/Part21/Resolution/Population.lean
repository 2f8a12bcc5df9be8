import Part21.Exchange.Section

set_option autoImplicit false

/-!
# Populations

A population holds the records that have a name, in the order in which they were
added.  No two of them have the same name, and every record stands under its own.

Section 3 of `SPEC_FULL.md`, *Entity Table*, and the look-ups of 4.4 and B.8: `add`,
`lookup` and `dangling_references`.
-/

namespace Part21

/-- Records under their names. -/
structure Population where
  entries : List (Int × Record)
  distinct : (entries.map Prod.fst).Nodup
  named : ∀ entry ∈ entries, entry.2.id = some entry.1

/-- Why a record is not taken into a population. -/
inductive PopulationFault where
  | unnamed
  | duplicate (name : DuplicateName)
  deriving DecidableEq

namespace PopulationFault

/-- The text of the fault. -/
def message : PopulationFault → Text
  | unnamed => "Only named instances can be added to an entity table"
  | duplicate name => name.message

end PopulationFault

namespace Population

/-- No record. -/
def empty : Population := ⟨[], List.nodup_nil, by simp⟩

/-- The names of the records. -/
def ids (p : Population) : List Int := p.entries.map Prod.fst

/-- The records. -/
def records (p : Population) : List Record := p.entries.map Prod.snd

/-- How many records there are. -/
def size (p : Population) : Nat := p.entries.length

/-- The record of a name. -/
def find? (p : Population) (id : Int) : Option Record :=
  (p.entries.find? fun entry => entry.1 = id).map Prod.snd

/-- There is a record of that name. -/
def contains (p : Population) (id : Int) : Bool := (p.find? id).isSome

theorem not_mem_ids_of_find?_eq_none {p : Population} {id : Int} (h : p.find? id = none) :
    id ∉ p.ids := by
  simp only [find?, Option.map_eq_none_iff, List.find?_eq_none, decide_eq_true_eq] at h
  simp only [ids, List.mem_map, not_exists, not_and]
  exact h

/-- Put a record behind those there are. -/
def add (p : Population) (r : Record) : Except PopulationFault Population :=
  match named : r.id with
  | none => .error .unnamed
  | some id =>
    match missing : p.find? id with
    | some first => .error (.duplicate ⟨id, first.offset, r.offset, r.line⟩)
    | none =>
      .ok
        { entries := p.entries ++ [(id, r)]
          distinct := by
            have fresh := not_mem_ids_of_find?_eq_none missing
            simp only [ids] at fresh
            simp only [List.map_append, List.map_cons, List.map_nil, List.nodup_append,
              List.nodup_cons, List.not_mem_nil, not_false_eq_true, List.nodup_nil, and_self,
              List.mem_cons, or_false, forall_eq, true_and, ne_eq]
            exact ⟨p.distinct, fun a h same => fresh (same ▸ h)⟩
          named := by
            intro entry member
            rcases List.mem_append.mp member with old | new
            · exact p.named entry old
            · simp only [List.mem_cons, List.not_mem_nil, or_false] at new
              subst new
              exact named }

/-- The references of records to names that no record has, each with the name of
the record it stands in. -/
def dangling (p : Population) : List (Int × Int) :=
  p.entries.flatMap fun entry =>
    (entry.2.references.filter fun id => !p.contains id).map fun id => (entry.1, id)

end Population

end Part21
