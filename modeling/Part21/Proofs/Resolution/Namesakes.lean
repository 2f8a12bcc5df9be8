import Part21.Proofs.Resolution.Retention
import Part21.Resolution.Reading

set_option autoImplicit false

/-!
# Attributes of one name

An attribute of a complex instance is read as a member or as an item.  For a member the parts are
searched in their order, and the first one that has the attribute decides.  The items are the
attributes of all parts, put under their names part after part, so the last one decides
(`ComplexEntity.find?_attributes`).  Both ways find something or neither does, and what they find is
the same as long as the first and the last part agree.
-/

namespace Part21

namespace Fields

variable {α : Type}

/-- In merged fields the second row has the say. -/
theorem find?_merge {more : Fields α} (hmore : more.Distinct) (fields : Fields α) (name : Text) :
    (fields.merge more).find? name = (more.find? name).or (fields.find? name) := by
  induction more generalizing fields with
  | nil => rfl
  | cons field rest ih =>
    obtain ⟨hfirst, hrest⟩ := List.nodup_cons.mp hmore
    rw [merge_cons, ih hrest]
    by_cases hname : field.1 = name
    · have hnone : Fields.find? rest name = none := by
        rw [find?, Option.map_eq_none_iff, List.find?_eq_none]
        intro other hother hsame
        exact hfirst (List.mem_map.mpr ⟨other, hother, (of_decide_eq_true hsame).trans hname.symm⟩)
      rw [hnone, hname, find?_assign_self]
      simp [find?, hname]
    · rw [find?_assign_other fields field.2 (Ne.symm hname)]
      simp [find?, hname]

end Fields

namespace ComplexEntity

variable {c : ComplexEntity} {name : Text} {v : Value}

/-- The names of what a complex instance has besides its attributes. -/
def memberNames : List Text := ["id", "parts", "type_names", "attributes", "has_type", "part"]

/-- The first part that has an attribute of the name has this value for it. -/
def IsFirst (c : ComplexEntity) (name : Text) (v : Value) : Prop :=
  ∃ before part after, c.parts.values = before ++ part :: after ∧
    part.attributes.find? name = some v ∧ ∀ other ∈ before, other.attributes.find? name = none

/-- The last part that has an attribute of the name has this value for it. -/
def IsLast (c : ComplexEntity) (name : Text) (v : Value) : Prop :=
  ∃ before part after, c.parts.values = before ++ part :: after ∧
    part.attributes.find? name = some v ∧ ∀ other ∈ after, other.attributes.find? name = none

theorem attribute?_eq_some_iff : c.attribute? name = some v ↔ c.IsFirst name v :=
  List.findSome?_eq_some_iff

theorem attribute?_eq_none_iff :
    c.attribute? name = none ↔ ∀ part ∈ c.parts.values, part.attributes.find? name = none :=
  List.findSome?_eq_none_iff

theorem find?_foldl_merge {parts : List Entity} (h : ∀ part ∈ parts, part.attributes.Distinct)
    (fields : Fields Value) (name : Text) :
    (parts.foldl (fun done part => Fields.merge done part.attributes) fields).find? name =
      (parts.reverse.findSome? fun part => part.attributes.find? name).or (fields.find? name) := by
  induction parts generalizing fields with
  | nil => rfl
  | cons part rest ih =>
    obtain ⟨hfirst, hrest⟩ := List.forall_mem_cons.mp h
    rw [List.foldl_cons, ih hrest, Fields.find?_merge hfirst, List.reverse_cons,
      List.findSome?_append, List.findSome?_singleton, Option.or_assoc]

/-- The attributes of all parts, searched from the last part on. -/
theorem find?_attributes (h : ∀ part ∈ c.parts.values, part.attributes.Distinct) (name : Text) :
    c.attributes.find? name =
      c.parts.values.reverse.findSome? fun part => part.attributes.find? name := by
  rw [attributes, find?_foldl_merge h]
  exact Option.or_none

theorem find?_attributes_eq_some_iff (h : ∀ part ∈ c.parts.values, part.attributes.Distinct) :
    c.attributes.find? name = some v ↔ c.IsLast name v := by
  rw [find?_attributes h, List.findSome?_eq_some_iff]
  constructor
  · rintro ⟨before, part, after, hsplit, hvalue, hnone⟩
    rw [List.reverse_eq_append_iff] at hsplit
    refine ⟨after.reverse, part, before.reverse, ?_, hvalue, ?_⟩
    · simpa using hsplit
    · exact fun other hmem => hnone other (List.mem_reverse.mp hmem)
  · rintro ⟨before, part, after, hsplit, hvalue, hnone⟩
    refine ⟨after.reverse, part, before.reverse, ?_, hvalue, ?_⟩
    · simp [hsplit]
    · exact fun other hmem => hnone other (List.mem_reverse.mp hmem)

/-- The name of an attribute is read in the parts. -/
theorem member_eq (hhidden : isHidden name = false) (hother : name ∉ memberNames) :
    c.member name =
      match c.attribute? name with
      | some v => .ok (.ofValue v)
      | none => .error (.noAttributeOfParts c.id name) := by
  simp only [memberNames, List.mem_cons, List.not_mem_nil, or_false, not_or] at hother
  obtain ⟨hid, hparts, htypeNames, hattributes, -, -⟩ := hother
  rw [member, if_neg hid, if_neg hparts, if_neg htypeNames, if_neg hattributes, hhidden]
  rfl

/-- Reading an attribute as a member and as an item: no part has it and nothing is found, or the
first and the last part that have it give the answers. -/
theorem readings (h : ∀ part ∈ c.parts.values, part.attributes.Distinct)
    (hhidden : isHidden name = false) (hother : name ∉ memberNames) :
    ((∀ part ∈ c.parts.values, part.attributes.find? name = none) ∧
      c.member name = .error (.noAttributeOfParts c.id name) ∧
      (Instance.complex c).item name = .error (.noField name) ∧ c.attributes.find? name = none) ∨
    ∃ v w, c.IsFirst name v ∧ c.IsLast name w ∧ c.member name = .ok (.ofValue v) ∧
      (Instance.complex c).item name = .ok (.value w) ∧ c.attributes.find? name = some w := by
  rw [member_eq hhidden hother, Instance.item]
  cases hfirst : c.attribute? name with
  | none =>
    have hnone := attribute?_eq_none_iff.mp hfirst
    have hlast : c.attributes.find? name = none := by
      rw [find?_attributes h, List.findSome?_eq_none_iff]
      exact fun part hpart => hnone part (List.mem_reverse.mp hpart)
    rw [hlast]
    exact .inl ⟨hnone, rfl, rfl, rfl⟩
  | some v =>
    have hv := attribute?_eq_some_iff.mp hfirst
    obtain ⟨w, hw⟩ : ∃ w, c.attributes.find? name = some w := by
      obtain ⟨before, part, after, hsplit, hvalue, -⟩ := hv
      rw [find?_attributes h]
      apply Option.isSome_iff_exists.mp
      rw [List.findSome?_isSome_iff]
      exact ⟨part, by simp [hsplit], by rw [hvalue]; rfl⟩
    rw [hw]
    exact .inr ⟨v, w, hv, (find?_attributes_eq_some_iff h).mp hw, rfl, rfl, rfl⟩

end ComplexEntity

namespace Basis

variable {b : Basis} {brought : Option Blueprint} {id : Int} {r : Record} {c : ComplexEntity}

theorem IsPart.distinct {types : List EntityType} {part : EntityType × Group} {field : Text × Entity}
    (h : b.IsPart id types part field) : field.2.attributes.Distinct := by
  obtain ⟨-, attributes, -, hfills⟩ := h
  obtain ⟨row, -, hleaves, -⟩ := hfills.attributes
  exact hleaves.distinct

/-- No part of the instance that a record composes has two attributes of one name. -/
theorem Composes.distinct (h : b.Composes brought id r c) :
    ∀ part ∈ c.parts.values, part.attributes.Distinct := by
  intro part hpart
  obtain ⟨parts, row, -, hrow, hleaves, -⟩ := h.parts
  obtain ⟨field, hfield, rfl⟩ := List.mem_map.mp hpart
  obtain ⟨before, after, hsplit, -⟩ := hleaves.last field hfield
  have hmem : field ∈ row := hsplit ▸ List.mem_append_right before List.mem_cons_self
  obtain ⟨i, hi, rfl⟩ := List.getElem_of_mem hmem
  exact (hrow.get (hrow.length_eq ▸ hi) hi).distinct

end Basis

namespace Table

/-- Requests of any kind are made of a table with any holders and factories, and then an
instance is asked for and answered that has a complex record.  Then for every name of an
attribute the member and the item of that name are both there or both missing.  The member has
the value of the first part with such an attribute and the item that of the last one, so they
are the same if these two are. -/
theorem readings_of_resolve {registry : Registry} {makers : Makers} {settings : Settings}
    {requests : List Request} {t : Table}
    (ht : (empty registry makers settings).session requests = t) {id : Int}
    {expected : Option Expected} {r : Record} (hr : t.basis.population.find? id = some r)
    (hcomplex : r.isComplex = true) {value : Instance} (h : (t.resolve id expected).1 = .ok value) :
    ∃ c, value = .complex c ∧ ∀ name, isHidden name = false → name ∉ ComplexEntity.memberNames →
      ((∀ part ∈ c.parts.values, part.attributes.find? name = none) ∧
        c.member name = .error (.noAttributeOfParts c.id name) ∧
        (Instance.complex c).item name = .error (.noField name) ∧ c.attributes.find? name = none) ∨
      ∃ v w, c.IsFirst name v ∧ c.IsLast name w ∧ c.member name = .ok (.ofValue v) ∧
        (Instance.complex c).item name = .ok (.value w) ∧ c.attributes.find? name = some w := by
  obtain ⟨brought, held, -, hheld, hmakes⟩ :=
    makes_of_resolve ht hr (fun _ _ => Basis.heldByDefault_of_isComplex hcomplex) h
  obtain ⟨c, rfl, hcomposes⟩ := Basis.composes_of_makes hcomplex hheld hmakes
  exact ⟨c, rfl, fun name => ComplexEntity.readings hcomposes.distinct⟩

theorem readings_of_resolve_sides :
    ∃ c, ((Sample.vaneTable "x" "x" (Sample.sides "WEST" "EAST")).resolve 1 none).1 =
        .ok (.complex c) ∧
      ∃ v w, c.IsFirst "x" v ∧ c.IsLast "x" w ∧ c.member "x" = .ok (.ofValue v) ∧
        (Instance.complex c).item "x" = .ok (.value w) := by
  obtain ⟨value, hvalue, hmember⟩ : ∃ value,
      ((Sample.vaneTable "x" "x" (Sample.sides "WEST" "EAST")).resolve 1 none).1 = .ok value ∧
        value.member "x" = .ok (.ofValue (.integer 1)) := ⟨_, rfl, rfl⟩
  have hr : (Sample.vaneTable "x" "x" (Sample.sides "WEST" "EAST")).basis.population.find? 1 =
      some (Sample.sides "WEST" "EAST") := rfl
  obtain ⟨c, rfl, hreadings⟩ := readings_of_resolve rfl hr rfl hvalue
  rcases hreadings "x" (by decide) (by decide) with
    ⟨-, hmissing, -⟩ | ⟨v, w, hfirst, hlast, hv, hw, -⟩
  · cases hmember.symm.trans hmissing
  · exact ⟨c, hvalue, v, w, hfirst, hlast, hv, hw⟩

/-- Two parts have an attribute of one name: the member has the value of the first and the item that
of the second. -/
theorem not_readings_of_namesakes :
    ∃ c, ((Sample.vaneTable "x" "x" (Sample.sides "WEST" "EAST")).resolve 1 none).1 =
        .ok (.complex c) ∧ c.member "x" = .ok (.ofValue (.integer 1)) ∧
      (Instance.complex c).item "x" = .ok (.value (.integer 2)) :=
  ⟨_, rfl, rfl, rfl⟩

end Table

end Part21
