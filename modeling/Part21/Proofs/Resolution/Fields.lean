import Mathlib.Data.List.Nodup
import Part21.Proofs.Resolution.Following

set_option autoImplicit false

/-!
# Fields

No name comes twice in fields that are assigned one after another, and what stands under a name
is what was assigned to it last.  So the value of an attribute comes from the last slot of its
name (`Held.fieldsOnto_cases`).

Fields that are made of slots on their own and merged into others are the same as if the slots
had been added to these at once (`Held.merge_fieldsOnto`).
-/

namespace Part21

/-- No name comes twice. -/
abbrev Fields.Distinct {α : Type} (fields : Fields α) : Prop := (fields.map Prod.fst).Nodup

namespace Fields

variable {α : Type} {fields : Fields α} {name : Text} {value : α}

/-- A name keeps its place, and a new one comes last. -/
theorem names_assign (fields : Fields α) (name : Text) (value : α) :
    (fields.assign name value).map Prod.fst =
      if name ∈ fields.map Prod.fst then fields.map Prod.fst
      else fields.map Prod.fst ++ [name] := by
  induction fields with
  | nil => rfl
  | cons field rest ih =>
    obtain ⟨other, old⟩ := field
    by_cases hsame : other = name
    · simp [assign, hsame]
    · rw [assign, if_neg hsame, List.map_cons, ih]
      simp only [List.map_cons, List.mem_cons, Ne.symm hsame, false_or]
      split <;> rfl

theorem distinct_nil : Distinct ([] : Fields α) := List.nodup_nil

theorem Distinct.assign (h : fields.Distinct) (name : Text) (value : α) :
    (fields.assign name value).Distinct := by
  unfold Distinct
  rw [names_assign]
  split
  · exact h
  · rename_i hnew
    exact List.nodup_append.mpr
      ⟨h, List.nodup_singleton name, fun other hother own hown hsame =>
        hnew (List.mem_singleton.mp hown ▸ hsame ▸ hother)⟩

/-- What stands under the names afterwards is the new value, and the old ones under the other
names. -/
theorem mem_assign (h : fields.Distinct) {field : Text × α} :
    field ∈ fields.assign name value ↔
      field = (name, value) ∨ (field ∈ fields ∧ field.1 ≠ name) := by
  induction fields with
  | nil => simp [Fields.assign]
  | cons first rest ih =>
    obtain ⟨other, old⟩ := first
    obtain ⟨hfirst, hrest⟩ := List.nodup_cons.mp h
    by_cases hsame : other = name
    · subst hsame
      rw [Fields.assign, if_pos rfl, List.mem_cons, List.mem_cons]
      have hapart : ∀ {own : Text × α}, own ∈ rest → own.1 ≠ other := by
        intro own hmem hown
        exact hfirst (List.mem_map.mpr ⟨own, hmem, hown⟩)
      constructor
      · rintro (hnew | hold)
        · exact .inl hnew
        · exact .inr ⟨.inr hold, hapart hold⟩
      · rintro (hnew | ⟨hsame | hold, hother⟩)
        · exact .inl hnew
        · exact absurd (congrArg Prod.fst hsame) hother
        · exact .inr hold
    · rw [Fields.assign, if_neg hsame, List.mem_cons, List.mem_cons, ih hrest]
      constructor
      · rintro (hfield | hnew | ⟨hold, hother⟩)
        · subst hfield
          exact .inr ⟨.inl rfl, hsame⟩
        · exact .inl hnew
        · exact .inr ⟨.inr hold, hother⟩
      · rintro (hnew | ⟨hfield | hold, hother⟩)
        · exact .inr (.inl hnew)
        · exact .inl hfield
        · exact .inr (.inr ⟨hold, hother⟩)

/-! ## Merging -/

/-- A new name comes last. -/
theorem assign_of_not_mem (hnew : name ∉ fields.map Prod.fst) :
    fields.assign name value = fields ++ [(name, value)] := by
  induction fields with
  | nil => rfl
  | cons field rest ih =>
    obtain ⟨other, old⟩ := field
    rw [List.map_cons, List.mem_cons, not_or] at hnew
    rw [assign, if_neg (Ne.symm hnew.1), ih hnew.2]
    rfl

/-- Of two values for one name the second stays. -/
theorem assign_assign_self (fields : Fields α) (name : Text) (old value : α) :
    (fields.assign name old).assign name value = fields.assign name value := by
  induction fields with
  | nil => simp [assign]
  | cons field rest ih =>
    obtain ⟨other, own⟩ := field
    by_cases hsame : other = name
    · simp [assign, hsame]
    · simp [assign, hsame, ih]

/-- A name that has a place already may be given its value sooner or later. -/
theorem assign_comm (hmem : name ∈ fields.map Prod.fst) {other : Text} (hother : other ≠ name)
    (own : α) :
    (fields.assign other own).assign name value = (fields.assign name value).assign other own := by
  induction fields with
  | nil => cases hmem
  | cons field rest ih =>
    obtain ⟨first, old⟩ := field
    by_cases hname : first = name
    · subst hname
      simp [assign, Ne.symm hother]
    · by_cases hfirst : first = other
      · subst hfirst
        simp [assign, hname]
      · have hrest : name ∈ rest.map Prod.fst :=
          (List.mem_cons.mp hmem).resolve_left (Ne.symm hname)
        simp [assign, hname, hfirst, ih hrest]

theorem merge_cons (fields : Fields α) (field : Text × α) (more : Fields α) :
    fields.merge (field :: more) = (fields.assign field.1 field.2).merge more := rfl

theorem merge_assign_of_not_mem {more : Fields α} (hmem : name ∈ fields.map Prod.fst)
    (hnew : name ∉ more.map Prod.fst) :
    (fields.assign name value).merge more = (fields.merge more).assign name value := by
  induction more generalizing fields with
  | nil => rfl
  | cons field rest ih =>
    rw [List.map_cons, List.mem_cons, not_or] at hnew
    have hkept : name ∈ (fields.assign field.1 field.2).map Prod.fst := by
      rw [names_assign]
      split
      · exact hmem
      · exact List.mem_append_left _ hmem
    rw [merge_cons, merge_cons, ← assign_comm hmem (Ne.symm hnew.1), ih hkept hnew.2]

/-- To give a name a value before merging is to give it that value behind the merging. -/
theorem merge_assign {more : Fields α} (hmore : more.Distinct) (fields : Fields α) (name : Text)
    (value : α) :
    fields.merge (more.assign name value) = (fields.merge more).assign name value := by
  induction more generalizing fields with
  | nil => rfl
  | cons field rest ih =>
    obtain ⟨other, old⟩ := field
    obtain ⟨hfirst, hrest⟩ := List.nodup_cons.mp hmore
    by_cases hsame : other = name
    · subst hsame
      have hmem : other ∈ (fields.assign other old).map Prod.fst := by
        rw [names_assign]
        split
        · assumption
        · exact List.mem_append_right _ (List.mem_singleton_self _)
      rw [assign, if_pos rfl, merge_cons, merge_cons, ← merge_assign_of_not_mem hmem hfirst,
        assign_assign_self]
    · rw [assign, if_neg hsame, merge_cons, merge_cons, ih hrest]

end Fields

/-- An attribute is the last one of a name among those that are not derived. -/
def Attribute.IsLast (a : Attribute) (name : Text) (attributes : List Attribute) : Prop :=
  ∃ before after, attributes = before ++ a :: after ∧ a.derived = false ∧ a.name = name ∧
    ∀ other ∈ after, other.derived = false → other.name ≠ name

namespace Held

/-- A field comes from the last slot of its name, or was there before and has no slot. -/
theorem fieldsOnto_cases {slots : List (Attribute × Held)} {fields : Fields Value}
    (hdistinct : fields.Distinct) {field : Text × Value} (h : field ∈ fieldsOnto fields slots) :
    (∃ slot ∈ slots, slot.1.IsLast field.1 (slots.map Prod.fst) ∧ field.2 = slot.2.toValue) ∨
      (field ∈ fields ∧ ∀ slot ∈ slots, slot.1.derived = false → slot.1.name ≠ field.1) := by
  induction slots generalizing fields with
  | nil => exact .inr ⟨h, nofun⟩
  | cons first rest ih =>
    obtain ⟨a, held⟩ := first
    have hlater : (∃ slot ∈ rest, slot.1.IsLast field.1 (rest.map Prod.fst) ∧
        field.2 = slot.2.toValue) →
        ∃ slot ∈ (a, held) :: rest, slot.1.IsLast field.1 (((a, held) :: rest).map Prod.fst) ∧
          field.2 = slot.2.toValue := by
      rintro ⟨slot, hmem, ⟨before, after, hsplit, hlast⟩, hvalue⟩
      exact ⟨slot, List.mem_cons_of_mem _ hmem,
        ⟨a :: before, after, by rw [List.map_cons, hsplit]; rfl, hlast⟩, hvalue⟩
    unfold fieldsOnto at h
    split at h
    · rename_i hderived
      refine (ih hdistinct h).imp hlater (And.imp_right fun hnone => ?_)
      refine List.forall_mem_cons.mpr ⟨fun hopen => ?_, hnone⟩
      rw [hderived] at hopen
      cases hopen
    · rename_i hopen
      rcases ih (hdistinct.assign a.name held.toValue) h with hfound | ⟨hmem, hnone⟩
      · exact .inl (hlater hfound)
      · rcases (Fields.mem_assign hdistinct).mp hmem with rfl | ⟨hold, hother⟩
        · refine .inl ⟨(a, held), List.mem_cons_self,
            ⟨[], rest.map Prod.fst, rfl, ?_, rfl, ?_⟩, rfl⟩
          · exact Bool.eq_false_iff.mpr hopen
          · exact List.forall_mem_map.mpr hnone
        · exact .inr ⟨hold, List.forall_mem_cons.mpr ⟨fun _ => Ne.symm hother, hnone⟩⟩

theorem fieldsOnto_append (fields : Fields Value) (first second : List (Attribute × Held)) :
    fieldsOnto fields (first ++ second) = fieldsOnto (fieldsOnto fields first) second := by
  induction first generalizing fields with
  | nil => rfl
  | cons slot rest ih =>
    rw [List.cons_append, fieldsOnto, fieldsOnto]
    split
    · exact ih fields
    · exact ih _

theorem merge_fieldsOnto {added : Fields Value} (hadded : added.Distinct) (fields : Fields Value)
    (slots : List (Attribute × Held)) :
    fields.merge (fieldsOnto added slots) = fieldsOnto (fields.merge added) slots := by
  induction slots generalizing added with
  | nil => rfl
  | cons slot rest ih =>
    rw [fieldsOnto, fieldsOnto]
    split
    · exact ih hadded
    · rw [ih (hadded.assign slot.1.name slot.2.toValue), Fields.merge_assign hadded]

end Held

end Part21
