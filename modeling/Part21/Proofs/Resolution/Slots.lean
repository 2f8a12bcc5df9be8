import Part21.Proofs.Resolution.References

set_option autoImplicit false

/-!
# Slots

A held record is made of slots: each attribute of its entity types with what came of the
parameter at its place.  The attributes are those of the type (`Basis.attributesOf_hold`), or
those that the type of a part declares itself (`Basis.ownAttributes_hold`), and what holds of
every parameter that is held holds of every slot (`Basis.forall_slots_hold`).

A derived attribute holds nothing, so the references in the slots are those that are followed
as links, and both are those that the text of the record names (`Basis.references_hold`).
-/

namespace Part21

namespace HeldRecord

/-- The slots of a record, part after part. -/
def slots : HeldRecord → List (Attribute × Held)
  | simple _ slots => slots
  | complex parts => parts.flatMap Prod.snd

/-- The references that are held for a record, slot by slot and in the order of the text. -/
def references (held : HeldRecord) : List Int := Held.allReferences (held.slots.map Prod.snd)

theorem links_eq (held : HeldRecord) : held.links = Held.slotLinks held.slots := by
  cases held with
  | simple e slots => rfl
  | complex parts => exact List.flatMap_assoc.symm

end HeldRecord

namespace Held

variable {r : Registry} {s : Settings}

/-! ## Where slots come from -/

theorem ofSlots_cons_eq_ok {a : Attribute} {attributes : List Attribute} {p : Parameter}
    {parameters : List Parameter} {slots : List (Attribute × Held)}
    (h : ofSlots r s (a :: attributes) (p :: parameters) = .ok slots) :
    ∃ held rest, ofSlot r s a p = .ok held ∧ ofSlots r s attributes parameters = .ok rest ∧
      slots = (a, held) :: rest := by
  rw [ofSlots] at h
  cases hheld : ofSlot r s a p with
  | error thrown => rw [hheld] at h; cases h
  | ok held =>
    rw [hheld] at h
    cases hrest : ofSlots r s attributes parameters with
    | error thrown => rw [hrest] at h; cases h
    | ok rest =>
      rw [hrest] at h
      cases h
      exact ⟨held, rest, rfl, rfl, rfl⟩

theorem ofSlots_nil_left (parameters : List Parameter) : ofSlots r s [] parameters = .ok [] := by
  cases parameters <;> rfl

theorem ofSlots_nil_right (attributes : List Attribute) : ofSlots r s attributes [] = .ok [] := by
  cases attributes <;> rfl

/-- There is a slot for each attribute. -/
theorem attributes_ofSlots {attributes : List Attribute} {parameters : List Parameter}
    (hlength : parameters.length = attributes.length) {slots : List (Attribute × Held)}
    (h : ofSlots r s attributes parameters = .ok slots) : slots.map Prod.fst = attributes := by
  induction attributes generalizing parameters slots with
  | nil =>
    rw [ofSlots_nil_left] at h
    cases h
    rfl
  | cons a attributes ih =>
    cases parameters with
    | nil => cases hlength
    | cons p parameters =>
      obtain ⟨held, rest, _, hrest, rfl⟩ := ofSlots_cons_eq_ok h
      rw [List.map_cons, ih (Nat.succ.inj hlength) hrest]

theorem attributes_ofGroup {typeName : Text} {attributes : List Attribute}
    {parameters : List Parameter} {slots : List (Attribute × Held)}
    (h : ofGroup r s typeName attributes parameters = .ok slots) :
    slots.map Prod.fst = attributes := by
  unfold ofGroup at h
  split at h
  · rename_i hlength
    exact attributes_ofSlots hlength h
  · cases h

variable {P : Attribute × Held → Prop}

theorem forall_ofSlots (hslot : ∀ {a p held}, ofSlot r s a p = .ok held → P (a, held))
    {attributes : List Attribute} {parameters : List Parameter} {slots : List (Attribute × Held)}
    (h : ofSlots r s attributes parameters = .ok slots) : ∀ slot ∈ slots, P slot := by
  induction attributes generalizing parameters slots with
  | nil =>
    rw [ofSlots_nil_left] at h
    cases h
    nofun
  | cons a attributes ih =>
    cases parameters with
    | nil =>
      rw [ofSlots_nil_right] at h
      cases h
      nofun
    | cons p parameters =>
      obtain ⟨held, rest, hheld, hrest, rfl⟩ := ofSlots_cons_eq_ok h
      exact List.forall_mem_cons.mpr ⟨hslot hheld, ih hrest⟩

theorem forall_ofGroup (hslot : ∀ {a p held}, ofSlot r s a p = .ok held → P (a, held))
    {typeName : Text} {attributes : List Attribute} {parameters : List Parameter}
    {slots : List (Attribute × Held)}
    (h : ofGroup r s typeName attributes parameters = .ok slots) : ∀ slot ∈ slots, P slot := by
  unfold ofGroup at h
  split at h
  · exact forall_ofSlots hslot h
  · cases h

/-! ## What slots refer to -/

/-- A derived attribute holds nothing. -/
theorem eq_nothing_of_derived {a : Attribute} {p : Parameter} {held : Held}
    (h : ofSlot r s a p = .ok held) (hderived : a.derived = true) : held = .value .nothing := by
  unfold ofSlot at h
  rw [if_pos hderived] at h
  split at h
  · cases h
    rfl
  · rw [if_pos hderived] at h
    cases h

/-- Where derived attributes hold nothing, all references that are held are followed. -/
theorem allReferences_slots {slots : List (Attribute × Held)}
    (h : ∀ slot ∈ slots, slot.1.derived = true → slot.2 = .value .nothing) :
    allReferences (slots.map Prod.snd) = (slotLinks slots).map Link.target := by
  induction slots with
  | nil => rfl
  | cons slot rest ih =>
    obtain ⟨hfirst, hrest⟩ := List.forall_mem_cons.mp h
    rw [slotLinks_cons, List.map_append, ← ih hrest, List.map_cons, allReferences, slotLinks,
      List.flatMap_singleton]
    split
    · rename_i hderived
      rw [hfirst hderived]
      rfl
    · rw [targets_links]

end Held

namespace Site

variable {site : Site} {P : Attribute × Held → Prop}

theorem attributesOf_hold {e : EntityType} {parameters : List Parameter}
    {slots : List (Attribute × Held)} (h : site.hold e parameters = .ok slots) :
    site.registry.attributesOf e = .ok (slots.map Prod.fst) := by
  unfold hold at h
  split at h
  · cases h
  · rename_i attributes hattributes
    rw [hattributes, Held.attributes_ofGroup h]

theorem ownAttributes_holdPart {e : EntityType} {others : List EntityType}
    {parameters : List Parameter} {slots : List (Attribute × Held)}
    (h : site.holdPart e others parameters = .ok slots) :
    site.registry.ownAttributes e others = .ok (slots.map Prod.fst) := by
  unfold holdPart at h
  split at h
  · cases h
  · rename_i attributes hattributes
    rw [hattributes, Held.attributes_ofGroup h]

theorem holdParts_cons_eq_ok {all : List EntityType} {part : EntityType × Group}
    {rest : List (EntityType × Group)} {held : List (EntityType × List (Attribute × Held))}
    (h : site.holdParts all (part :: rest) = .ok held) :
    ∃ slots others,
      site.holdPart part.1 (all.filter fun other => other.key ≠ part.1.key) part.2.parameters =
        .ok slots ∧
      site.holdParts all rest = .ok others ∧ held = (part.1, slots) :: others := by
  unfold holdParts at h
  split at h
  · cases h
  · rename_i slots hslots
    cases hothers : site.holdParts all rest with
    | error thrown => rw [hothers] at h; cases h
    | ok others =>
      rw [hothers] at h
      cases h
      exact ⟨slots, others, hslots, rfl, rfl⟩

theorem ownAttributes_holdParts {all : List EntityType} {parts : List (EntityType × Group)}
    {held : List (EntityType × List (Attribute × Held))} (h : site.holdParts all parts = .ok held) :
    ∀ part ∈ held, site.registry.ownAttributes part.1
      (all.filter fun other => other.key ≠ part.1.key) = .ok (part.2.map Prod.fst) := by
  induction parts generalizing held with
  | nil => cases h; nofun
  | cons part rest ih =>
    obtain ⟨slots, others, hslots, hothers, rfl⟩ := holdParts_cons_eq_ok h
    exact List.forall_mem_cons.mpr ⟨ownAttributes_holdPart hslots, ih hothers⟩

theorem types_holdParts {all : List EntityType} {parts : List (EntityType × Group)}
    {held : List (EntityType × List (Attribute × Held))} (h : site.holdParts all parts = .ok held) :
    held.map Prod.fst = parts.map Prod.fst := by
  induction parts generalizing held with
  | nil => cases h; rfl
  | cons part rest ih =>
    obtain ⟨slots, others, _, hothers, rfl⟩ := holdParts_cons_eq_ok h
    rw [List.map_cons, List.map_cons, ih hothers]

theorem forall_hold
    (hslot : ∀ {a p held}, Held.ofSlot site.registry site.settings a p = .ok held → P (a, held))
    {e : EntityType} {parameters : List Parameter} {slots : List (Attribute × Held)}
    (h : site.hold e parameters = .ok slots) : ∀ slot ∈ slots, P slot := by
  unfold hold at h
  split at h
  · cases h
  · exact Held.forall_ofGroup hslot h

theorem forall_holdParts
    (hslot : ∀ {a p held}, Held.ofSlot site.registry site.settings a p = .ok held → P (a, held))
    {all : List EntityType} {parts : List (EntityType × Group)}
    {held : List (EntityType × List (Attribute × Held))} (h : site.holdParts all parts = .ok held) :
    ∀ part ∈ held, ∀ slot ∈ part.2, P slot := by
  induction parts generalizing held with
  | nil => cases h; nofun
  | cons part rest ih =>
    obtain ⟨slots, others, hslots, hothers, rfl⟩ := holdParts_cons_eq_ok h
    refine List.forall_mem_cons.mpr ⟨?_, ih hothers⟩
    unfold holdPart at hslots
    split at hslots
    · cases hslots
    · exact Held.forall_ofGroup hslot hslots

end Site

namespace Basis

variable {b : Basis} {brought : Option Blueprint} {id : Int} {r : Record}

/-! ## Held records -/

/-- A record that is held as one of a single type is simple, and its keyword means that type. -/
theorem hold_simple_eq_ok {e : EntityType} {slots : List (Attribute × Held)}
    (h : b.hold brought id r = .ok (.simple e slots)) :
    ∃ group own, r.body = .simple group ∧ b.blueprint brought group.keyword = .ok own ∧
      e = own.definition ∧ (b.outset id).hold e group.parameters = .ok slots := by
  unfold hold at h
  split at h
  · rename_i group hbody
    split at h
    · cases h
    · rename_i own hown
      split at h
      · cases h
      · rename_i slots hslots
        cases h
        exact ⟨group, own, hbody, hown, rfl, hslots⟩
  · split at h
    · cases h
    · split at h <;> cases h

/-- A record that is held part by part is complex, and its keywords mean the types of the
parts. -/
theorem hold_complex_eq_ok {held : List (EntityType × List (Attribute × Held))}
    (h : b.hold brought id r = .ok (.complex held)) :
    ∃ first others loose parts, r.body = .complex first others loose ∧
      b.partTypes brought (first :: others) = .ok parts ∧
      (b.outset id).holdParts (parts.map Prod.fst) parts = .ok held := by
  unfold hold at h
  split at h
  · split at h
    · cases h
    · split at h <;> cases h
  · rename_i first others loose hbody
    split at h
    · cases h
    · rename_i parts hparts
      split at h
      · cases h
      · rename_i own hheld
        cases h
        exact ⟨first, others, loose, parts, hbody, hparts, hheld⟩

theorem attributesOf_hold {e : EntityType} {slots : List (Attribute × Held)}
    (h : b.hold brought id r = .ok (.simple e slots)) :
    b.registry.attributesOf e = .ok (slots.map Prod.fst) := by
  obtain ⟨group, own, _, _, _, hslots⟩ := hold_simple_eq_ok h
  exact Site.attributesOf_hold hslots

theorem ownAttributes_hold {parts : List (EntityType × List (Attribute × Held))}
    (h : b.hold brought id r = .ok (.complex parts)) :
    ∀ part ∈ parts, b.registry.ownAttributes part.1
      ((parts.map Prod.fst).filter fun other => other.key ≠ part.1.key) =
        .ok (part.2.map Prod.fst) := by
  obtain ⟨first, others, loose, own, _, _, hheld⟩ := hold_complex_eq_ok h
  rw [Site.types_holdParts hheld]
  exact Site.ownAttributes_holdParts hheld

/-- What holds of every parameter that is held holds of every slot. -/
theorem forall_slots_hold {P : Attribute × Held → Prop}
    (hslot : ∀ {a p held}, Held.ofSlot b.registry b.settings a p = .ok held → P (a, held))
    {held : HeldRecord} (h : b.hold brought id r = .ok held) : ∀ slot ∈ held.slots, P slot := by
  cases held with
  | simple e slots =>
    obtain ⟨group, own, _, _, _, hslots⟩ := hold_simple_eq_ok h
    exact @Site.forall_hold (b.outset id) _ hslot _ _ _ hslots
  | complex parts =>
    obtain ⟨first, others, loose, own, _, _, hheld⟩ := hold_complex_eq_ok h
    intro slot hmem
    obtain ⟨part, hpart, hslotMem⟩ := List.mem_flatMap.mp hmem
    exact @Site.forall_holdParts (b.outset id) _ hslot _ _ _ hheld part hpart slot hslotMem

/-- What is held for a record refers to what its text refers to, in the same order. -/
theorem references_hold {held : HeldRecord} (h : b.hold brought id r = .ok held) :
    held.references = r.references := by
  have hderived := forall_slots_hold
    (P := fun slot => slot.1.derived = true → slot.2 = .value .nothing)
    Held.eq_nothing_of_derived h
  rw [HeldRecord.references, Held.allReferences_slots hderived, ← HeldRecord.links_eq,
    targets_hold h]

end Basis

end Part21
