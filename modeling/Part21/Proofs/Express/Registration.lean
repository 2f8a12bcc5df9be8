import Part21.Express.Schema
import Part21.Proofs.Schema.Checks

set_option autoImplicit false

/-!
# Registering declarations

A type that is registered comes behind the types that are there already, under its name in capitals.
Declarations can be registered one after another if their names are new and all different,
`Registry.registerAll_eq_ok`.
-/

namespace Part21

namespace Registry

theorem contains_eq_false {r : Registry} {name : Text} (h : name.upper ∉ r.typeNames) :
    r.contains name = false := by
  rw [contains, find?, Option.isSome_map, Bool.eq_false_iff, ne_eq, List.find?_isSome]
  rintro ⟨entry, hentry, hkey⟩
  rw [← of_decide_eq_true hkey] at h
  exact h (List.mem_map_of_mem hentry)

theorem types_of_register {r more : Registry} {t : TypeDef} (h : r.register t false = .ok more) :
    more.types = r.types ++ [(t.key, t)] := by
  unfold register at h
  split at h
  · cases h
  · split at h
    · cases h
    · split at h
      · cases h
      · cases h
        rfl

/-- A type with a new name can be registered, if it is no bare reference. -/
theorem register_eq_ok {r : Registry} {t : TypeDef} (hreference : ∀ name, t ≠ .ref name)
    (hfresh : t.key ∉ r.typeNames) : ∃ more, r.register t false = .ok more := by
  have hfree : ¬ r.contains t.name = true := by
    rw [contains_eq_false hfresh]
    exact Bool.false_ne_true
  unfold register
  split
  · rename_i name
    exact absurd rfl (hreference name)
  · rw [dif_neg hfree]
    exact ⟨_, rfl⟩

/-- What is registered in order comes in that order behind what was there. -/
theorem types_of_registerAll {r more : Registry} {declared : List TypeDef}
    (h : r.registerAll declared = .ok more) :
    more.types = r.types ++ declared.map fun t => (t.key, t) := by
  induction declared generalizing r with
  | nil =>
    cases h
    exact (List.append_nil _).symm
  | cons t others ih =>
    unfold registerAll at h
    split at h
    · cases h
    · rename_i next hnext
      rw [ih h, types_of_register hnext, List.append_assoc]
      rfl

/-- Declarations with names of their own can be registered one after another. -/
theorem registerAll_eq_ok {declared : List TypeDef} {r : Registry}
    (hreference : ∀ t ∈ declared, ∀ name, t ≠ .ref name)
    (hfresh : ∀ t ∈ declared, t.key ∉ r.typeNames) (hdistinct : (declared.map TypeDef.key).Nodup) :
    ∃ more, r.registerAll declared = .ok more := by
  induction declared generalizing r with
  | nil => exact ⟨r, rfl⟩
  | cons t others ih =>
    obtain ⟨hreference, hreferences⟩ := List.forall_mem_cons.mp hreference
    obtain ⟨hfresh, hothers⟩ := List.forall_mem_cons.mp hfresh
    rw [List.map_cons, List.nodup_cons] at hdistinct
    obtain ⟨next, hregister⟩ := register_eq_ok hreference hfresh
    have hnext : ∀ u ∈ others, u.key ∉ next.typeNames := by
      intro u hu hmem
      rw [typeNames, types_of_register hregister, List.map_append, List.mem_append] at hmem
      rcases hmem with hold | hnew
      · exact hothers u hu hold
      · exact hdistinct.1 (List.mem_map.mpr ⟨u, hu, List.mem_singleton.mp hnew⟩)
    obtain ⟨more, hmore⟩ := ih hreferences hnext hdistinct.2
    refine ⟨more, ?_⟩
    rw [registerAll, hregister]
    exact hmore

theorem MentionsNames.registerAll {r more : Registry} {declared : List TypeDef}
    (hr : r.MentionsNames) (hdeclared : ∀ t ∈ declared, t.mentionsNames = true)
    (h : r.registerAll declared = .ok more) : more.MentionsNames := by
  intro entry hentry
  rw [types_of_registerAll h] at hentry
  rcases List.mem_append.mp hentry with hold | hnew
  · exact hr entry hold
  · obtain ⟨t, ht, rfl⟩ := List.mem_map.mp hnew
    exact hdeclared t ht

end Registry

end Part21
