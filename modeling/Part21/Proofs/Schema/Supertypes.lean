import Mathlib.Logic.Relation
import Part21.Proofs.Schema.Ancestry

set_option autoImplicit false

/-!
# Supertypes

An entity type specializes another one if the declarations of supertypes lead from it there, in
any number of steps.  Its ancestors are gone through with a stack and a bound on the steps.  The
bound is never met: a step takes one entity type off the stack, and puts its supertypes on it
only when it comes for the first time.  So the ancestors are the names of the entity types that
it specializes, no more and no less (`Registry.mem_ancestors`).
-/

namespace Part21

namespace Registry

variable {r : Registry}

/-- An entity type names another one as a supertype. -/
def Declares (r : Registry) (e above : EntityType) : Prop :=
  ∃ name ∈ e.supertypes, r.entity name = .ok above

/-- An entity type is another one or, in any number of steps, a subtype of it. -/
abbrev Specializes (r : Registry) : EntityType → EntityType → Prop :=
  Relation.ReflTransGen r.Declares

/-! ## Looking supertypes up -/

theorem supertype_eq_ok {owner above : EntityType} {name : Text} :
    r.supertype owner name = .ok above ↔ r.entity name = .ok above := by
  unfold supertype
  split
  · rfl
  · rename_i hmissing
    refine ⟨nofun, fun h => ?_⟩
    rw [contains, find?_of_entity h] at hmissing
    exact absurd rfl hmissing

theorem supertypes_cons_eq_ok {owner : EntityType} {name : Text} {rest : List Text}
    {above : List EntityType} (h : r.supertypes owner (name :: rest) = .ok above) :
    ∃ first others, r.entity name = .ok first ∧ r.supertypes owner rest = .ok others ∧
      above = first :: others := by
  unfold supertypes at h
  split at h
  · cases h
  · rename_i first hfirst
    split at h
    · cases h
    · rename_i others hothers
      cases h
      exact ⟨first, others, supertype_eq_ok.mp hfirst, hothers, rfl⟩

theorem mem_supertypes {owner s : EntityType} {names : List Text} {above : List EntityType}
    (h : r.supertypes owner names = .ok above) :
    s ∈ above ↔ ∃ name ∈ names, r.entity name = .ok s := by
  induction names generalizing above with
  | nil =>
    cases h
    simp
  | cons name rest ih =>
    obtain ⟨first, others, hfirst, hothers, rfl⟩ := supertypes_cons_eq_ok h
    simp only [List.mem_cons, ih hothers, exists_eq_or_imp, hfirst, Except.ok.injEq]
    rw [eq_comm]

/-- Supertypes can be looked up if each of them can. -/
theorem exists_supertypes_iff {owner : EntityType} {names : List Text} :
    (∃ above, r.supertypes owner names = .ok above) ↔
      ∀ name ∈ names, ∃ s, r.entity name = .ok s := by
  induction names with
  | nil => simp [supertypes]
  | cons name rest ih =>
    rw [List.forall_mem_cons, ← ih]
    constructor
    · rintro ⟨above, habove⟩
      obtain ⟨first, others, hfirst, hothers, -⟩ := supertypes_cons_eq_ok habove
      exact ⟨⟨first, hfirst⟩, others, hothers⟩
    · rintro ⟨⟨first, hfirst⟩, others, hothers⟩
      exact ⟨first :: others, supertypes_cons (supertype_eq_ok.mpr hfirst) hothers⟩

theorem length_supertypes {owner : EntityType} {names : List Text} {above : List EntityType}
    (h : r.supertypes owner names = .ok above) : above.length = names.length := by
  induction names generalizing above with
  | nil =>
    cases h
    rfl
  | cons name rest ih =>
    obtain ⟨first, others, _, hothers, rfl⟩ := supertypes_cons_eq_ok h
    rw [List.length_cons, List.length_cons, ih hothers]

theorem isRegistered_of_declares {e s : EntityType} (h : r.Declares e s) : r.IsRegistered s :=
  h.imp fun _ => And.right

theorem isRegistered_of_specializes {e f : EntityType} (he : r.IsRegistered e)
    (h : r.Specializes e f) : r.IsRegistered f := by
  induction h with
  | refl => exact he
  | tail _ hdeclares _ => exact isRegistered_of_declares hdeclares

/-! ## Rooted entity types -/

theorem Rooted.of_declares {e s : EntityType} (h : r.Rooted e) (hdeclares : r.Declares e s) :
    r.Rooted s := by
  cases h with
  | intro habove hrooted => exact hrooted s ((mem_supertypes habove).mpr hdeclares)

theorem Rooted.of_specializes {e f : EntityType} (h : r.Rooted e)
    (hspecializes : r.Specializes e f) : r.Rooted f := by
  induction hspecializes with
  | refl => exact h
  | tail _ hdeclares ih => exact ih.of_declares hdeclares

/-- No way up leads back. -/
theorem Rooted.acyclic {e : EntityType} (h : r.Rooted e) : ¬ Relation.TransGen r.Declares e e := by
  induction h with
  | @intro e above habove hrooted ih =>
    intro hcycle
    obtain ⟨s, hdeclares, hback⟩ := Relation.TransGen.head'_iff.mp hcycle
    exact ih s ((mem_supertypes habove).mpr hdeclares) (.tail' hback hdeclares)

/-! ## Ancestors -/

/-- Only what the entity types on the stack specialize is found. -/
theorem specializes_of_collectAncestors {steps : Nat} {stack : List EntityType}
    {seen names : List Text} (h : r.collectAncestors steps stack seen = .ok names) :
    ∀ name ∈ names, name ∈ seen ∨ ∃ e ∈ stack, ∃ f, r.Specializes e f ∧ f.key = name := by
  induction steps generalizing stack seen with
  | zero =>
    cases h
    exact fun name hmem => .inl hmem
  | succ steps ih =>
    cases stack with
    | nil =>
      cases h
      exact fun name hmem => .inl hmem
    | cons current stack =>
      unfold collectAncestors at h
      intro name hmem
      split at h
      · rcases ih h name hmem with hseen | ⟨e, he, hfound⟩
        · exact .inl hseen
        · exact .inr ⟨e, List.mem_cons_of_mem current he, hfound⟩
      · split at h
        · cases h
        · rename_i above habove
          rcases ih h name hmem with hseen | ⟨e, he, f, hspecializes, hkey⟩
          · rcases List.mem_append.mp hseen with hold | hnew
            · exact .inl hold
            · exact .inr ⟨current, List.mem_cons_self, current, .refl,
                (List.mem_singleton.mp hnew).symm⟩
          · rcases List.mem_append.mp he with habove' | hstack
            · have hdeclares : r.Declares current e :=
                (mem_supertypes habove).mp (List.mem_reverse.mp habove')
              exact .inr ⟨current, List.mem_cons_self, f, .head hdeclares hspecializes, hkey⟩
            · exact .inr ⟨e, List.mem_cons_of_mem current hstack, f, hspecializes, hkey⟩

/-- How many supertypes the types name that were not seen yet. -/
def unseenSupertypes (seen : List Text) : List (Text × TypeDef) → Nat
  | [] => 0
  | (key, t) :: rest =>
    (if key ∈ seen then 0 else t.supertypeCount) + unseenSupertypes seen rest

theorem unseenSupertypes_nil (types : List (Text × TypeDef)) :
    unseenSupertypes [] types =
      types.foldr (fun entry sum => entry.2.supertypeCount + sum) 0 := by
  induction types with
  | nil => rfl
  | cons entry rest ih => rw [unseenSupertypes, if_neg List.not_mem_nil, ih, List.foldr_cons]

/-- To see what is not there changes nothing. -/
theorem unseenSupertypes_of_not_mem {seen : List Text} {key : Text}
    {types : List (Text × TypeDef)} (h : key ∉ types.map Prod.fst) :
    unseenSupertypes (seen ++ [key]) types = unseenSupertypes seen types := by
  induction types with
  | nil => rfl
  | cons entry rest ih =>
    obtain ⟨other, t⟩ := entry
    rw [List.map_cons, List.mem_cons, not_or] at h
    have hiff : other ∈ seen ++ [key] ↔ other ∈ seen := by
      simp [Ne.symm h.1]
    rw [unseenSupertypes, unseenSupertypes, ih h.2]
    simp only [hiff]

/-- To see an entity type for the first time takes its supertypes off the count. -/
theorem unseenSupertypes_append {seen : List Text} {key : Text} {t : TypeDef}
    {types : List (Text × TypeDef)} (hdistinct : (types.map Prod.fst).Nodup)
    (hmem : (key, t) ∈ types) (hnew : key ∉ seen) :
    unseenSupertypes (seen ++ [key]) types + t.supertypeCount = unseenSupertypes seen types := by
  induction types with
  | nil => cases hmem
  | cons entry rest ih =>
    rw [List.map_cons, List.nodup_cons] at hdistinct
    rcases List.mem_cons.mp hmem with rfl | hrest
    · have hself : key ∈ seen ++ [key] := by simp
      rw [unseenSupertypes, unseenSupertypes, if_pos hself, if_neg hnew,
        unseenSupertypes_of_not_mem hdistinct.1]
      omega
    · obtain ⟨other, own⟩ := entry
      have hother : other ≠ key := by
        rintro rfl
        exact hdistinct.1 (List.mem_map.mpr ⟨_, hrest, rfl⟩)
      have hiff : other ∈ seen ++ [key] ↔ other ∈ seen := by
        simp [hother]
      rw [unseenSupertypes, unseenSupertypes, ← ih hdistinct.2 hrest]
      simp only [hiff]
      omega

/-- What is put on the stack for an entity type is paid for by its supertypes. -/
theorem unseenSupertypes_of_supertypes {seen : List Text} {current : EntityType}
    {above : List EntityType} (hcurrent : r.IsRegistered current) (hnew : current.key ∉ seen)
    (habove : r.supertypes current current.supertypes = .ok above) :
    unseenSupertypes (seen ++ [current.key]) r.types + above.length =
      unseenSupertypes seen r.types := by
  obtain ⟨name, hname⟩ := hcurrent
  have hmem := mem_types_of_find? (find?_of_entity hname)
  rw [← key_of_find? (find?_of_entity hname)] at hmem
  rw [length_supertypes habove]
  exact unseenSupertypes_append r.distinct hmem hnew

theorem isRegistered_of_stack {current : EntityType} {above stack : List EntityType}
    (habove : r.supertypes current current.supertypes = .ok above)
    (hstack : ∀ e ∈ stack, r.IsRegistered e) : ∀ e ∈ above.reverse ++ stack, r.IsRegistered e := by
  intro e he
  rcases List.mem_append.mp he with hnew | hold
  · exact isRegistered_of_declares ((mem_supertypes habove).mp (List.mem_reverse.mp hnew))
  · exact hstack e hold

/-- What was seen has all its supertypes among what was seen or is on the stack. -/
def Explored (r : Registry) (stack : List EntityType) (seen : List Text) : Prop :=
  ∀ e s, r.IsRegistered e → e.key ∈ seen → r.Declares e s → s.key ∈ seen ∨ s ∈ stack

/-- Everything that the entity types on the stack specialize is found: there are steps enough. -/
theorem mem_of_collectAncestors {steps : Nat} {stack : List EntityType} {seen names : List Text}
    (h : r.collectAncestors steps stack seen = .ok names)
    (hregistered : ∀ e ∈ stack, r.IsRegistered e)
    (hroom : stack.length + unseenSupertypes seen r.types ≤ steps)
    (hexplored : r.Explored stack seen) :
    (∀ name ∈ seen, name ∈ names) ∧ (∀ e ∈ stack, e.key ∈ names) ∧ r.Explored [] names := by
  induction steps generalizing stack seen with
  | zero =>
    obtain rfl : stack = [] := List.eq_nil_of_length_eq_zero (by omega)
    cases h
    exact ⟨fun _ hmem => hmem, nofun, hexplored⟩
  | succ steps ih =>
    cases stack with
    | nil =>
      cases h
      exact ⟨fun _ hmem => hmem, nofun, hexplored⟩
    | cons current stack =>
      obtain ⟨hcurrent, hstack⟩ := List.forall_mem_cons.mp hregistered
      rw [List.length_cons] at hroom
      unfold collectAncestors at h
      split at h
      · rename_i hseen
        rw [List.contains_iff_mem] at hseen
        obtain ⟨hkept, hfound, hclosed⟩ := ih h hstack (by omega) fun e s he hmem hdeclares => by
          rcases hexplored e s he hmem hdeclares with hold | hnext
          · exact .inl hold
          · rcases List.mem_cons.mp hnext with rfl | hrest
            · exact .inl hseen
            · exact .inr hrest
        exact ⟨hkept, List.forall_mem_cons.mpr ⟨hkept _ hseen, hfound⟩, hclosed⟩
      · rename_i hseen
        rw [List.contains_iff_mem] at hseen
        split at h
        · cases h
        · rename_i above habove
          have hcount := unseenSupertypes_of_supertypes hcurrent hseen habove
          obtain ⟨hkept, hfound, hclosed⟩ := ih h (isRegistered_of_stack habove hstack)
            (by rw [List.length_append, List.length_reverse]; omega)
            (fun e s he hmem hdeclares => by
              rcases List.mem_append.mp hmem with hold | hnew
              · rcases hexplored e s he hold hdeclares with hseen' | hnext
                · exact .inl (List.mem_append_left _ hseen')
                · rcases List.mem_cons.mp hnext with rfl | hrest
                  · exact .inl (List.mem_append_right _ (List.mem_singleton_self _))
                  · exact .inr (List.mem_append_right _ hrest)
              · obtain rfl := he.eq_of_key hcurrent (List.mem_singleton.mp hnew)
                exact .inr (List.mem_append_left _
                  (List.mem_reverse.mpr ((mem_supertypes habove).mpr hdeclares))))
          refine ⟨fun name hmem => hkept name (List.mem_append_left _ hmem), ?_, hclosed⟩
          refine List.forall_mem_cons.mpr ⟨hkept _ ?_, fun e he => hfound e ?_⟩
          · exact List.mem_append_right _ (List.mem_singleton_self _)
          · exact List.mem_append_right _ he

theorem specializes_of_ancestors {e : EntityType} {names : List Text}
    (h : r.ancestors e = .ok names) {name : Text} (hmem : name ∈ names) :
    ∃ f, r.Specializes e f ∧ f.key = name := by
  rcases specializes_of_collectAncestors h name hmem with hnone | ⟨own, hown, hfound⟩
  · cases hnone
  · exact List.mem_singleton.mp hown ▸ hfound

/-- The ancestors of a registered entity type are the names of what it specializes. -/
theorem mem_ancestors {e : EntityType} {names : List Text} (he : r.IsRegistered e)
    (h : r.ancestors e = .ok names) {name : Text} :
    name ∈ names ↔ ∃ f, r.Specializes e f ∧ f.key = name := by
  refine ⟨specializes_of_ancestors h, ?_⟩
  rintro ⟨f, hspecializes, rfl⟩
  obtain ⟨_, hfound, hclosed⟩ := mem_of_collectAncestors h
    (fun own hown => List.mem_singleton.mp hown ▸ he)
    (by
      rw [unseenSupertypes_nil, ancestorSteps, total, List.length_singleton]
      omega)
    (fun _ _ _ hmem => nomatch hmem)
  induction hspecializes with
  | refl => exact hfound e (List.mem_singleton_self e)
  | tail hbefore hdeclares ih =>
    exact (hclosed _ _ (isRegistered_of_specializes he hbefore) ih hdeclares).resolve_right
      List.not_mem_nil

end Registry

end Part21
