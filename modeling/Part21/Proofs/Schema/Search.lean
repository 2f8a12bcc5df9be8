import Mathlib.Algebra.Order.BigOperators.Group.List
import Mathlib.Algebra.Order.Ring.Nat
import Part21.Proofs.Schema.Circles

set_option autoImplicit false

/-!
# Searches through selects

The options of a select are searched with a stack of the selects still to be looked at and the names
of those that were.  Apart from the first one, each select on the stack is a registered type or
written out in one, so the options not seen yet pay for what is put on the stack, and the search
always empties it (`Registry.Room`).  A greater bound changes nothing
(`Registry.collectEntities_eq_selectEntities`).

So what a keyword selects is all that is offered under it, other than through selects of the same
name as the first one (`Registry.selectOption_eq_some_iff`).  And the entity types of a select are
known unless an option in reach is unknown, stands for a name that is not registered, or leads on
without end (`Registry.withholds_of_selectEntities`).
-/

namespace Part21

namespace TypeDef

/-- The select that a type is, looked at through defined types that are written out. -/
def select? : TypeDef → Option SelectType
  | select name options => some ⟨name, options⟩
  | defined _ underlying => select? underlying
  | _ => none

theorem optionCount_of_select? {t : TypeDef} {s : SelectType} (h : t.select? = some s) :
    t.optionCount = s.options.length := by
  match t with
  | .select _ _ =>
    cases h
    rfl
  | .defined _ underlying => exact optionCount_of_select? (t := underlying) h

/-- How many options a type offers, if the select that it is was not seen yet. -/
def unseenOptions (seen : List Text) (t : TypeDef) : Nat :=
  if t.select?.any fun s => !seen.contains s.name.upper then t.optionCount else 0

theorem unseenOptions_le (seen : List Text) (t : TypeDef) : t.unseenOptions seen ≤ t.optionCount := by
  unfold unseenOptions
  split
  · exact Nat.le_refl _
  · exact Nat.zero_le _

theorem unseenOptions_append_le (seen : List Text) (key : Text) (t : TypeDef) :
    t.unseenOptions (seen ++ [key]) ≤ t.unseenOptions seen := by
  unfold unseenOptions
  cases t.select? with
  | none => exact Nat.le_refl _
  | some s =>
    by_cases hseen : s.name.upper ∈ seen
    · simp [hseen]
    · have hnew : seen.contains s.name.upper = false := by simpa using hseen
      simp only [Option.any_some, hnew, Bool.not_false, if_true]
      split
      · exact Nat.le_refl _
      · exact Nat.zero_le _

/-- To see a select takes its options off the count. -/
theorem unseenOptions_append {seen : List Text} {t : TypeDef} {s : SelectType}
    (hselect : t.select? = some s) (hnew : s.name.upper ∉ seen) :
    t.unseenOptions (seen ++ [s.name.upper]) + s.options.length ≤ t.unseenOptions seen := by
  simp [unseenOptions, hselect, hnew, optionCount_of_select? hselect]

end TypeDef

namespace Registry

variable {r : Registry} {t : TypeDef} {s : SelectType} {stack selects : List SelectType}
  {seen found options : List Text} {steps : Nat}

/-! ## Sums over all types -/

theorem total_eq_sum (measure : TypeDef → Nat) :
    r.total measure = (r.types.map fun entry => measure entry.2).sum := by
  rw [total, List.sum, List.foldr_map]

theorem total_mono {measure other : TypeDef → Nat} (h : ∀ t, measure t ≤ other t) :
    r.total measure ≤ r.total other := by
  rw [total_eq_sum, total_eq_sum]
  exact List.sum_le_sum fun entry _ => h entry.2

theorem total_add_le {measure other : TypeDef → Nat} (h : ∀ t, measure t ≤ other t) {name : Text}
    {n : Nat} (hfind : r.find? name = some t) (ht : measure t + n ≤ other t) :
    r.total measure + n ≤ r.total other := by
  obtain ⟨before, after, hsplit⟩ := List.append_of_mem (mem_types_of_find? hfind)
  have hsum : ∀ types : List (Text × TypeDef), (types.map fun entry => measure entry.2).sum ≤
      (types.map fun entry => other entry.2).sum :=
    fun types => List.sum_le_sum fun entry _ => h entry.2
  have hbefore := hsum before
  have hafter := hsum after
  rw [total_eq_sum, total_eq_sum, hsplit]
  simp only [List.map_append, List.map_cons, List.sum_append, List.sum_cons]
  omega

/-! ## Room for a search -/

/-- The select is a registered type, or written out in one. -/
def Writes (r : Registry) (s : SelectType) : Prop :=
  ∃ name t, r.find? name = some t ∧ t.select? = some s

theorem writes_of_standsFor {name own : Text} (hfind : r.find? name = some t)
    (h : r.StandsFor t (.select own options)) : r.Writes ⟨own, options⟩ := by
  have hwritten : t.select? = some ⟨own, options⟩ ∨ r.Writes ⟨own, options⟩ := by
    clear hfind
    induction h using Relation.ReflTransGen.head_induction_on with
    | refl => exact .inl rfl
    | head hfirst _ ih =>
      rcases ih with hselect | hwrites
      · cases hfirst with
        | ref hfind => exact .inr ⟨_, _, hfind, hselect⟩
        | defined => exact .inl hselect
      · exact .inr hwrites
  exact hwritten.elim (fun hselect => ⟨name, t, hfind, hselect⟩) id

/-- The steps left are enough to look at the selects on the stack and at all that can be put
there. -/
structure Room (r : Registry) (steps : Nat) (stack : List SelectType) (seen : List Text) : Prop where
  enough : r.total (TypeDef.unseenOptions seen) + stack.length < steps
  writes : ∀ s ∈ stack, r.Writes s

namespace Room

theorem not_zero : ¬ r.Room 0 stack seen := fun h => Nat.not_lt_zero _ h.enough

theorem skip (h : r.Room (steps + 1) (s :: stack) seen) : r.Room steps stack seen where
  enough := Nat.lt_of_succ_lt_succ h.enough
  writes own hown := h.writes own (List.mem_cons_of_mem s hown)

/-- The first select need not be registered. -/
theorem first (hlength : selects.length ≤ s.options.length) (hwrites : ∀ s ∈ selects, r.Writes s) :
    r.Room (r.total TypeDef.optionCount + s.options.length + 1) (selects.reverse ++ [])
      ([] ++ [s.name.upper]) where
  enough := by
    have hcount := total_mono (r := r) (TypeDef.unseenOptions_le ([] ++ [s.name.upper]))
    rw [List.append_nil, List.length_reverse]
    omega
  writes own hown := hwrites own (by simpa using hown)

theorem push (h : r.Room (steps + 1) (s :: stack) seen) (hnew : s.name.upper ∉ seen)
    (hlength : selects.length ≤ s.options.length) (hwrites : ∀ s ∈ selects, r.Writes s) :
    r.Room steps (selects.reverse ++ stack) (seen ++ [s.name.upper]) where
  enough := by
    obtain ⟨name, t, hfind, hselect⟩ := h.writes s List.mem_cons_self
    have hcount := total_add_le (TypeDef.unseenOptions_append_le seen s.name.upper) hfind
      (TypeDef.unseenOptions_append hselect hnew)
    have henough := h.enough
    rw [List.length_cons] at henough
    rw [List.length_append, List.length_reverse]
    omega
  writes own hown := by
    rcases List.mem_append.mp hown with hpushed | hold
    · exact hwrites own (List.mem_reverse.mp hpushed)
    · exact h.writes own (List.mem_cons_of_mem s hold)

end Room

/-! ## The entity types of a select -/

/-- A select that is gone on with is what the option stands for. -/
theorem selects_of_optionTarget {select option : Text} {entities : List Text}
    (h : r.optionTarget select option = .ok (entities, selects)) :
    selects.length ≤ 1 ∧ ∀ s ∈ selects, ∃ t, r.find? option = some t ∧
      r.StandsFor t (.select s.name s.options) := by
  unfold optionTarget at h
  split at h
  · cases h
  · rename_i t hfind
    split at h
    · cases h
    · cases h
      exact ⟨Nat.zero_le 1, List.forall_mem_nil _⟩
    · rename_i name options hunderlying
      cases h
      refine ⟨Nat.le_refl 1, fun s hs => ⟨t, hfind, ?_⟩⟩
      rw [List.mem_singleton.mp hs]
      exact standsFor_of_underlying hunderlying
    · cases h
      exact ⟨Nat.zero_le 1, List.forall_mem_nil _⟩

theorem selects_of_optionTargets {select : Text} {entities : List Text}
    (h : r.optionTargets select options = .ok (entities, selects)) :
    selects.length ≤ options.length ∧ ∀ s ∈ selects, ∃ option ∈ options, ∃ t,
      r.find? option = some t ∧ r.StandsFor t (.select s.name s.options) := by
  induction options generalizing entities selects with
  | nil =>
    cases h
    exact ⟨Nat.le_refl 0, nofun⟩
  | cons option rest ih =>
    unfold optionTargets at h
    split at h
    · cases h
    · rename_i first above hfirst
      split at h
      · cases h
      · rename_i others more hothers
        cases h
        obtain ⟨hlength, habove⟩ := selects_of_optionTarget hfirst
        obtain ⟨hlengths, hmore⟩ := ih hothers
        refine ⟨?_, List.forall_mem_append.mpr ⟨fun s hs => ?_, fun s hs => ?_⟩⟩
        · rw [List.length_append, List.length_cons]
          omega
        · exact ⟨option, List.mem_cons_self, habove s hs⟩
        · obtain ⟨own, hmem, hstands⟩ := hmore s hs
          exact ⟨own, List.mem_cons_of_mem option hmem, hstands⟩

theorem writes_of_optionTargets {select : Text} {entities : List Text}
    (h : r.optionTargets select options = .ok (entities, selects)) :
    selects.length ≤ options.length ∧ ∀ s ∈ selects, r.Writes s := by
  obtain ⟨hlength, hselects⟩ := selects_of_optionTargets h
  refine ⟨hlength, fun s hs => ?_⟩
  obtain ⟨option, _, t, hfind, hstands⟩ := hselects s hs
  exact writes_of_standsFor hfind hstands

theorem collectEntities_of_le {more : Nat} (hroom : r.Room steps stack seen) (hle : steps ≤ more) :
    r.collectEntities more stack seen found = r.collectEntities steps stack seen found := by
  induction steps generalizing more stack seen found with
  | zero => exact absurd hroom Room.not_zero
  | succ steps ih =>
    obtain ⟨more, rfl⟩ := Nat.exists_eq_add_of_le' (Nat.le_trans (Nat.le_add_left 1 steps) hle)
    cases stack with
    | nil => rfl
    | cons current stack =>
      rw [collectEntities, collectEntities]
      split
      · exact ih hroom.skip (Nat.le_of_succ_le_succ hle)
      · rename_i hnew
        rw [List.contains_iff_mem] at hnew
        split
        · rfl
        · rename_i entities selects htargets
          obtain ⟨hlength, hwrites⟩ := writes_of_optionTargets htargets
          exact ih (hroom.push hnew hlength hwrites) (Nat.le_of_succ_le_succ hle)

/-- With any greater bound the answer is the same. -/
theorem collectEntities_eq_selectEntities (hle : r.selectSteps s ≤ steps) :
    r.collectEntities steps [s] [] [] = r.selectEntities s := by
  obtain ⟨steps, rfl⟩ := Nat.exists_eq_add_of_le' (Nat.le_trans (Nat.le_add_left 1 _) hle)
  unfold selectEntities selectSteps
  rw [collectEntities, collectEntities]
  simp only [List.contains_nil, Bool.false_eq_true, if_false]
  split
  · rfl
  · rename_i entities selects htargets
    obtain ⟨hlength, hwrites⟩ := writes_of_optionTargets htargets
    exact collectEntities_of_le (.first hlength hwrites) (Nat.le_of_succ_le_succ hle)

/-- An option leads on without end, or stands for a select of which one does. -/
inductive OffersEndless (r : Registry) : List Text → Prop
  | here {options : List Text} {option : Text} {t : TypeDef} (hmem : option ∈ options)
      (hfind : r.find? option = some t) (hendless : r.Endless t) : OffersEndless r options
  | inside {options more : List Text} {option name : Text} {t : TypeDef} (hmem : option ∈ options)
      (hfind : r.find? option = some t) (hstands : r.StandsFor t (.select name more))
      (hoffers : OffersEndless r more) : OffersEndless r options

/-- What keeps the entity types of a select from being known. -/
inductive Withholds (r : Registry) (options : List Text) : SchemaFault → Prop
  | unknownOption (select option : Text) : Withholds r options (.unknownOption select option)
  | undefined (name : Text) : Withholds r options (.undefined name)
  | endless (hoffers : r.OffersEndless options) : Withholds r options .endless

theorem Withholds.mono {more : List Text} {fault : SchemaFault} (h : r.Withholds options fault)
    (himp : r.OffersEndless options → r.OffersEndless more) : r.Withholds more fault := by
  cases h with
  | unknownOption select option => exact .unknownOption select option
  | undefined name => exact .undefined name
  | endless hoffers => exact .endless (himp hoffers)

theorem OffersEndless.subset {more : List Text} (h : r.OffersEndless options)
    (hsubset : options ⊆ more) : r.OffersEndless more := by
  cases h with
  | here hmem hfind hendless => exact .here (hsubset hmem) hfind hendless
  | inside hmem hfind hstands hoffers => exact .inside (hsubset hmem) hfind hstands hoffers

theorem withholds_of_optionTarget {select option : Text} {fault : SchemaFault}
    (h : r.optionTarget select option = .error fault) : r.Withholds [option] fault := by
  unfold optionTarget at h
  split at h
  · cases h
    exact .unknownOption select option
  · rename_i t hfind
    split at h
    · rename_i own hunderlying
      cases h
      by_cases hendless : fault = .endless
      · subst hendless
        exact .endless (.here List.mem_cons_self hfind (underlying_eq_endless_iff.mp hunderlying))
      · obtain ⟨name, _, _, rfl⟩ := undefined_of_underlyingWithin hunderlying hendless
        exact .undefined name
    · cases h
    · cases h
    · cases h

theorem withholds_of_optionTargets {select : Text} {fault : SchemaFault}
    (h : r.optionTargets select options = .error fault) : r.Withholds options fault := by
  induction options with
  | nil => cases h
  | cons option rest ih =>
    unfold optionTargets at h
    split at h
    · rename_i own hfirst
      cases h
      exact (withholds_of_optionTarget hfirst).mono
        (OffersEndless.subset · (List.cons_subset_cons option (List.nil_subset rest)))
    · split at h
      · rename_i own hothers
        cases h
        exact (ih hothers).mono (OffersEndless.subset · (List.subset_cons_self option rest))
      · cases h

theorem withholds_of_collectEntities {fault : SchemaFault}
    (h : r.collectEntities steps stack seen found = .error fault) :
    ∃ s ∈ stack, r.Withholds s.options fault := by
  induction steps generalizing stack seen found with
  | zero => cases h
  | succ steps ih =>
    cases stack with
    | nil => cases h
    | cons current stack =>
      unfold collectEntities at h
      split at h
      · obtain ⟨s, hs, hwithholds⟩ := ih h
        exact ⟨s, List.mem_cons_of_mem current hs, hwithholds⟩
      · split at h
        · rename_i own htargets
          cases h
          exact ⟨current, List.mem_cons_self, withholds_of_optionTargets htargets⟩
        · rename_i entities selects htargets
          obtain ⟨s, hs, hwithholds⟩ := ih h
          rcases List.mem_append.mp hs with hnew | hold
          · obtain ⟨option, hmem, t, hfind, hstands⟩ :=
              (selects_of_optionTargets htargets).2 s (List.mem_reverse.mp hnew)
            exact ⟨current, List.mem_cons_self, hwithholds.mono (.inside hmem hfind hstands)⟩
          · exact ⟨s, List.mem_cons_of_mem current hold, hwithholds⟩

theorem withholds_of_selectEntities {fault : SchemaFault} (h : r.selectEntities s = .error fault) :
    r.Withholds s.options fault := by
  obtain ⟨own, hown, hwithholds⟩ := withholds_of_collectEntities h
  exact List.mem_singleton.mp hown ▸ hwithholds

/-- Where an option leads on without end, so does a registered type. -/
theorem OffersEndless.exists_endless (h : r.OffersEndless options) :
    ∃ entry ∈ r.types, r.Endless entry.2 := by
  induction h with
  | here _ hfind hendless => exact ⟨_, mem_types_of_find? hfind, hendless⟩
  | inside _ _ _ _ ih => exact ih

/-- A search for the entity types of a type comes to an end: if it is a select, it does not lead
to a circle of defined types. -/
def Searchable (r : Registry) (t : TypeDef) : Prop :=
  ∀ name options, r.resolve t = .ok (.select name options) → ¬ r.OffersEndless options

theorem Searchable.selectEntities_ne_endless {name : Text} (h : r.Searchable t)
    (hselect : r.resolve t = .ok (.select name options)) :
    r.selectEntities ⟨name, options⟩ ≠ .error .endless := by
  intro hendless
  cases withholds_of_selectEntities hendless with
  | endless hoffers => exact h name options hselect hoffers

/-- All searches come to an end if it is known of every registered type what it stands for. -/
theorem searchable_of_underlying (h : ∀ entry ∈ r.types, (r.underlying entry.2).isOk = true)
    (t : TypeDef) : r.Searchable t := by
  intro name options _ hoffers
  obtain ⟨entry, hmem, hendless⟩ := hoffers.exists_endless
  have hok := h entry hmem
  rw [underlying_eq_endless_iff.mpr hendless] at hok
  cases hok

/-! ## The type that a keyword selects -/

/-- What is not found among the options: none of them is of the name sought, other than entity
types, and the selects among them are gone on with. -/
theorem seekOption_eq_inr {key : Text} (h : r.seekOption key options = .inr selects) :
    selects.length ≤ options.length ∧ ∀ option ∈ options, ∀ t, r.find? option = some t →
      (t.isEntity = false → t.key ≠ key) ∧
        ∀ name more, t = .select name more → ⟨name, more⟩ ∈ selects := by
  induction options generalizing selects with
  | nil =>
    cases h
    exact ⟨Nat.le_refl 0, nofun⟩
  | cons option rest ih =>
    unfold seekOption at h
    split at h
    · rename_i hnone
      obtain ⟨hlength, hrest⟩ := ih h
      refine ⟨Nat.le_succ_of_le hlength, List.forall_mem_cons.mpr ⟨fun t hfind => ?_, hrest⟩⟩
      rw [hnone] at hfind
      cases hfind
    · rename_i own hown
      split at h
      · cases h
      · rename_i hother
        have hkey : own.isEntity = false → own.key ≠ key := fun hentity hkey => hother ⟨hkey, hentity⟩
        split at h
        · rename_i name more others hothers
          cases h
          obtain ⟨hlength, hrest⟩ := ih hothers
          refine ⟨Nat.succ_le_succ hlength, List.forall_mem_cons.mpr ⟨fun t hfind => ?_, ?_⟩⟩
          · obtain rfl := Option.some.inj (hown.symm.trans hfind)
            refine ⟨hkey, fun name more hselect => ?_⟩
            cases hselect
            exact List.mem_cons_self
          · intro own hmem t hfind
            obtain ⟨hkey, hselects⟩ := hrest own hmem t hfind
            exact ⟨hkey, fun name more hselect => List.mem_cons_of_mem _ (hselects name more hselect)⟩
        · rename_i hselect
          obtain ⟨hlength, hrest⟩ := ih h
          refine ⟨Nat.le_succ_of_le hlength, List.forall_mem_cons.mpr ⟨fun t hfind => ?_, hrest⟩⟩
          obtain rfl := Option.some.inj (hown.symm.trans hfind)
          exact ⟨hkey, fun name more hsame => absurd h (hselect name more selects hsame)⟩

/-- What is sought is none of the options, and the selects among them have names of the list. -/
def Lacks (r : Registry) (key : Text) (searched options : List Text) : Prop :=
  ∀ option ∈ options, ∀ t, r.find? option = some t →
    (t.isEntity = false → t.key ≠ key) ∧ ∀ name more, t = .select name more → name.upper ∈ searched

theorem lacks_of_seekOption {key : Text} {searched : List Text}
    (h : r.seekOption key options = .inr selects)
    (hsearched : ∀ s ∈ selects.reverse, s.name.upper ∈ searched) : r.Lacks key searched options := by
  intro option hoption t hfind
  obtain ⟨hkey, hselects⟩ := (seekOption_eq_inr h).2 option hoption t hfind
  refine ⟨hkey, fun name more hselect => ?_⟩
  exact hsearched ⟨name, more⟩ (List.mem_reverse.mpr (hselects name more hselect))

theorem registered_of_seekOption {key : Text} (h : r.seekOption key options = .inr selects) :
    ∀ s ∈ selects.reverse, ∃ name, r.find? name = some (.select s.name s.options) := by
  intro s hs
  obtain ⟨option, _, hfind⟩ := find?_select_of_seekOption h s (List.mem_reverse.mp hs)
  exact ⟨option, hfind⟩

theorem writes_of_seekOption {key : Text} (h : r.seekOption key options = .inr selects) :
    ∀ s ∈ selects, r.Writes s := by
  intro s hs
  obtain ⟨name, hfind⟩ := registered_of_seekOption h s (List.mem_reverse.mpr hs)
  exact ⟨name, _, hfind, rfl⟩

/-- A registry has one select of a name. -/
theorem options_unique {name other own : Text} {more : List Text}
    (hs : r.find? name = some (.select s.name s.options))
    (hown : r.find? other = some (.select own more)) (hname : own.upper = s.name.upper) :
    more = s.options := by
  have hsame : other.upper = name.upper :=
    (key_of_find? hown).symm.trans (hname.trans (key_of_find? hs))
  rw [find?_congr hsame, hs] at hown
  exact (TypeDef.select.inj (Option.some.inj hown)).2.symm

/-- A search that finds nothing has looked at all selects in reach. -/
theorem lacks_of_seekAmong {key : Text}
    (hstack : ∀ s ∈ stack, ∃ name, r.find? name = some (.select s.name s.options))
    (hroom : r.Room steps stack seen) (h : r.seekAmong key steps stack seen = none) :
    ∃ searched, seen ⊆ searched ∧ (∀ s ∈ stack, s.name.upper ∈ searched) ∧
      ∀ option name more, r.find? option = some (.select name more) → name.upper ∈ searched →
        name.upper ∈ seen ∨ r.Lacks key searched more := by
  induction steps generalizing stack seen with
  | zero => exact absurd hroom Room.not_zero
  | succ steps ih =>
    cases stack with
    | nil => exact ⟨seen, List.Subset.refl seen, nofun, fun _ _ _ _ hmem => .inl hmem⟩
    | cons current stack =>
      obtain ⟨hcurrent, hrest⟩ := List.forall_mem_cons.mp hstack
      unfold seekAmong at h
      split at h
      · rename_i hseen
        obtain ⟨searched, hsubset, hnames, hlacks⟩ := ih hrest hroom.skip h
        exact ⟨searched, hsubset,
          List.forall_mem_cons.mpr ⟨hsubset (List.contains_iff_mem.mp hseen), hnames⟩, hlacks⟩
      · rename_i hnew
        rw [List.contains_iff_mem] at hnew
        split at h
        · cases h
        · rename_i selects hselects
          obtain ⟨hlength, -⟩ := seekOption_eq_inr hselects
          obtain ⟨searched, hsubset, hnames, hlacks⟩ :=
            ih (List.forall_mem_append.mpr ⟨registered_of_seekOption hselects, hrest⟩)
              (hroom.push hnew hlength (writes_of_seekOption hselects)) h
          obtain ⟨hpushed, hbehind⟩ := List.forall_mem_append.mp hnames
          obtain ⟨hseen, hself⟩ := List.append_subset.mp hsubset
          refine ⟨searched, hseen,
            List.forall_mem_cons.mpr ⟨hself (List.mem_singleton_self _), hbehind⟩, ?_⟩
          intro option name more hfind hmem
          rcases hlacks option name more hfind hmem with hold | hlacking
          · rcases List.mem_append.mp hold with hold | hown
            · exact .inl hold
            · -- The registry has one select of this name, the current one.
              obtain ⟨own, hfind'⟩ := hcurrent
              have hoptions : more = current.options :=
                options_unique hfind' hfind (List.mem_singleton.mp hown)
              exact .inr (hoptions ▸ lacks_of_seekOption hselects hpushed)
          · exact .inr hlacking

theorem not_offersPast_of_lacks {key own : Text} {searched : List Text}
    (hsearched : ∀ option name more, r.find? option = some (.select name more) →
      name.upper ∈ searched → name.upper ∈ [own.upper] ∨ r.Lacks key searched more)
    (hlacks : r.Lacks key searched options) (hoffers : r.OffersPast own options t)
    (hentity : t.isEntity = false) : t.key ≠ key := by
  induction hoffers with
  | here hmem hfind => exact (hlacks _ hmem _ hfind).1 hentity
  | inside hmem hfind hother _ ih =>
    have hin := (hlacks _ hmem _ hfind).2 _ _ rfl
    refine ih ((hsearched _ _ _ hfind hin).resolve_left fun hown => ?_) hentity
    exact hother (List.mem_singleton.mp hown)

/-- A keyword selects the type of its name, other than an entity type, that is offered without
going through a select of the same name again. -/
theorem selectOption_eq_some_iff {keyword : Text} :
    r.selectOption s keyword = some t ↔
      r.OffersPast s.name s.options t ∧ t.key = keyword.upper ∧ t.isEntity = false := by
  refine ⟨offersPast_of_selectOption, ?_⟩
  rintro ⟨hoffers, hkey, hentity⟩
  cases hfound : r.selectOption s keyword with
  | some u =>
    obtain ⟨hother, hsame, _⟩ := offersPast_of_selectOption hfound
    rw [hother.offers.eq_of_key hoffers.offers (hsame.trans hkey.symm)]
  | none =>
    exfalso
    unfold selectOption selectSteps seekAmong at hfound
    simp only [List.contains_nil, Bool.false_eq_true, if_false] at hfound
    split at hfound
    · cases hfound
    · rename_i selects hselects
      obtain ⟨hlength, -⟩ := seekOption_eq_inr hselects
      have hstack := registered_of_seekOption hselects
      rw [← List.append_nil selects.reverse] at hstack
      obtain ⟨searched, _, hnames, hsearched⟩ :=
        lacks_of_seekAmong hstack (.first hlength (writes_of_seekOption hselects)) hfound
      rw [List.append_nil] at hnames
      exact not_offersPast_of_lacks hsearched (lacks_of_seekOption hselects hnames) hoffers hentity hkey

/-- For a registered select it does not matter that selects of its name are passed over. -/
theorem offersPast_iff_offers {name : Text} (hfind : r.find? name = some (.select s.name s.options)) :
    r.OffersPast s.name s.options t ↔ r.Offers s.options t := by
  have hpast : ∀ options, r.Offers options t →
      r.OffersPast s.name options t ∨ r.OffersPast s.name s.options t := by
    intro options h
    induction h with
    | here hmem hfind => exact .inl (.here hmem hfind)
    | @inside options more option own t hmem hinside _ ih =>
      rcases ih with hmore | hown
      · by_cases hsame : own.upper = s.name.upper
        · -- Behind the select itself, its options can be gone through from the start.
          have hoptions : more = s.options := options_unique hfind hinside hsame
          exact .inr (hoptions ▸ hmore)
        · exact .inl (.inside hmem hinside hsame hmore)
      · exact .inr hown
  exact ⟨OffersPast.offers, fun h => (hpast s.options h).elim id id⟩

end Registry

end Part21
