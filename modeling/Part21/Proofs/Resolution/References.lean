import Mathlib.Data.List.Chain
import Mathlib.Data.List.Nodup
import Mathlib.Logic.Relation
import Part21.Proofs.Resolution.Conversion
import Part21.Proofs.Resolution.Following

set_option autoImplicit false

/-!
# References

The records of a population form a graph: an instance refers to those that the text of
its record names.  Resolution goes along the links of held records, and these lead to the
very same instances in the same order (`Basis.targets_hold`), so what can be reached is
known from the text alone.

An instance is shallow if every walk from it ends soon.  Where no cycle can be reached,
it is enough that simple paths are short (`Population.shallow_of_acyclic`).
-/

namespace Part21

/-! ## The graph of references -/

namespace Population

/-- The record of one instance refers to the other one. -/
def Refers (records : Population) (referrer target : Int) : Prop :=
  ∃ r, records.find? referrer = some r ∧ target ∈ r.references

/-- References lead from one instance to the other one, in any number of steps. -/
abbrev LeadsTo (records : Population) : Int → Int → Prop := Relation.ReflTransGen records.Refers

/-- References lead from an instance back to it. -/
def OnCycle (records : Population) (id : Int) : Prop := Relation.TransGen records.Refers id id

/-- A simple path of references: every instance on it has a record, which refers to the next
one, and none of them comes twice. -/
structure IsSimplePath (records : Population) (ids : List Int) : Prop where
  present : ∀ id ∈ ids, records.contains id = true
  linked : ids.IsChain records.Refers
  distinct : ids.Nodup

/-- No simple path that begins at the instance has more instances than the limit. -/
def PathsWithin (records : Population) (limit : Nat) (id : Int) : Prop :=
  ∀ ids, ids.head? = some id → records.IsSimplePath ids → ids.length ≤ limit

/-- Every walk along references that begins at the instance comes to its end after so many
instances that have a record. -/
def Shallow (records : Population) : Nat → Int → Prop
  | 0, id => records.contains id = false
  | levels + 1, id => ∀ target, records.Refers id target → Shallow records levels target

variable {records : Population}

theorem contains_of_refers {referrer target : Int} (h : records.Refers referrer target) :
    records.contains referrer = true := by
  obtain ⟨r, hr, _⟩ := h
  rw [contains, hr]
  rfl

/-! ## Simple paths -/

theorem isSimplePath_nil (records : Population) : records.IsSimplePath [] :=
  ⟨nofun, .nil, .nil⟩

/-- A path, its last instance first, goes on to an instance that is not on it. -/
theorem IsSimplePath.extend {path : List Int} {id : Int}
    (h : records.IsSimplePath path.reverse)
    (hlast : ∀ referrer ∈ path.head?, records.Refers referrer id)
    (hrecord : records.contains id = true) (hnew : id ∉ path) :
    records.IsSimplePath (id :: path).reverse where
  present other hmem := by
    rcases List.mem_cons.mp (List.mem_reverse.mp hmem) with rfl | hold
    · exact hrecord
    · exact h.present other (List.mem_reverse.mpr hold)
  linked := List.isChain_reverse.mpr
    (List.isChain_cons.mpr ⟨hlast, List.isChain_reverse.mp h.linked⟩)
  distinct := List.nodup_reverse.mpr
    (List.nodup_cons.mpr ⟨hnew, List.nodup_reverse.mp h.distinct⟩)

/-- From every instance on a path references lead to where the path goes on. -/
theorem IsSimplePath.leads {path : List Int} {id : Int} (h : records.IsSimplePath path.reverse)
    (hlast : ∀ referrer ∈ path.head?, records.Refers referrer id) :
    ∀ other ∈ path, Relation.TransGen records.Refers other id := by
  have hchain := List.isChain_cons.mpr ⟨hlast, List.isChain_reverse.mp h.linked⟩
  have htrans : (id :: path).IsChain fun later earlier =>
      Relation.TransGen records.Refers earlier later :=
    hchain.imp fun _ _ hstep => .single hstep
  have : Trans (fun later earlier => Relation.TransGen records.Refers earlier later)
      (fun later earlier => Relation.TransGen records.Refers earlier later)
      (fun later earlier => Relation.TransGen records.Refers earlier later) :=
    ⟨fun hlate hearly => hearly.trans hlate⟩
  exact fun other hmem => htrans.rel_cons hmem

theorem IsSimplePath.not_mem_of_not_onCycle {path : List Int} {id : Int}
    (h : records.IsSimplePath path.reverse)
    (hlast : ∀ referrer ∈ path.head?, records.Refers referrer id)
    (hcycle : ¬ records.OnCycle id) : id ∉ path :=
  fun hmem => hcycle (h.leads hlast id hmem)

/-- The first instance of a path leads to where the path goes on. -/
theorem IsSimplePath.root_leadsTo {path : List Int} {id root : Int}
    (h : records.IsSimplePath path.reverse)
    (hlast : ∀ referrer ∈ path.head?, records.Refers referrer id)
    (hroot : (id :: path).getLast? = some root) : records.LeadsTo root id := by
  rcases List.mem_cons.mp (List.mem_of_getLast? hroot) with rfl | hmem
  · exact .refl
  · exact (h.leads hlast root hmem).to_reflTransGen

theorem mem_ids_iff {id : Int} : id ∈ records.ids ↔ records.contains id = true := by
  simp only [contains, find?, Option.isSome_map, List.find?_isSome, decide_eq_true_eq]
  exact List.mem_map

/-- A simple path has no more instances than there are records. -/
theorem IsSimplePath.length_le {ids : List Int} (h : records.IsSimplePath ids) :
    ids.length ≤ records.size := by
  have hsub : ids ⊆ records.ids := fun id hmem => mem_ids_iff.mpr (h.present id hmem)
  calc ids.length ≤ records.ids.length := h.distinct.length_le_of_subset hsub
    _ = records.size := List.length_map _

/-- Where there are no more records than the limit, every simple path is within it. -/
theorem pathsWithin_of_size_le {limit : Nat} (h : records.size ≤ limit) (id : Int) :
    records.PathsWithin limit id :=
  fun _ _ hpath => hpath.length_le.trans h

/-- Instances of which the records refer to no others lead to no others. -/
theorem mem_of_leadsTo (ids : List Int)
    (hclosed : ∀ referrer ∈ ids, ∀ r ∈ records.find? referrer, ∀ target ∈ r.references,
      target ∈ ids)
    {id other : Int} (hid : id ∈ ids) (hleads : records.LeadsTo id other) : other ∈ ids := by
  induction hleads with
  | refl => exact hid
  | tail _ hrefers ih =>
    obtain ⟨r, hr, hmem⟩ := hrefers
    exact hclosed _ ih r hr _ hmem

/-! ## Shallow instances -/

theorem shallow_of_contains_eq_false {id : Int} (h : records.contains id = false) (levels : Nat) :
    records.Shallow levels id := by
  cases levels with
  | zero => exact h
  | succ levels =>
    intro target hrefers
    rw [contains_of_refers hrefers] at h
    cases h

theorem Shallow.mono {levels more : Nat} {id : Int} (h : records.Shallow levels id)
    (hle : levels ≤ more) : records.Shallow more id := by
  induction levels generalizing more id with
  | zero => exact shallow_of_contains_eq_false h more
  | succ levels ih =>
    obtain ⟨more, rfl⟩ : ∃ n, more = n + 1 := ⟨more - 1, by omega⟩
    exact fun target hrefers => ih (h target hrefers) (Nat.le_of_succ_le_succ hle)

/-- A shallow instance is on no cycle. -/
theorem Shallow.not_onCycle {levels : Nat} {id : Int} (h : records.Shallow levels id) :
    ¬ records.OnCycle id := by
  intro hcycle
  induction levels generalizing id with
  | zero =>
    obtain ⟨target, hrefers, _⟩ := Relation.TransGen.head'_iff.mp hcycle
    rw [Shallow, contains_of_refers hrefers] at h
    cases h
  | succ levels ih =>
    obtain ⟨target, hrefers, hback⟩ := Relation.TransGen.head'_iff.mp hcycle
    exact ih (h target hrefers) (Relation.TransGen.tail'_iff.mpr ⟨id, hback, hrefers⟩)

/-- The depth of an instance is known from the instances that its record refers to. -/
theorem shallow_succ_of_find? {levels : Nat} {id : Int} {r : Record}
    (hr : records.find? id = some r)
    (h : ∀ target ∈ r.references, records.Shallow levels target) :
    records.Shallow (levels + 1) id := by
  rintro target ⟨s, hs, hmem⟩
  rw [hr] at hs
  exact h target (Option.some.inj hs ▸ hmem)

theorem Shallow.of_leadsTo {levels : Nat} {id other : Int} (h : records.Shallow levels id)
    (hleads : records.LeadsTo id other) : records.Shallow levels other := by
  induction hleads with
  | refl => exact h
  | tail _ hrefers ih =>
    cases levels with
    | zero =>
      rw [Shallow, contains_of_refers hrefers] at ih
      cases ih
    | succ levels => exact (ih _ hrefers).mono (Nat.le_succ levels)

/-- Behind a path from an instance that leads to no cycle there is no more depth left than
the limit leaves. -/
theorem shallow_of_path {root : Int}
    (hacyclic : ∀ other, records.LeadsTo root other → ¬ records.OnCycle other) {limit : Nat}
    (hlimit : records.PathsWithin limit root) {levels : Nat} {path : List Int} {id : Int}
    (hpath : records.IsSimplePath path.reverse)
    (hlast : ∀ referrer ∈ path.head?, records.Refers referrer id)
    (hroot : (id :: path).getLast? = some root) (hlevels : limit ≤ path.length + levels) :
    records.Shallow levels id := by
  induction levels generalizing path id with
  | zero =>
    rw [Shallow, ← Bool.not_eq_true]
    intro hrecord
    have hnew := hpath.not_mem_of_not_onCycle hlast (hacyclic id (hpath.root_leadsTo hlast hroot))
    have hlength := hlimit _ (List.head?_reverse.trans hroot) (hpath.extend hlast hrecord hnew)
    rw [List.length_reverse, List.length_cons] at hlength
    omega
  | succ levels ih =>
    intro target hrefers
    have hnew := hpath.not_mem_of_not_onCycle hlast (hacyclic id (hpath.root_leadsTo hlast hroot))
    refine ih (hpath.extend hlast (contains_of_refers hrefers) hnew) ?_ ?_ ?_
    · rintro referrer hhead
      rwa [← Option.mem_some.mp hhead]
    · rw [List.getLast?_cons_cons, hroot]
    · rw [List.length_cons]
      omega

/-- An instance that leads to no cycle is as shallow as its simple paths are short. -/
theorem shallow_of_acyclic {limit : Nat} {id : Int}
    (hacyclic : ∀ other, records.LeadsTo id other → ¬ records.OnCycle other)
    (hlimit : records.PathsWithin limit id) : records.Shallow limit id := by
  have hpath : records.IsSimplePath ([] : List Int).reverse := isSimplePath_nil records
  exact shallow_of_path hacyclic hlimit hpath
    (fun _ hhead => absurd hhead (Option.not_mem_none _)) rfl (Nat.le_add_left ..)

end Population

/-! ## Links lead where the text refers to -/

namespace Held

mutual

/-- The links of a held value lead to the instances it refers to. -/
theorem targets_links (held : Held) : held.links.map Link.target = held.references := by
  match held with
  | .value v => rfl
  | .reference id expected place => rfl
  | .typed typeName held => rw [links, references, targets_links held]
  | .list items => rw [links, references, targets_allLinks items]

theorem targets_allLinks (items : List Held) :
    (allLinks items).map Link.target = allReferences items := by
  match items with
  | [] => rfl
  | held :: rest =>
    rw [allLinks, allReferences, List.map_append, targets_links held, targets_allLinks rest]

end

theorem references_eq_nil_of_simple {s : Settings} {place : Text} {type : SimpleType}
    {p : Parameter} {v : Value} (h : simple s place type p = .ok v) : p.references = [] := by
  cases p <;> first | rfl | (cases type <;> cases h)

theorem references_eq_nil_of_item {s : Settings} {place name : Text} {items : List Text}
    {p : Parameter} {v : Value} (h : item s place name items p = .ok v) : p.references = [] := by
  cases p <;> first | rfl | cases h

theorem references_whole {s : Settings} {place : Text} {t : TypeDef} {p : Parameter} {held : Held}
    (h : whole s place t p = .ok held) : held.references = p.references := by
  unfold whole at h
  split at h
  · rename_i type
    cases hv : simple s place type p with
    | error thrown => rw [hv] at h; cases h
    | ok v =>
      rw [hv] at h
      cases h
      exact (references_eq_nil_of_simple hv).symm
  · rename_i name items
    cases hv : item s place name items p with
    | error thrown => rw [hv] at h; cases h
    | ok v =>
      rw [hv] at h
      cases h
      exact (references_eq_nil_of_item hv).symm
  · split at h
    · cases h
      rfl
    · cases h
  · split at h
    · cases h
      rfl
    · cases h
  · cases h

/-- Whatever a parameter is converted to refers to what the parameter refers to. -/
theorem references_conversion {r : Registry} {s : Settings} {place : Text} :
    Conversion r s place
      (fun _ p outcome => ∀ held, outcome = .ok held → held.references = p.references)
      (fun _ items outcome =>
        ∀ held, outcome = .ok held → allReferences held = Parameter.allReferences items) where
  lost _ := by
    intro held h
    cases h
  whole _ := by
    intro held h
    exact references_whole h
  unwrapped _ hinner := by
    intro held h
    rw [Parameter.references]
    exact hinner held h
  unselected _ _ := by
    intro held h
    cases h
  selected {t option keyword name options inner outcome} _ _ hinner := by
    intro held h
    cases outcome with
    | error thrown => cases h
    | ok own =>
      cases h
      rw [references, Parameter.references]
      exact hinner own rfl
  outside _ _ := by
    intro held h
    cases h
  aggregate {t element name kind lower upper items outcome} _ _ hitems := by
    intro held h
    cases outcome with
    | error thrown => cases h
    | ok own =>
      cases h
      rw [references, Parameter.references]
      exact hitems own rfl
  nil {element} := by
    intro held h
    cases h
    rfl
  stopped _ := by
    intro held h
    cases h
  cons {element p rest first outcome} hfirst hothers := by
    intro held h
    cases outcome with
    | error thrown => cases h
    | ok others =>
      cases h
      rw [allReferences, Parameter.allReferences, hfirst first rfl, hothers others rfl]

theorem references_ofParameter {r : Registry} {s : Settings} {place : Text} {t : TypeDef}
    {p : Parameter} {held : Held} (h : ofParameter r s place t p = .ok held) :
    held.references = p.references :=
  references_conversion.one t p held h

theorem targets_ofSlot {r : Registry} {s : Settings} {a : Attribute} {p : Parameter} {held : Held}
    (h : ofSlot r s a p = .ok held) :
    (slotLinks [(a, held)]).map Link.target = p.references := by
  rw [slotLinks, List.flatMap_singleton]
  unfold ofSlot at h
  split at h
  · split at h
    · cases h
      split <;> rfl
    · cases h
  · split at h
    · cases h
    · rename_i hderived
      rw [if_neg hderived, targets_links]
      split at h
      · split at h
        · cases h
          rfl
        · cases h
      · exact references_ofParameter h

theorem slotLinks_cons (slot : Attribute × Held) (slots : List (Attribute × Held)) :
    slotLinks (slot :: slots) = slotLinks [slot] ++ slotLinks slots := by
  rw [slotLinks, slotLinks, slotLinks, List.flatMap_cons, List.flatMap_singleton]

theorem targets_ofSlots {r : Registry} {s : Settings} {attributes : List Attribute}
    {parameters : List Parameter} (hlength : parameters.length = attributes.length)
    {slots : List (Attribute × Held)} (h : ofSlots r s attributes parameters = .ok slots) :
    (slotLinks slots).map Link.target = Parameter.allReferences parameters := by
  induction attributes generalizing parameters slots with
  | nil =>
    cases parameters with
    | nil => cases h; rfl
    | cons p rest => cases hlength
  | cons a attributes ih =>
    cases parameters with
    | nil => cases hlength
    | cons p rest =>
      rw [ofSlots] at h
      cases hheld : ofSlot r s a p with
      | error thrown => rw [hheld] at h; cases h
      | ok held =>
        rw [hheld] at h
        cases hslots : ofSlots r s attributes rest with
        | error thrown => rw [hslots] at h; cases h
        | ok others =>
          rw [hslots] at h
          cases h
          rw [slotLinks_cons, List.map_append, targets_ofSlot hheld,
            ih (Nat.succ.inj hlength) hslots, Parameter.allReferences]

theorem targets_ofGroup {r : Registry} {s : Settings} {typeName : Text}
    {attributes : List Attribute} {parameters : List Parameter} {slots : List (Attribute × Held)}
    (h : ofGroup r s typeName attributes parameters = .ok slots) :
    (slotLinks slots).map Link.target = Parameter.allReferences parameters := by
  unfold ofGroup at h
  split at h
  · rename_i hlength
    exact targets_ofSlots hlength h
  · cases h

end Held

namespace Site

variable {site : Site}

theorem targets_hold {e : EntityType} {parameters : List Parameter}
    {slots : List (Attribute × Held)} (h : site.hold e parameters = .ok slots) :
    (Held.slotLinks slots).map Link.target = Parameter.allReferences parameters := by
  unfold hold at h
  split at h
  · cases h
  · exact Held.targets_ofGroup h

theorem targets_holdPart {e : EntityType} {others : List EntityType}
    {parameters : List Parameter} {slots : List (Attribute × Held)}
    (h : site.holdPart e others parameters = .ok slots) :
    (Held.slotLinks slots).map Link.target = Parameter.allReferences parameters := by
  unfold holdPart at h
  split at h
  · cases h
  · exact Held.targets_ofGroup h

theorem targets_holdParts {all : List EntityType} {parts : List (EntityType × Group)}
    {held : List (EntityType × List (Attribute × Held))} (h : site.holdParts all parts = .ok held) :
    (HeldRecord.complex held).links.map Link.target =
      parts.flatMap fun part => Parameter.allReferences part.2.parameters := by
  induction parts generalizing held with
  | nil => cases h; rfl
  | cons part rest ih =>
    obtain ⟨e, group⟩ := part
    unfold holdParts at h
    split at h
    · cases h
    · rename_i slots hslots
      cases hrest : site.holdParts all rest with
      | error thrown => rw [hrest] at h; cases h
      | ok others =>
        rw [hrest] at h
        cases h
        have hothers := ih hrest
        rw [HeldRecord.links] at hothers ⊢
        rw [List.flatMap_cons, List.flatMap_cons, List.map_append, targets_holdPart hslots, hothers]

end Site

namespace Basis

variable {b : Basis} {brought : Option Blueprint}

theorem groups_partTypes {groups : List Group} {parts : List (EntityType × Group)}
    (h : b.partTypes brought groups = .ok parts) : parts.map Prod.snd = groups := by
  induction groups generalizing parts with
  | nil => cases h; rfl
  | cons group rest ih =>
    unfold partTypes at h
    split at h
    · cases h
    · cases hrest : b.partTypes brought rest with
      | error thrown => rw [hrest] at h; cases h
      | ok others =>
        rw [hrest] at h
        cases h
        rw [List.map_cons, ih hrest]

/-- The links of a record lead where its text refers to, in the same order. -/
theorem targets_hold {id : Int} {r : Record} {held : HeldRecord}
    (h : b.hold brought id r = .ok held) : held.links.map Link.target = r.references := by
  unfold hold at h
  unfold Record.references Record.groups
  cases hbody : r.body with
  | simple group =>
    rw [hbody] at h
    dsimp only at h
    split at h
    · cases h
    · split at h
      · cases h
      · rename_i slots hslots
        cases h
        rw [HeldRecord.links, Body.groups, List.flatMap_singleton]
        exact Site.targets_hold hslots
  | complex first others loose =>
    rw [hbody] at h
    dsimp only at h
    split at h
    · cases h
    · rename_i parts hparts
      split at h
      · cases h
      · rename_i held hheld
        cases h
        rw [Site.targets_holdParts hheld, Body.groups, ← groups_partTypes hparts, List.flatMap_map]

end Basis

end Part21
