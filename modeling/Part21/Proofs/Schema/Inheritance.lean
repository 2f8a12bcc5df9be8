import Mathlib.Data.List.Forall2
import Part21.Proofs.Schema.Linearization

set_option autoImplicit false

/-!
# Inheritance

An entity type has attributes if its hierarchy is founded: all supertypes, near and far, are
registered entity types, and none of them is above itself.  Where it is not, the fault names what
is wrong with it (`Registry.rooted_iff`, `Registry.isFlaw_of_linearization`).

The order of the attributes is that of a walk.  Unrolled, a hierarchy is a row in which each entity
type stands behind the rows of its supertypes, in the order of their declaration, as often as there
are ways up to it.  The linearization is what is left of this row where each entity type stays in
its first place only (`Registry.keys_linearization`).  Along it, the attributes are those that the
entity types declare, and one is derived if it is declared so or is redeclared anywhere in the
linearization (`Registry.attributes_laid_out`).
-/

namespace Part21

namespace Registry

variable {r : Registry} {e : EntityType}

/-! ## Founded hierarchies -/

/-- All supertypes of an entity type, near and far, are registered entity types, and none of them
is above itself. -/
structure Founded (r : Registry) (e : EntityType) : Prop where
  known : ∀ f, r.Specializes e f → ∀ name ∈ f.supertypes, ∃ above, r.entity name = .ok above
  acyclic : ∀ f, r.Specializes e f → ¬ Relation.TransGen r.Declares f f

theorem Founded.of_declares (h : r.Founded e) {s : EntityType} (hdeclares : r.Declares e s) :
    r.Founded s where
  known f hf := h.known f (.head hdeclares hf)
  acyclic f hf := h.acyclic f (.head hdeclares hf)

theorem Rooted.founded (h : r.Rooted e) : r.Founded e where
  known f hf := by
    obtain ⟨habove, -⟩ := h.of_specializes hf
    exact exists_supertypes_iff.mp ⟨_, habove⟩
  acyclic f hf := (h.of_specializes hf).acyclic

/-- No way up is longer than the registry has types, so it comes to an end. -/
theorem Founded.rooted {room : Nat} {path : List Text} (h : r.Founded e) (he : r.IsRegistered e)
    (hascent : r.Ascent path e) (hroom : r.types.length < path.length + room) : r.Rooted e := by
  induction room generalizing e path with
  | zero =>
    have hlength := hascent.length_le
    omega
  | succ room ih =>
    have hnew : e.key ∉ path := fun hmem => h.acyclic e .refl (hascent.cyclic_of_mem he hmem)
    obtain ⟨above, habove⟩ := exists_supertypes_iff.mpr (h.known e .refl)
    refine .intro habove fun s hs => ?_
    have hdeclares : r.Declares e s := (mem_supertypes habove).mp hs
    refine ih (h.of_declares hdeclares) (isRegistered_of_declares hdeclares)
      (hascent.step he hnew hdeclares) ?_
    rw [List.length_append, List.length_singleton]
    omega

theorem rooted_iff (he : r.IsRegistered e) : r.Rooted e ↔ r.Founded e :=
  ⟨Rooted.founded, fun h =>
    h.rooted he ⟨List.nodup_nil, nofun⟩ (Nat.lt_add_left 0 (Nat.lt_succ_self r.types.length))⟩

/-! ## Flaws of hierarchies -/

/-- What is wrong with the hierarchy of an entity type. -/
inductive IsFlaw (r : Registry) (e : EntityType) : SchemaFault → Prop
  /-- a supertype is not registered -/
  | unknown {f : EntityType} {name : Text} (hf : r.Specializes e f) (hname : name ∈ f.supertypes)
      (hmissing : r.find? name = none) : IsFlaw r e (.unknownSupertype f.name name)
  /-- a supertype is no entity type -/
  | notEntity {f : EntityType} {name : Text} {t : TypeDef} (hf : r.Specializes e f)
      (hname : name ∈ f.supertypes) (hfind : r.find? name = some t) (hother : t.entity? = none) :
      IsFlaw r e (.notEntity name)
  /-- an entity type is above itself -/
  | cyclic {f : EntityType} (hf : r.Specializes e f) (hcycle : Relation.TransGen r.Declares f f) :
      IsFlaw r e (.cyclicSupertypes f.name)

theorem isFlaw_of_supertype {owner : EntityType} {name : Text} {fault : SchemaFault}
    (howner : r.Specializes e owner) (hname : name ∈ owner.supertypes)
    (h : r.supertype owner name = .error fault) : r.IsFlaw e fault := by
  unfold supertype contains at h
  cases hfind : r.find? name with
  | none =>
    rw [hfind] at h
    cases h
    exact .unknown howner hname hfind
  | some t =>
    simp only [entity, get, hfind, Option.isSome_some, if_true] at h
    cases t <;> cases h <;> exact .notEntity howner hname hfind rfl

theorem isFlaw_of_forSupertypes {owner : EntityType}
    {act : EntityType → List EntityType → Except SchemaFault (List EntityType)}
    (howner : r.Specializes e owner)
    (hact : ∀ s done fault, r.Declares owner s → act s done = .error fault → r.IsFlaw e fault)
    {names : List Text} (hnames : names ⊆ owner.supertypes) {done : List EntityType}
    {fault : SchemaFault} (h : r.forSupertypes owner act names done = .error fault) :
    r.IsFlaw e fault := by
  induction names generalizing done with
  | nil => cases h
  | cons name rest ih =>
    obtain ⟨hname, hrest⟩ := List.cons_subset.mp hnames
    unfold forSupertypes at h
    split at h
    · rename_i hsupertype
      cases h
      exact isFlaw_of_supertype howner hname hsupertype
    · rename_i above habove
      split at h
      · rename_i hfault
        cases h
        exact hact above done _ ⟨name, hname, supertype_eq_ok.mp habove⟩ hfault
      · exact ih hrest h

/-- The walk up fails for a flaw only: it never comes to the bound on its depth. -/
theorem isFlaw_of_linearizeOnto {depth : Nat} {path : List Text} {current : EntityType}
    {done : List EntityType} {fault : SchemaFault} (hbelow : r.Specializes e current)
    (hcurrent : r.IsRegistered current) (hascent : r.Ascent path current)
    (hdepth : r.types.length + 2 ≤ depth + path.length)
    (h : r.linearizeOnto depth path current done = .error fault) : r.IsFlaw e fault := by
  induction depth generalizing path current done fault with
  | zero =>
    have hlength := hascent.length_le
    omega
  | succ depth ih =>
    unfold linearizeOnto at h
    split at h
    · rename_i hmem
      cases h
      exact .cyclic hbelow (hascent.cyclic_of_mem hcurrent (List.contains_iff_mem.mp hmem))
    · rename_i hnew
      rw [List.contains_iff_mem] at hnew
      split at h
      · cases h
      · split at h
        · rename_i hfault
          cases h
          refine isFlaw_of_forSupertypes hbelow (fun s done fault hdeclares hact => ?_)
            (List.Subset.refl _) hfault
          refine ih (hbelow.tail hdeclares) (isRegistered_of_declares hdeclares)
            (hascent.step hcurrent hnew hdeclares) ?_ hact
          rw [List.length_append, List.length_singleton]
          omega
        · cases h

theorem isFlaw_of_linearization (he : r.IsRegistered e) {fault : SchemaFault}
    (h : r.linearization e = .error fault) : r.IsFlaw e fault :=
  isFlaw_of_linearizeOnto .refl he ⟨List.nodup_nil, nofun⟩ (Nat.le_add_right _ _) h

/-! ## The depth-first order -/

/-- The row of entity types and of all that they specialize, each behind the row of its own
supertypes, in the order of the declarations and as often as there are ways to it. -/
inductive Unrolls (r : Registry) : List EntityType → List EntityType → Prop
  | nil : Unrolls r [] []
  | cons {e : EntityType} {rest above before after : List EntityType}
      (habove : r.supertypes e e.supertypes = .ok above) (hbefore : Unrolls r above before)
      (hafter : Unrolls r rest after) : Unrolls r (e :: rest) (before ++ e :: after)

theorem Unrolls.specializes {es row : List EntityType} (h : r.Unrolls es row) {f : EntityType}
    (hf : f ∈ row) : ∃ e ∈ es, r.Specializes e f := by
  induction h with
  | nil => cases hf
  | @cons e rest above before after habove _ _ ihbefore ihafter =>
    rcases List.mem_append.mp hf with hmem | hmem
    · obtain ⟨s, hs, hspecializes⟩ := ihbefore hmem
      exact ⟨e, List.mem_cons_self, .head ((mem_supertypes habove).mp hs) hspecializes⟩
    · rcases List.mem_cons.mp hmem with rfl | hrest
      · exact ⟨f, List.mem_cons_self, .refl⟩
      · obtain ⟨s, hs, hspecializes⟩ := ihafter hrest
        exact ⟨s, List.mem_cons_of_mem e hs, hspecializes⟩

/-- A row begins with the row of the first entity type. -/
theorem Unrolls.cons_iff {es row : List EntityType} :
    r.Unrolls (e :: es) row ↔
      ∃ first others, r.Unrolls [e] first ∧ r.Unrolls es others ∧ row = first ++ others := by
  constructor
  · rintro (_ | ⟨habove, hbefore, hafter⟩)
    exact ⟨_, _, .cons habove hbefore .nil, hafter, by simp⟩
  · rintro ⟨first, others, hfirst, hothers, rfl⟩
    cases hfirst with
    | cons habove hbefore hnone =>
      cases hnone
      simpa using Unrolls.cons habove hbefore hothers

theorem Rooted.exists_unrolls (h : r.Rooted e) : ∃ row, r.Unrolls [e] row := by
  induction h with
  | @intro e above habove _ ih =>
    have hall : ∀ es ⊆ above, ∃ row, r.Unrolls es row := by
      intro es hes
      induction es with
      | nil => exact ⟨[], .nil⟩
      | cons s rest ihrest =>
        obtain ⟨hs, hrest⟩ := List.cons_subset.mp hes
        obtain ⟨first, hfirst⟩ := ih s hs
        obtain ⟨others, hothers⟩ := ihrest hrest
        exact ⟨first ++ others, Unrolls.cons_iff.mpr ⟨first, others, hfirst, hothers, rfl⟩⟩
    obtain ⟨before, hbefore⟩ := hall above (List.Subset.refl above)
    exact ⟨before ++ [e], .cons habove hbefore .nil⟩

/-- The names of a row that are new to the known ones, each where it comes first. -/
def newNames (known row : List Text) : List Text := (row.removeAll known).eraseDups

theorem newNames_of_subset {known row : List Text} (h : row ⊆ known) : newNames known row = [] := by
  have hnone : row.removeAll known = [] := by
    simp only [List.removeAll, List.filter_eq_nil_iff, Bool.not_eq_true, Bool.not_eq_false']
    exact fun name hname => List.elem_iff.mpr (h hname)
  rw [newNames, hnone]
  rfl

theorem newNames_singleton {known : List Text} {name : Text} (h : name ∉ known) :
    newNames known [name] = [name] := by
  simp [newNames, List.removeAll, h, List.eraseDups_cons]

theorem mem_newNames {known row : List Text} {name : Text} :
    name ∈ newNames known row ↔ name ∈ row ∧ name ∉ known := by
  simp [newNames, List.removeAll, List.mem_eraseDups]

/-- The new names of two rows are those of the first, and then what is left of the second. -/
theorem newNames_append (known row more : List Text) :
    newNames known (row ++ more) =
      newNames known row ++ newNames (known ++ newNames known row) more := by
  have hrest : (more.removeAll known).removeAll (row.removeAll known) =
      more.removeAll (known ++ newNames known row) := by
    simp only [List.removeAll, List.filter_filter]
    refine List.filter_congr fun name _ => ?_
    by_cases hknown : name ∈ known <;> by_cases hrow : name ∈ row <;>
      simp [mem_newNames, hknown, hrow]
  have hsplit : (row ++ more).removeAll known = row.removeAll known ++ more.removeAll known := by
    simp only [List.removeAll, List.filter_append]
  rw [newNames, hsplit, List.eraseDups_append, hrest]
  rfl

theorem keys_forSupertypes {owner : EntityType}
    {act : EntityType → List EntityType → Except SchemaFault (List EntityType)}
    (hact : ∀ s done more row, r.Declares owner s → r.Settled done → act s done = .ok more →
      r.Unrolls [s] row → r.Settled more ∧ more.map EntityType.key =
        done.map EntityType.key ++ newNames (done.map EntityType.key) (row.map EntityType.key))
    {names : List Text} (hnames : names ⊆ owner.supertypes) {above done more row : List EntityType}
    (habove : r.supertypes owner names = .ok above) (hdone : r.Settled done)
    (h : r.forSupertypes owner act names done = .ok more) (hrow : r.Unrolls above row) :
    more.map EntityType.key =
      done.map EntityType.key ++ newNames (done.map EntityType.key) (row.map EntityType.key) := by
  induction names generalizing above done row with
  | nil =>
    cases habove
    cases hrow
    cases h
    rw [List.map_nil, newNames_of_subset (List.nil_subset _), List.append_nil]
  | cons name rest ih =>
    obtain ⟨hname, hrest⟩ := List.cons_subset.mp hnames
    obtain ⟨first, others, hfirst, hothers, rfl⟩ := supertypes_cons_eq_ok habove
    obtain ⟨before, after, hbefore, hafter, rfl⟩ := Unrolls.cons_iff.mp hrow
    rw [forSupertypes, supertype_eq_ok.mpr hfirst] at h
    dsimp only at h
    split at h
    · cases h
    · rename_i between hbetween
      obtain ⟨hsettled, hkeys⟩ :=
        hact first done between before ⟨name, hname, hfirst⟩ hdone hbetween hbefore
      rw [ih hrest hothers hsettled h hafter, hkeys, List.map_append, newNames_append,
        List.append_assoc]

theorem keys_linearizeOnto {depth : Nat} {path : List Text} {done more row : List EntityType}
    (he : r.IsRegistered e) (hrooted : r.Rooted e) (hascent : r.Ascent path e)
    (hdepth : r.types.length + 2 ≤ depth + path.length) (hdone : r.Settled done)
    (h : r.linearizeOnto depth path e done = .ok more) (hrow : r.Unrolls [e] row) :
    r.Settled more ∧ more.map EntityType.key =
      done.map EntityType.key ++ newNames (done.map EntityType.key) (row.map EntityType.key) := by
  induction depth generalizing path e done more row with
  | zero => cases h
  | succ depth ih =>
    have hsettled : r.Settled more := by
      obtain ⟨own, hown, hadds⟩ := linearizeOnto_of_rooted he hrooted hascent hdepth hdone
      exact Except.ok.inj (hown.symm.trans h) ▸ hadds.settled
    refine ⟨hsettled, ?_⟩
    unfold linearizeOnto at h
    split at h
    · cases h
    · rename_i hnew
      rw [List.contains_iff_mem] at hnew
      split at h
      · -- With the entity type, all that it specializes has been listed before.
        rename_i hlisted
        cases h
        have hmem := hdone.mem_of_key he (List.contains_iff_mem.mp hlisted)
        rw [newNames_of_subset, List.append_nil]
        intro key hkey
        obtain ⟨f, hf, rfl⟩ := List.mem_map.mp hkey
        obtain ⟨s, hs, hspecializes⟩ := hrow.specializes hf
        rw [List.mem_singleton.mp hs] at hspecializes
        exact List.mem_map_of_mem (hdone.specializes hmem hspecializes)
      · split at h
        · cases h
        · rename_i above habove
          cases h
          cases hrow with
          | @cons _ _ supers before _ hsupers hbefore hafter =>
            cases hafter
            have hkeys := keys_forSupertypes (fun s done more row hdeclares hsettled hact hunrolls =>
              ih (isRegistered_of_declares hdeclares) (hrooted.of_declares hdeclares)
                (hascent.step he hnew hdeclares)
                (by rw [List.length_append, List.length_singleton]; omega) hsettled hact hunrolls)
              (List.Subset.refl _) hsupers hdone habove hbefore
            have hlast : e.key ∉ above.map EntityType.key := by
              have hdistinct := hsettled.distinct
              rw [List.map_append, List.map_singleton, List.nodup_append] at hdistinct
              exact fun hmem => hdistinct.2.2 _ hmem _ (List.mem_singleton_self _) rfl
            rw [hkeys] at hlast
            rw [List.map_append, List.map_append, List.map_singleton, newNames_append, hkeys,
              newNames_singleton hlast, List.append_assoc]

/-- The linearization is the unrolled hierarchy with each entity type in its first place only. -/
theorem keys_linearization (he : r.IsRegistered e) {chain row : List EntityType}
    (h : r.linearization e = .ok chain) (hrow : r.Unrolls [e] row) :
    chain.map EntityType.key = (row.map EntityType.key).eraseDups := by
  obtain ⟨-, hkeys⟩ := keys_linearizeOnto he (rooted_of_linearization h) ⟨List.nodup_nil, nofun⟩
    (Nat.le_add_right _ _) r.settled_nil h hrow
  simpa [newNames, List.removeAll] using hkeys

/-! ## Linear orders -/

/-- A list is the linear order of an entity type: each of its ancestors once and behind all its
own supertypes, the entity type itself at last, in the order in which a walk up leaves them. -/
structure IsLinearOrder (r : Registry) (e : EntityType) (chain : List EntityType) : Prop where
  distinct : (chain.map EntityType.key).Nodup
  ancestors : ∃ names, r.ancestors e = .ok names ∧
    ∀ f, f ∈ chain ↔ r.IsRegistered f ∧ f.key ∈ names
  ordered : ∀ before f after, chain = before ++ f :: after → ∀ s, r.Declares f s → s ∈ before
  last : ∃ above, chain = above ++ [e]
  depthFirst : ∃ row, r.Unrolls [e] row ∧
    chain.map EntityType.key = (row.map EntityType.key).eraseDups

theorem isLinearOrder_of_linearization (he : r.IsRegistered e) {chain : List EntityType}
    (h : r.linearization e = .ok chain) : r.IsLinearOrder e chain := by
  obtain ⟨hsettled, hmem⟩ := linearization_eq_ok he h
  obtain ⟨hrooted, above, -, hchain⟩ := listed_of_linearization h
  obtain ⟨names, hnames⟩ := ancestors_of_rooted hrooted
  obtain ⟨row, hrow⟩ := hrooted.exists_unrolls
  refine ⟨hsettled.distinct, ⟨names, hnames, fun f => ?_⟩, hsettled.ordered, ⟨above, hchain⟩,
    row, hrow, keys_linearization he h hrow⟩
  rw [hmem, mem_ancestors he hnames]
  constructor
  · exact fun hf => ⟨isRegistered_of_specializes he hf, f, hf, rfl⟩
  · rintro ⟨hf, g, hg, hkey⟩
    exact (isRegistered_of_specializes he hg).eq_of_key hf hkey ▸ hg

/-! ## Attributes -/

/-- An entity type redeclares an attribute of another one as derived.  Both are named, letter case
ignored. -/
def Overrides (f owner : EntityType) (a : Attribute) : Prop :=
  ∃ pair ∈ f.overrides, pair.1.upper = owner.key ∧ pair.2.lower = a.name.lower

/-- An attribute as it is given out for one that an entity type declares: the same but for being
derived, which it is also if some of the entity types redeclare it. -/
structure GivenAs (among : List EntityType) (declared : EntityType × Attribute) (a : Attribute) :
    Prop where
  name : a.name = declared.2.name
  type : a.type = declared.2.type
  optional : a.optional = declared.2.optional
  derived : a.derived = true ↔
    declared.2.derived = true ∨ ∃ f ∈ among, Overrides f declared.1 declared.2

/-- The attributes that an entity type declares itself, each with it. -/
def declarations (e : EntityType) : List (EntityType × Attribute) := e.attributes.map fun a => (e, a)

theorem redeclared_eq_true {among : List EntityType} {owner : EntityType} {a : Attribute} :
    redeclared among owner a = true ↔ ∃ f ∈ among, Overrides f owner a := by
  simp [redeclared, Overrides]

theorem givenAs_declaredAttributes (among : List EntityType) (e : EntityType) :
    List.Forall₂ (GivenAs among) (declarations e) (declaredAttributes among e) := by
  rw [declarations, declaredAttributes, List.forall₂_map_left_iff, List.forall₂_map_right_iff,
    List.forall₂_same]
  intro a _
  exact ⟨rfl, rfl, rfl, by rw [Bool.or_eq_true, redeclared_eq_true]⟩

/-- Only one list of attributes is given out for those that are declared. -/
theorem givenAs_unique {among : List EntityType} : Relator.RightUnique (GivenAs among) := by
  rintro declared ⟨name, type, optional, derived⟩ ⟨name', type', optional', derived'⟩ h h'
  obtain rfl : name = name' := h.name.trans h'.name.symm
  obtain rfl : type = type' := h.type.trans h'.type.symm
  obtain rfl : optional = optional' := h.optional.trans h'.optional.symm
  obtain rfl : derived = derived' := Bool.eq_iff_iff.mpr (h.derived.trans h'.derived.symm)
  rfl

theorem givenAs_iff {among : List EntityType} {declared : List (EntityType × Attribute)}
    {given attributes : List Attribute} (hgiven : List.Forall₂ (GivenAs among) declared given) :
    attributes = given ↔ List.Forall₂ (GivenAs among) declared attributes :=
  ⟨fun h => h ▸ hgiven, fun h => givenAs_unique.forall₂ h hgiven⟩

theorem attributesOf_eq_ok {attributes : List Attribute} :
    r.attributesOf e = .ok attributes ↔ ∃ chain, r.linearization e = .ok chain ∧
      List.Forall₂ (GivenAs chain) (chain.flatMap declarations) attributes := by
  have hgiven : ∀ chain, List.Forall₂ (GivenAs chain) (chain.flatMap declarations)
      (chain.flatMap (declaredAttributes chain)) := fun chain =>
    List.rel_flatMap (List.forall₂_same.mpr fun _ _ => rfl)
      fun f _ hsame => hsame ▸ givenAs_declaredAttributes chain f
  simp only [← givenAs_iff (hgiven _)]
  unfold attributesOf
  cases r.linearization e with
  | error fault => simp
  | ok chain => simp [eq_comm]

/-- The linearizations of several entity types are there if each of them is. -/
theorem linearizations_eq_ok {es all : List EntityType} :
    r.linearizations es = .ok all ↔ ∃ chains,
      List.Forall₂ (fun d chain => r.linearization d = .ok chain) es chains ∧
        all = chains.flatten := by
  induction es generalizing all with
  | nil => simp [linearizations, eq_comm]
  | cons e rest ih =>
    unfold linearizations
    constructor
    · intro h
      split at h
      · cases h
      · rename_i first hfirst
        split at h
        · cases h
        · rename_i others hothers
          cases h
          obtain ⟨chains, hchains, rfl⟩ := ih.mp hothers
          exact ⟨first :: chains, .cons hfirst hchains, rfl⟩
    · rintro ⟨chains, hchains, rfl⟩
      cases hchains with
      | cons hfirst hrest =>
        rw [hfirst]
        dsimp only
        rw [ih.mpr ⟨_, hrest, rfl⟩]
        rfl

theorem ownAttributes_eq_ok {others : List EntityType} {attributes : List Attribute} :
    r.ownAttributes e others = .ok attributes ↔ ∃ chains,
      List.Forall₂ (fun d chain => r.linearization d = .ok chain) (e :: others) chains ∧
        List.Forall₂ (GivenAs chains.flatten) (declarations e) attributes := by
  simp only [← givenAs_iff (givenAs_declaredAttributes _ e)]
  unfold ownAttributes
  constructor
  · intro h
    split at h
    · cases h
    · rename_i all hall
      cases h
      obtain ⟨chains, hchains, rfl⟩ := linearizations_eq_ok.mp hall
      exact ⟨chains, hchains, rfl⟩
  · rintro ⟨chains, hchains, rfl⟩
    rw [linearizations_eq_ok.mpr ⟨chains, hchains, rfl⟩]

/-- The attributes of a registered entity type.  It has some just if its hierarchy is founded, and
else the fault is a flaw of the hierarchy.  They come along the linearization, which is the linear
order of the entity type: those that each of the entity types declares, and derived also where one
of them redeclares them.  Beside other entity types, what the entity type declares itself is derived
also where there is a redeclaration in one of the linearizations of all of them. -/
theorem attributes_laid_out (he : r.IsRegistered e) :
    ((∃ attributes, r.attributesOf e = .ok attributes) ↔ r.Founded e) ∧
    (∀ fault, r.attributesOf e = .error fault → r.IsFlaw e fault) ∧
    (∀ attributes, r.attributesOf e = .ok attributes ↔ ∃ chain, r.linearization e = .ok chain ∧
      r.IsLinearOrder e chain ∧
      List.Forall₂ (GivenAs chain) (chain.flatMap declarations) attributes) ∧
    ∀ others attributes, r.ownAttributes e others = .ok attributes ↔ ∃ chains,
      List.Forall₂ (fun d chain => r.linearization d = .ok chain) (e :: others) chains ∧
      List.Forall₂ (GivenAs chains.flatten) (declarations e) attributes := by
  refine ⟨?_, fun fault h => ?_, fun attributes => ?_, fun others attributes => ownAttributes_eq_ok⟩
  · rw [← rooted_iff he]
    constructor
    · rintro ⟨attributes, h⟩
      exact rooted_of_attributesOf h
    · intro hrooted
      obtain ⟨chain, hchain, -⟩ := linearization_of_rooted he hrooted
      exact ⟨chain.flatMap (declaredAttributes chain), by rw [attributesOf, hchain]⟩
  · unfold attributesOf at h
    split at h
    · rename_i hfault
      cases h
      exact isFlaw_of_linearization he hfault
    · cases h
  · rw [attributesOf_eq_ok]
    refine exists_congr fun chain => and_congr_right fun hchain => ?_
    exact (and_iff_right (isLinearOrder_of_linearization he hchain)).symm

end Registry

/-! ## A sample -/

namespace Sample

/-- A type with two supertypes that have one in common, of which one redeclares its attribute. -/
def diamond : Registry :=
  [⟨"ROOT", [⟨"id", .simple .integer, false, false⟩], [], false, []⟩,
    ⟨"LEFT", [⟨"l", .simple .real, true, false⟩], ["root"], false, []⟩,
    ⟨"RIGHT", [⟨"r", .simple .real, true, false⟩], ["Root"], false, [("root", "ID")]⟩,
    ⟨"BOTH", [⟨"b", .simple .string, false, false⟩], ["LEFT", "RIGHT"], false, []⟩].foldl
    (fun r e => (r.register (.entity e) false).toOption.getD r) (.initial "diamond")

/-- The type with two supertypes. -/
def both : EntityType :=
  ⟨"BOTH", [⟨"b", .simple .string, false, false⟩], ["LEFT", "RIGHT"], false, []⟩

end Sample

namespace Registry

theorem attributes_laid_out_diamond :
    Sample.diamond.IsRegistered Sample.both ∧ Sample.diamond.Founded Sample.both ∧
      ∃ chain, Sample.diamond.IsLinearOrder Sample.both chain ∧
        chain.map EntityType.key = ["ROOT", "LEFT", "RIGHT", "BOTH"] ∧
        List.Forall₂ (GivenAs chain) (chain.flatMap declarations)
          [⟨"id", .simple .integer, false, true⟩, ⟨"l", .simple .real, true, false⟩,
            ⟨"r", .simple .real, true, false⟩, ⟨"b", .simple .string, false, false⟩] := by
  have he : Sample.diamond.IsRegistered Sample.both := ⟨"both", rfl⟩
  obtain ⟨hfounded, -, hattributes, -⟩ := attributes_laid_out he
  obtain ⟨chain, hchain, horder, hgiven⟩ := (hattributes _).mp rfl
  refine ⟨he, hfounded.mp ⟨_, rfl⟩, chain, horder, ?_, hgiven⟩
  have hkeys : (Sample.diamond.linearization Sample.both).map (List.map EntityType.key) =
      .ok ["ROOT", "LEFT", "RIGHT", "BOTH"] := rfl
  rw [hchain] at hkeys
  exact Except.ok.inj hkeys

end Registry

end Part21
