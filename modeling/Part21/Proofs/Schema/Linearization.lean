import Mathlib.Data.List.Nodup
import Mathlib.Data.List.Perm.Subperm
import Part21.Proofs.Schema.Supertypes

set_option autoImplicit false

/-!
# Linearizations

A linearization is made on a walk up the supertypes, with a bound on its depth.  Of a rooted
entity type no way up comes to the same type again, so none is longer than the registry has types
and the bound is never met.  What is listed in the end are the entity types that the first one
specializes, each of them once (`Registry.linearization_of_rooted`).

A redeclaration counts wherever it stands in the list.  So the attributes that an entity type of
a linearization declares are the same for the whole of it and for this type among the others
(`Registry.ownAttributes_of_mem`).
-/

namespace Part21

namespace Registry

variable {r : Registry} {e : EntityType} {done more : List EntityType}

/-! ## What has been listed -/

/-- Entity types, none twice, and before each one all its supertypes. -/
structure Settled (r : Registry) (done : List EntityType) : Prop where
  distinct : (done.map EntityType.key).Nodup
  registered : ∀ e ∈ done, r.IsRegistered e
  ordered : ∀ before e after, done = before ++ e :: after → ∀ s, r.Declares e s → s ∈ before

theorem settled_nil (r : Registry) : r.Settled [] :=
  ⟨List.nodup_nil, nofun, fun _ _ _ hnil => by simp at hnil⟩

namespace Settled

theorem closed (h : r.Settled done) (he : e ∈ done) {s : EntityType} (hdeclares : r.Declares e s) :
    s ∈ done := by
  obtain ⟨before, after, rfl⟩ := List.append_of_mem he
  exact List.mem_append_left _ (h.ordered before e after rfl s hdeclares)

theorem specializes (h : r.Settled done) {f : EntityType} (he : e ∈ done)
    (hspecializes : r.Specializes e f) : f ∈ done := by
  induction hspecializes with
  | refl => exact he
  | tail _ hdeclares ih => exact h.closed ih hdeclares

/-- Entity types in the list are told apart by their names. -/
theorem mem_of_key (h : r.Settled done) (he : r.IsRegistered e)
    (hkey : e.key ∈ done.map EntityType.key) : e ∈ done := by
  obtain ⟨f, hf, hsame⟩ := List.mem_map.mp hkey
  exact (h.registered f hf).eq_of_key he hsame ▸ hf

end Settled

/-- A list goes on with new entity types and all that these specialize. -/
structure Adds (r : Registry) (done new more : List EntityType) : Prop where
  settled : r.Settled more
  kept : ∀ e ∈ done, e ∈ more
  found : ∀ e ∈ new, e ∈ more
  only : ∀ e ∈ more, e ∈ done ∨ ∃ s ∈ new, r.Specializes s e

namespace Adds

theorem refl (h : r.Settled done) : r.Adds done [] done :=
  ⟨h, fun _ hmem => hmem, nofun, fun _ hmem => .inl hmem⟩

/-- To add what is listed already changes nothing. -/
theorem of_mem (h : r.Settled done) (he : e ∈ done) : r.Adds done [e] done where
  settled := h
  kept _ hmem := hmem
  found _ hmem := List.mem_singleton.mp hmem ▸ he
  only _ hmem := .inl hmem

theorem cons {first : EntityType} {others between : List EntityType}
    (hfirst : r.Adds done [first] between) (hothers : r.Adds between others more) :
    r.Adds done (first :: others) more where
  settled := hothers.settled
  kept e hmem := hothers.kept e (hfirst.kept e hmem)
  found := List.forall_mem_cons.mpr
    ⟨hothers.kept first (hfirst.found first (List.mem_singleton_self first)), hothers.found⟩
  only e hmem := by
    rcases hothers.only e hmem with hbetween | ⟨s, hs, hspecializes⟩
    · rcases hfirst.only e hbetween with hdone | ⟨s, hs, hspecializes⟩
      · exact .inl hdone
      · exact .inr ⟨s, List.mem_cons.mpr (.inl (List.mem_singleton.mp hs)), hspecializes⟩
    · exact .inr ⟨s, List.mem_cons_of_mem first hs, hspecializes⟩

/-- Behind all its supertypes an entity type comes itself. -/
theorem behind {above : List EntityType} (he : r.IsRegistered e) (hrooted : r.Rooted e)
    (habove : r.supertypes e e.supertypes = .ok above)
    (hnew : e.key ∉ done.map EntityType.key) (h : r.Adds done above more) :
    r.Adds done [e] (more ++ [e]) where
  settled := by
    have hmissing : e.key ∉ more.map EntityType.key := by
      intro hkey
      rcases h.only e (h.settled.mem_of_key he hkey) with hdone | ⟨s, hs, hback⟩
      · exact hnew (List.mem_map_of_mem hdone)
      · have hdeclares : r.Declares e s := (mem_supertypes habove).mp hs
        exact hrooted.acyclic (.head' hdeclares hback)
    refine ⟨?_, ?_, ?_⟩
    · rw [List.map_append, List.map_singleton]
      exact List.nodup_append.mpr
        ⟨h.settled.distinct, List.nodup_singleton _, fun key hkey own hown hsame =>
          hmissing (List.mem_singleton.mp hown ▸ hsame ▸ hkey)⟩
    · rw [List.forall_mem_append]
      exact ⟨h.settled.registered, fun f hf => List.mem_singleton.mp hf ▸ he⟩
    · intro before f after hsplit s hdeclares
      rcases List.eq_nil_or_concat after with rfl | ⟨others, last, rfl⟩
      · obtain ⟨rfl, hself⟩ := List.append_inj' hsplit rfl
        rw [← (List.cons.inj hself).1] at hdeclares
        exact h.found s ((mem_supertypes habove).mpr hdeclares)
      · have hinside : more ++ [e] = (before ++ f :: others) ++ [last] := by
          rw [hsplit, List.concat_eq_append, List.append_assoc, List.cons_append]
        exact h.settled.ordered before f others (List.append_inj' hinside rfl).1 s hdeclares
  kept f hf := List.mem_append_left _ (h.kept f hf)
  found f hf := List.mem_append_right _ hf
  only f hf := by
    rcases List.mem_append.mp hf with hold | hself
    · refine (h.only f hold).imp_right fun ⟨s, hs, hspecializes⟩ => ?_
      exact ⟨e, List.mem_singleton_self e, .head ((mem_supertypes habove).mp hs) hspecializes⟩
    · exact .inr ⟨e, List.mem_singleton_self e, List.mem_singleton.mp hself ▸ .refl⟩

end Adds

/-! ## The way up -/

/-- The way up to an entity type: the names of registered subtypes of it, none twice. -/
structure Ascent (r : Registry) (path : List Text) (e : EntityType) : Prop where
  distinct : path.Nodup
  below : ∀ key ∈ path, ∃ p, r.IsRegistered p ∧ p.key = key ∧ Relation.TransGen r.Declares p e

namespace Ascent

variable {path : List Text}

/-- The way up is no longer than the registry has types. -/
theorem length_le (h : r.Ascent path e) : path.length ≤ r.types.length := by
  rw [← @List.length_map _ _ r.types Prod.fst]
  refine (h.distinct.subperm fun key hmem => ?_).length_le
  obtain ⟨p, ⟨name, hname⟩, rfl, _⟩ := h.below key hmem
  have hfind := find?_of_entity hname
  have hkey : p.key = name.upper := key_of_find? hfind
  exact hkey ▸ List.mem_map_of_mem (mem_types_of_find? hfind)

/-- An entity type on the way up to itself is its own supertype. -/
theorem cyclic_of_mem (h : r.Ascent path e) (he : r.IsRegistered e) (hmem : e.key ∈ path) :
    Relation.TransGen r.Declares e e := by
  obtain ⟨p, hp, hsame, hback⟩ := h.below e.key hmem
  obtain rfl := hp.eq_of_key he hsame
  exact hback

theorem step (h : r.Ascent path e) (he : r.IsRegistered e) (hnew : e.key ∉ path) {s : EntityType}
    (hdeclares : r.Declares e s) : r.Ascent (path ++ [e.key]) s where
  distinct := List.nodup_append.mpr
    ⟨h.distinct, List.nodup_singleton _, fun key hkey own hown hsame =>
      hnew (List.mem_singleton.mp hown ▸ hsame ▸ hkey)⟩
  below key hmem := by
    rcases List.mem_append.mp hmem with hold | hself
    · obtain ⟨p, hp, hkey, hbelow⟩ := h.below key hold
      exact ⟨p, hp, hkey, hbelow.tail hdeclares⟩
    · exact ⟨e, he, (List.mem_singleton.mp hself).symm, .single hdeclares⟩

end Ascent

/-! ## Linearizing -/

theorem forSupertypes_eq_ok {owner : EntityType}
    {act : EntityType → List EntityType → Except SchemaFault (List EntityType)}
    (hact : ∀ s done, r.Declares owner s → r.Settled done →
      ∃ more, act s done = .ok more ∧ r.Adds done [s] more)
    {names : List Text} (hnames : names ⊆ owner.supertypes) {above : List EntityType}
    (habove : r.supertypes owner names = .ok above) (hdone : r.Settled done) :
    ∃ more, r.forSupertypes owner act names done = .ok more ∧ r.Adds done above more := by
  induction names generalizing above done with
  | nil =>
    cases habove
    exact ⟨done, rfl, .refl hdone⟩
  | cons name rest ih =>
    obtain ⟨hname, hrest⟩ := List.cons_subset.mp hnames
    obtain ⟨first, others, hfirst, hothers, rfl⟩ := supertypes_cons_eq_ok habove
    obtain ⟨between, hbetween, hadds⟩ := hact first done ⟨name, hname, hfirst⟩ hdone
    obtain ⟨more, hmore, hrestAdds⟩ := ih hrest hothers hadds.settled
    refine ⟨more, ?_, hadds.cons hrestAdds⟩
    rw [forSupertypes, supertype_eq_ok.mpr hfirst]
    dsimp only
    rw [hbetween]
    exact hmore

theorem linearizeOnto_of_rooted {depth : Nat} {path : List Text} (he : r.IsRegistered e)
    (hrooted : r.Rooted e) (hascent : r.Ascent path e)
    (hdepth : r.types.length + 2 ≤ depth + path.length) (hdone : r.Settled done) :
    ∃ more, r.linearizeOnto depth path e done = .ok more ∧ r.Adds done [e] more := by
  induction depth generalizing path e done with
  | zero =>
    have hlength := hascent.length_le
    omega
  | succ depth ih =>
    have hnone : e.key ∉ path := fun hmem => hrooted.acyclic (hascent.cyclic_of_mem he hmem)
    have hpath : path.contains e.key = false := by
      rwa [Bool.eq_false_iff, ne_eq, List.contains_iff_mem]
    unfold linearizeOnto
    rw [hpath]
    simp only [Bool.false_eq_true, if_false]
    split
    · rename_i hlisted
      exact ⟨done, rfl, .of_mem hdone (hdone.mem_of_key he (List.contains_iff_mem.mp hlisted))⟩
    · rename_i hnew
      rw [List.contains_iff_mem] at hnew
      cases hrooted with
      | @intro _ above habove habove' =>
        have hself : r.Rooted e := .intro habove habove'
        have hact : ∀ s done, r.Declares e s → r.Settled done →
            ∃ more, r.linearizeOnto depth (path ++ [e.key]) s done = .ok more ∧
              r.Adds done [s] more := by
          intro s done hdeclares hdone
          refine ih (isRegistered_of_declares hdeclares) (hself.of_declares hdeclares)
            (hascent.step he hnone hdeclares) ?_ hdone
          rw [List.length_append, List.length_singleton]
          omega
        obtain ⟨more, hmore, hadds⟩ :=
          forSupertypes_eq_ok hact (List.Subset.refl _) habove hdone
        refine ⟨more ++ [e], ?_, hadds.behind he hself habove hnew⟩
        rw [hmore]

/-- A rooted entity type has a linearization: what it specializes, and nothing twice. -/
theorem linearization_of_rooted (he : r.IsRegistered e) (hrooted : r.Rooted e) :
    ∃ chain, r.linearization e = .ok chain ∧ r.Settled chain ∧
      ∀ f, f ∈ chain ↔ r.Specializes e f := by
  obtain ⟨chain, hchain, hadds⟩ := linearizeOnto_of_rooted (r := r) he hrooted
    ⟨List.nodup_nil, nofun⟩ (Nat.le_add_right _ _) r.settled_nil
  have hself : e ∈ chain := hadds.found e (List.mem_singleton_self e)
  refine ⟨chain, hchain, hadds.settled, fun f => ⟨fun hmem => ?_, hadds.settled.specializes hself⟩⟩
  obtain ⟨s, hs, hspecializes⟩ := (hadds.only f hmem).resolve_left List.not_mem_nil
  exact List.mem_singleton.mp hs ▸ hspecializes

theorem linearization_eq_ok (he : r.IsRegistered e) {chain : List EntityType}
    (h : r.linearization e = .ok chain) :
    r.Settled chain ∧ ∀ f, f ∈ chain ↔ r.Specializes e f := by
  obtain ⟨own, hown, hsettled⟩ := linearization_of_rooted he (rooted_of_linearization h)
  exact Except.ok.inj (hown.symm.trans h) ▸ hsettled

theorem linearizations_of_listed {es : List EntityType} (h : r.Listed es) :
    ∃ all, r.linearizations es = .ok all ∧ ∀ f, f ∈ all ↔ ∃ e ∈ es, r.Specializes e f := by
  induction es with
  | nil => exact ⟨[], rfl, by simp⟩
  | cons e rest ih =>
    obtain ⟨⟨he, hrooted⟩, hrest⟩ := List.forall_mem_cons.mp h
    obtain ⟨chain, hchain, _, hmem⟩ := linearization_of_rooted he hrooted
    obtain ⟨others, hothers, hmem'⟩ := ih hrest
    refine ⟨chain ++ others, ?_, fun f => ?_⟩
    · rw [linearizations, hchain]
      dsimp only
      rw [hothers]
    · rw [List.mem_append, hmem, hmem', List.exists_mem_cons_iff]

/-! ## Attributes -/

/-- Only which entity types there are matters to redeclarations. -/
theorem declaredAttributes_congr {among others : List EntityType}
    (h : ∀ f, f ∈ among ↔ f ∈ others) (e : EntityType) :
    declaredAttributes among e = declaredAttributes others e := by
  have hany : ∀ test : EntityType → Bool, among.any test = others.any test := by
    intro test
    rw [Bool.eq_iff_iff, List.any_eq_true, List.any_eq_true]
    simp only [h]
  unfold declaredAttributes redeclared
  simp only [hany]

/-- An entity type of a list that has all supertypes declares the same attributes among the
others as it does in the list. -/
theorem ownAttributes_of_mem {chain : List EntityType} (hsettled : r.Settled chain)
    (hlisted : r.Listed chain) (he : e ∈ chain) :
    r.ownAttributes e (chain.filter fun other => other.key ≠ e.key) =
      .ok (declaredAttributes chain e) := by
  have hothers : r.Listed (e :: chain.filter fun other => other.key ≠ e.key) :=
    List.forall_mem_cons.mpr ⟨hlisted e he, fun f hf => hlisted f (List.mem_filter.mp hf).1⟩
  obtain ⟨all, hall, hmem⟩ := linearizations_of_listed hothers
  rw [ownAttributes, hall]
  dsimp only
  rw [declaredAttributes_congr fun f => ?_]
  rw [hmem, List.exists_mem_cons_iff]
  constructor
  · rintro (hbelow | ⟨s, hs, hbelow⟩)
    · exact hsettled.specializes he hbelow
    · exact hsettled.specializes (List.mem_filter.mp hs).1 hbelow
  · intro hf
    by_cases hkey : f.key = e.key
    · have hsame : f = e := (hsettled.registered f hf).eq_of_key (hsettled.registered e he) hkey
      exact .inl (hsame ▸ .refl)
    · exact .inr ⟨f, List.mem_filter.mpr ⟨hf, decide_eq_true hkey⟩, .refl⟩

end Registry

end Part21
