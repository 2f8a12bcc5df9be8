import Part21.Proofs.Schema.Checks

set_option autoImplicit false

/-!
# Circles of defined types

The way through references and defined types is the only one from its start, so it either comes to
its end or goes round a circle.  It is bounded by the number of types: whoever follows more
references than a registry has types comes to one of them twice, and from there round and round
(`Registry.circle_of_passed`).  So the bound decides nothing.  With any greater one the answer is
the same (`Registry.underlyingWithin_eq_underlying`), and that there is none means that the way is
endless, which no bound could change (`Registry.underlying_eq_endless_iff`).

Where all names are registered and no type is defined by itself, every way ends
(`Registry.Grounded.leads`).
-/

namespace Part21

namespace TypeDef

/-- The names that a type refers to as far as it is written out.  Entity types are not looked
into. -/
def referred : TypeDef → List Text
  | ref name => [name]
  | defined _ underlying => referred underlying
  | aggregate _ element _ _ _ => referred element
  | _ => []

/-- The names that a registered type refers to. -/
def refersTo : TypeDef → List Text
  | entity e => e.attributes.flatMap fun a => a.type.referred
  | t => t.referred

end TypeDef

namespace Registry

variable {r : Registry} {t u next : TypeDef} {seen : List Text}

/-! ## What was passed -/

/-- Registered types, none of them twice, that were passed on a way.  `Behind` is what is known of
each. -/
structure Passed (r : Registry) (Behind : TypeDef → Prop) (seen : List Text) : Prop where
  way : r.Way seen
  behind : ∀ key ∈ seen, ∃ name u, r.find? name = some u ∧ u.key = key ∧ Behind u

namespace Passed

variable {Behind Further : TypeDef → Prop}

theorem nil (r : Registry) (Behind : TypeDef → Prop) : r.Passed Behind [] := ⟨.nil r, nofun⟩

theorem mono (h : r.Passed Behind seen) (himp : ∀ u, Behind u → Further u) :
    r.Passed Further seen where
  way := h.way
  behind key hmem := by
    obtain ⟨name, u, hfind, hkey, hbehind⟩ := h.behind key hmem
    exact ⟨name, u, hfind, hkey, himp u hbehind⟩

theorem append (h : r.Passed Behind seen) {name : Text} (hfind : r.find? name = some u)
    (hnew : u.key ∉ seen) (hbehind : Behind u) : r.Passed Behind (seen ++ [u.key]) where
  way := h.way.append hfind hnew
  behind key hmem := by
    rcases List.mem_append.mp hmem with hold | hself
    · exact h.behind key hold
    · exact ⟨name, u, hfind, (List.mem_singleton.mp hself).symm, hbehind⟩

/-- A registered type that was passed is known by its name. -/
theorem of_mem (h : r.Passed Behind seen) {name : Text} (hfind : r.find? name = some u)
    (hmem : u.key ∈ seen) : Behind u := by
  obtain ⟨other, v, hother, hkey, hbehind⟩ := h.behind u.key hmem
  have hsame : other.upper = name.upper :=
    (key_of_find? hother).symm.trans (hkey.trans (key_of_find? hfind))
  rw [find?_congr hsame, hfind] at hother
  exact Option.some.inj hother ▸ hbehind

end Passed

/-! ## Endless ways -/

/-- The way through references and defined types comes to no end. -/
def Endless (r : Registry) (t : TypeDef) : Prop := ∀ u, r.StandsFor t u → ∃ v, r.Unfolds u v

/-- A way never leaves a circle. -/
theorem circle_of_standsFor (hcircle : Relation.TransGen r.Unfolds t t) (h : r.StandsFor t u) :
    Relation.TransGen r.Unfolds u u := by
  induction h with
  | refl => exact hcircle
  | tail _ hunfolds ih =>
    obtain ⟨next, hnext, hback⟩ := Relation.TransGen.head'_iff.mp ih
    obtain rfl := hunfolds.unique hnext
    exact .tail' hback hunfolds

theorem endless_of_circle (h : r.StandsFor t u) (hcircle : Relation.TransGen r.Unfolds u u) :
    r.Endless t := by
  intro v hv
  have hunique : Relator.RightUnique r.Unfolds := fun _ _ _ => Unfolds.unique
  rcases Relation.ReflTransGen.total_of_right_unique hunique h hv with hbehind | hbefore
  · obtain ⟨next, hnext, _⟩ :=
      Relation.TransGen.head'_iff.mp (circle_of_standsFor hcircle hbehind)
    exact ⟨next, hnext⟩
  · rcases Relation.ReflTransGen.cases_head hbefore with rfl | ⟨next, hnext, _⟩
    · obtain ⟨next, hnext, _⟩ := Relation.TransGen.head'_iff.mp hcircle
      exact ⟨next, hnext⟩
    · exact ⟨next, hnext⟩

namespace Endless

theorem of_standsFor (h : r.Endless t) (hstands : r.StandsFor t u) : r.Endless u :=
  fun v hv => h v (hstands.trans hv)

theorem not_isGround (h : r.Endless t) (hstands : r.StandsFor t u) : u.isGround = false := by
  obtain ⟨v, hunfolds⟩ := h u hstands
  cases hunfolds <;> rfl

end Endless

/-! ## Going through -/

/-- Defined types that are written out lead to a type of another kind or to a reference. -/
theorem throughDefined_cases (r : Registry) (t : TypeDef) :
    (∃ u, u.isGround = true ∧ r.StandsFor t u ∧ ∀ follow, throughDefined follow t = .ok u) ∨
      ∃ name, r.StandsFor t (.ref name) ∧ ∀ follow, throughDefined follow t = follow name := by
  match t with
  | .ref name => exact .inr ⟨name, .refl, fun _ => rfl⟩
  | .defined name underlying =>
    have hfirst : r.Unfolds (.defined name underlying) underlying := .defined name underlying
    rcases throughDefined_cases r underlying with
      ⟨u, hground, hstands, hthrough⟩ | ⟨other, hstands, hthrough⟩
    · exact .inl ⟨u, hground, .head hfirst hstands, hthrough⟩
    · exact .inr ⟨other, .head hfirst hstands, hthrough⟩
  | .plain _ | .simple _ | .enumeration _ _ | .select _ _ | .aggregate _ _ _ _ _ | .entity _ =>
    exact .inl ⟨_, rfl, .refl, fun _ => rfl⟩

/-- The first reference of the way decides: there is none, its name is not registered, or it leads
to the next type. -/
theorem underlyingWithin_cases (r : Registry) (t : TypeDef) :
    (∃ u, u.isGround = true ∧ r.StandsFor t u ∧ ∀ references, r.underlyingWithin references t = .ok u) ∨
      ((∃ name, r.StandsFor t (.ref name) ∧ r.find? name = none ∧
          ∀ references, r.underlyingWithin (references + 1) t = .error (.undefined name)) ∨
        ∃ name next, Relation.TransGen r.Unfolds t next ∧ r.find? name = some next ∧
          ∀ references,
            r.underlyingWithin (references + 1) t = r.underlyingWithin references next) ∧
      r.underlyingWithin 0 t = .error .endless := by
  rcases throughDefined_cases r t with ⟨u, hground, hstands, hthrough⟩ | ⟨name, hstands, hthrough⟩
  · exact .inl ⟨u, hground, hstands, fun references => by cases references <;> exact hthrough _⟩
  · refine .inr ⟨?_, hthrough _⟩
    cases hfind : r.find? name with
    | none =>
      refine .inl ⟨name, hstands, hfind, fun references => ?_⟩
      rw [underlyingWithin, hthrough, hfind]
    | some next =>
      refine .inr ⟨name, next, .tail' hstands (.ref hfind), hfind, fun references => ?_⟩
      rw [underlyingWithin, hthrough, hfind]

/-- To follow more references than a registry has types is to go round a circle, through a
registered type. -/
theorem circle_of_passed {references : Nat} (hpassed : r.Passed (r.StandsFor · t) seen)
    (hroom : r.types.length < seen.length + references)
    (h : r.underlyingWithin references t = .error .endless) :
    ∃ name u, r.find? name = some u ∧ r.StandsFor t u ∧ Relation.TransGen r.Unfolds u u := by
  induction references generalizing t seen with
  | zero =>
    have hlength := hpassed.way.length_le
    omega
  | succ references ih =>
    rcases underlyingWithin_cases r t with
      ⟨u, _, _, hok⟩ | ⟨⟨name, _, _, hmissing⟩ | ⟨name, next, hstands, hfind, hnext⟩, _⟩
    · rw [hok] at h
      cases h
    · rw [hmissing] at h
      cases h
    · rw [hnext] at h
      by_cases hmem : next.key ∈ seen
      · have hback : r.StandsFor next t := hpassed.of_mem hfind hmem
        exact ⟨name, next, hfind, hstands.to_reflTransGen, .trans_right hback hstands⟩
      · have hmore : r.Passed (r.StandsFor · next) (seen ++ [next.key]) :=
          (hpassed.mono fun u hu => hu.trans hstands.to_reflTransGen).append hfind hmem .refl
        obtain ⟨other, u, hother, hu, hcircle⟩ :=
          ih hmore (by rw [List.length_append, List.length_singleton]; omega) h
        exact ⟨other, u, hother, hstands.to_reflTransGen.trans hu, hcircle⟩

theorem underlyingWithin_of_endless (h : r.Endless t) (references : Nat) :
    r.underlyingWithin references t = .error .endless := by
  induction references generalizing t with
  | zero =>
    rcases underlyingWithin_cases r t with ⟨u, hground, hstands, _⟩ | ⟨_, hzero⟩
    · rw [h.not_isGround hstands] at hground
      cases hground
    · exact hzero
  | succ references ih =>
    rcases underlyingWithin_cases r t with
      ⟨u, hground, hstands, _⟩ | ⟨⟨name, hstands, hnone, _⟩ | ⟨name, next, hstands, _, hnext⟩, _⟩
    · rw [h.not_isGround hstands] at hground
      cases hground
    · obtain ⟨v, hunfolds⟩ := h _ hstands
      cases hunfolds with
      | ref hfind => exact absurd hfind (by rw [hnone]; nofun)
    · rw [hnext]
      exact ih (h.of_standsFor hstands.to_reflTransGen)

theorem circle_of_underlying (h : r.underlying t = .error .endless) :
    ∃ name u, r.find? name = some u ∧ r.StandsFor t u ∧ Relation.TransGen r.Unfolds u u :=
  circle_of_passed (.nil r _) (by unfold referenceLimit; omega) h

/-- There is no answer exactly if the way comes to no end. -/
theorem underlying_eq_endless_iff : r.underlying t = .error .endless ↔ r.Endless t := by
  refine ⟨fun h => ?_, fun h => underlyingWithin_of_endless h _⟩
  obtain ⟨_, u, _, hstands, hcircle⟩ := circle_of_underlying h
  exact endless_of_circle hstands hcircle

/-- An answer that was found stays if more references may be followed. -/
theorem underlyingWithin_of_le {references more : Nat} (hle : references ≤ more)
    (h : r.underlyingWithin references t ≠ .error .endless) :
    r.underlyingWithin more t = r.underlyingWithin references t := by
  induction references generalizing t more with
  | zero =>
    rcases underlyingWithin_cases r t with ⟨u, _, _, hok⟩ | ⟨_, hzero⟩
    · rw [hok, hok]
    · exact absurd hzero h
  | succ references ih =>
    obtain ⟨more, rfl⟩ := Nat.exists_eq_add_of_le' (Nat.le_trans (Nat.le_add_left 1 references) hle)
    rcases underlyingWithin_cases r t with
      ⟨u, _, _, hok⟩ | ⟨⟨name, _, _, hmissing⟩ | ⟨name, next, _, _, hnext⟩, _⟩
    · rw [hok, hok]
    · rw [hmissing, hmissing]
    · rw [hnext, hnext]
      exact ih (by omega) (hnext references ▸ h)

/-- With any greater bound the answer is the same. -/
theorem underlyingWithin_eq_underlying {references : Nat} (hle : r.referenceLimit ≤ references)
    (t : TypeDef) : r.underlyingWithin references t = r.underlying t := by
  by_cases h : r.underlying t = .error .endless
  · rw [h]
    exact underlyingWithin_of_endless (underlying_eq_endless_iff.mp h) references
  · exact underlyingWithin_of_le hle h

/-- A way that comes to no end apart, only a name that is not registered is in the way. -/
theorem undefined_of_underlyingWithin {references : Nat} {fault : SchemaFault}
    (h : r.underlyingWithin references t = .error fault) (hfault : fault ≠ .endless) :
    ∃ name, r.StandsFor t (.ref name) ∧ r.find? name = none ∧ fault = .undefined name := by
  induction references generalizing t with
  | zero =>
    rcases underlyingWithin_cases r t with ⟨u, _, _, hok⟩ | ⟨_, hzero⟩
    · rw [hok] at h
      cases h
    · rw [hzero] at h
      exact absurd (Except.error.inj h).symm hfault
  | succ references ih =>
    rcases underlyingWithin_cases r t with
      ⟨u, _, _, hok⟩ | ⟨⟨name, hstands, hnone, hmissing⟩ | ⟨name, next, hstands, _, hnext⟩, _⟩
    · rw [hok] at h
      cases h
    · rw [hmissing] at h
      exact ⟨name, hstands, hnone, (Except.error.inj h).symm⟩
    · rw [hnext] at h
      obtain ⟨other, hother, hnone, hsame⟩ := ih h
      exact ⟨other, hstands.to_reflTransGen.trans hother, hnone, hsame⟩

theorem leads_of_throughDefined {follow : Text → Except SchemaFault TypeDef} {references : Nat}
    (hfollow : ∀ name, follow name = .ok u → r.Leads references (.ref name)) {t : TypeDef}
    (h : throughDefined follow t = .ok u) : r.Leads references t := by
  match t with
  | .ref name => exact hfollow name h
  | .defined name underlying => exact .defined (leads_of_throughDefined hfollow h)
  | .plain _ | .simple _ | .enumeration _ _ | .select _ _ | .aggregate _ _ _ _ _ | .entity _ =>
    exact .ground rfl

/-- The way to an answer is one within the references it takes. -/
theorem leads_of_underlyingWithin {references : Nat} {t : TypeDef}
    (h : r.underlyingWithin references t = .ok u) : r.Leads references t := by
  induction references generalizing t with
  | zero => exact leads_of_throughDefined (fun name hname => by cases hname) h
  | succ references ih =>
    refine leads_of_throughDefined (fun name hname => ?_) h
    split at hname
    · rename_i next hfind
      exact .ref hfind (ih hname)
    · cases hname

/-! ## Registries in which every way ends -/

/-- All names that the type refers to are registered. -/
def Known (r : Registry) (t : TypeDef) : Prop := ∀ name ∈ t.referred, ∃ u, r.find? name = some u

/-- All names that the types refer to are registered, and no type is defined by itself. -/
structure Grounded (r : Registry) : Prop where
  known : ∀ entry ∈ r.types, ∀ name ∈ entry.2.refersTo, r.contains name = true
  acyclic : ∀ entry ∈ r.types, ¬ Relation.TransGen r.Unfolds entry.2 entry.2

namespace Grounded

theorem known_of_find? (h : r.Grounded) {name : Text} (hfind : r.find? name = some t) : r.Known t := by
  intro other hother
  apply Option.isSome_iff_exists.mp
  apply h.known _ (mem_types_of_find? hfind) other
  cases t with
  | entity e => cases hother
  | _ => exact hother

theorem known_of_standsFor (h : r.Grounded) (ht : r.Known t) (hstands : r.StandsFor t u) :
    r.Known u := by
  induction hstands with
  | refl => exact ht
  | tail _ hunfolds ih =>
    cases hunfolds with
    | ref hfind => exact h.known_of_find? hfind
    | defined => exact ih

theorem known_element (h : r.Grounded) (ht : r.Known t) {name : Text} {element : TypeDef}
    {kind : AggregateKind} {lower : Int} {upper : Option Int}
    (hstands : r.StandsFor t (.aggregate name element kind lower upper)) : r.Known element := by
  have hknown : r.Known (.aggregate name element kind lower upper) := h.known_of_standsFor ht hstands
  exact hknown

theorem known_attribute (h : r.Grounded) {e : EntityType} (he : r.IsRegistered e) {a : Attribute}
    (ha : a ∈ e.attributes) : r.Known a.type := by
  obtain ⟨own, hown⟩ := he
  intro name hname
  apply Option.isSome_iff_exists.mp
  exact h.known _ (mem_types_of_find? (find?_of_entity hown)) name
    (List.mem_flatMap.mpr ⟨a, ha, hname⟩)

theorem leads (h : r.Grounded) (ht : r.Known t) : r.Leads r.referenceLimit t := by
  cases hunderlying : r.underlying t with
  | ok u => exact leads_of_underlyingWithin hunderlying
  | error fault =>
    by_cases hendless : fault = .endless
    · subst hendless
      obtain ⟨name, u, hfind, _, hcircle⟩ := circle_of_underlying hunderlying
      exact absurd hcircle (h.acyclic _ (mem_types_of_find? hfind))
    · obtain ⟨name, hstands, hnone, _⟩ := undefined_of_underlyingWithin hunderlying hendless
      obtain ⟨u, hfind⟩ := h.known_of_standsFor ht hstands name (List.mem_singleton_self name)
      rw [hnone] at hfind
      cases hfind

end Grounded

end Registry

end Part21
