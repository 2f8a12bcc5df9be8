import Part21.Express.Schema
import Part21.Proofs.Schema.Inheritance
import Part21.Proofs.Schema.Nesting
import Part21.Proofs.Schema.Search

set_option autoImplicit false

/-!
# Validation

A registry is validated by searches that are each bounded by what the registry holds.  None of the
bounds matters: with greater ones every answer is the same (`Registry.BoundsSuffice`).  So a
validation that comes to an answer reports a fault or finds that no defined type is defined by
itself.  It comes to none where a search goes round without end: through a select of which an option
leads to a circle of defined types, which is looked at before the defined types are, or through
aggregates that contain themselves (`Registry.Stalls`).  These are all the cases
(`Registry.validate_outcome`).
-/

namespace Part21

/-- The fault is reported as an error of the schema.  The others are the one of a look-up that finds
nothing, and those of searches that come to no end. -/
def SchemaFault.isReported : SchemaFault → Bool
  | notFound _ => false
  | endless => false
  | bottomless => false
  | _ => true

/-- The types that are checked where a registered type is. -/
def TypeDef.checked : TypeDef → List TypeDef
  | entity e => e.attributes.map Attribute.type
  | select _ _ => []
  | t => [t]

namespace Registry

variable {r : Registry} {e : EntityType} {t : TypeDef}

/-! ## Bounds on the way up -/

theorem collectAncestors_of_le {steps more : Nat} {stack : List EntityType} {seen : List Text}
    (hregistered : ∀ e ∈ stack, r.IsRegistered e)
    (hroom : stack.length + unseenSupertypes seen r.types ≤ steps) (hle : steps ≤ more) :
    r.collectAncestors more stack seen = r.collectAncestors steps stack seen := by
  induction steps generalizing more stack seen with
  | zero =>
    obtain rfl : stack = [] := List.eq_nil_of_length_eq_zero (by omega)
    cases more <;> rfl
  | succ steps ih =>
    obtain ⟨more, rfl⟩ := Nat.exists_eq_add_of_le' (Nat.le_trans (Nat.le_add_left 1 steps) hle)
    cases stack with
    | nil => rfl
    | cons current stack =>
      obtain ⟨hcurrent, hstack⟩ := List.forall_mem_cons.mp hregistered
      rw [List.length_cons] at hroom
      rw [collectAncestors, collectAncestors]
      split
      · exact ih hstack (by omega) (Nat.le_of_succ_le_succ hle)
      · rename_i hnew
        rw [List.contains_iff_mem] at hnew
        split
        · rfl
        · rename_i above habove
          have hcount := unseenSupertypes_of_supertypes hcurrent hnew habove
          refine ih (isRegistered_of_stack habove hstack) ?_ (Nat.le_of_succ_le_succ hle)
          rw [List.length_append, List.length_reverse]
          omega

theorem forSupertypes_congr {owner : EntityType}
    {act other : EntityType → List EntityType → Except SchemaFault (List EntityType)}
    (hact : ∀ s done, r.Declares owner s → act s done = other s done) {names : List Text}
    (hnames : names ⊆ owner.supertypes) (done : List EntityType) :
    r.forSupertypes owner act names done = r.forSupertypes owner other names done := by
  induction names generalizing done with
  | nil => rfl
  | cons name rest ih =>
    obtain ⟨hname, hrest⟩ := List.cons_subset.mp hnames
    rw [forSupertypes, forSupertypes]
    split
    · rfl
    · rename_i above habove
      rw [hact above done ⟨name, hname, supertype_eq_ok.mp habove⟩]
      split
      · rfl
      · exact ih hrest _

theorem linearizeOnto_of_le {depth more : Nat} {path : List Text} {done : List EntityType}
    (he : r.IsRegistered e) (hascent : r.Ascent path e)
    (hdepth : r.types.length + 2 ≤ depth + path.length) (hle : depth ≤ more) :
    r.linearizeOnto more path e done = r.linearizeOnto depth path e done := by
  induction depth generalizing more path e done with
  | zero =>
    have hlength := hascent.length_le
    omega
  | succ depth ih =>
    obtain ⟨more, rfl⟩ := Nat.exists_eq_add_of_le' (Nat.le_trans (Nat.le_add_left 1 depth) hle)
    rw [linearizeOnto, linearizeOnto]
    split
    · rfl
    · rename_i hnew
      rw [List.contains_iff_mem] at hnew
      have hact : ∀ s done, r.Declares e s →
          r.linearizeOnto more (path ++ [e.key]) s done =
            r.linearizeOnto depth (path ++ [e.key]) s done := by
        intro s done hdeclares
        refine ih (isRegistered_of_declares hdeclares) (hascent.step he hnew hdeclares) ?_
          (Nat.le_of_succ_le_succ hle)
        rw [List.length_append, List.length_singleton]
        omega
      rw [forSupertypes_congr hact (List.Subset.refl _)]

/-- With greater bounds all searches have the same answers. -/
structure BoundsSuffice (r : Registry) : Prop where
  underlying : ∀ t references, r.referenceLimit ≤ references →
    r.underlyingWithin references t = r.underlying t
  checkType : ∀ t references, 2 * r.referenceLimit ≤ references →
    r.checkWithin references t [] = r.checkType t
  selectEntities : ∀ s steps, r.selectSteps s ≤ steps →
    r.collectEntities steps [s] [] [] = r.selectEntities s
  ancestors : ∀ e steps, r.IsRegistered e → r.ancestorSteps e ≤ steps →
    r.collectAncestors steps [e] [] = r.ancestors e
  linearization : ∀ e depth, r.IsRegistered e → r.types.length + 2 ≤ depth →
    r.linearizeOnto depth [] e [] = r.linearization e

theorem boundsSuffice (r : Registry) : r.BoundsSuffice where
  underlying t _ hle := underlyingWithin_eq_underlying hle t
  checkType t _ hle := checkWithin_eq_checkType hle t
  selectEntities _ _ hle := collectEntities_eq_selectEntities hle
  ancestors e steps he hle := by
    refine collectAncestors_of_le (fun own hown => List.mem_singleton.mp hown ▸ he) ?_ hle
    rw [unseenSupertypes_nil, ancestorSteps, total, List.length_singleton]
    omega
  linearization e depth he hle :=
    linearizeOnto_of_le he ⟨List.nodup_nil, nofun⟩ (Nat.le_add_right _ _) hle

/-! ## Faults -/

/-- A search comes to no end where a registered type is checked. -/
inductive Stalls (r : Registry) : TypeDef → SchemaFault → Prop
  | circle {name : Text} {options : List Text} (hoffers : r.OffersEndless options) :
      Stalls r (.select name options) .endless
  | nested {t part : TypeDef} (hpart : part ∈ t.checked) (hnested : r.Bottomless part) :
      Stalls r t .bottomless

theorem IsFlaw.isReported {fault : SchemaFault} (h : r.IsFlaw e fault) : fault.isReported = true := by
  cases h <;> rfl

theorem Withholds.isReported {options : List Text} {fault : SchemaFault}
    (h : r.Withholds options fault) (hfault : fault ≠ .endless) : fault.isReported = true := by
  cases h with
  | unknownOption | undefined => rfl
  | endless => exact absurd rfl hfault

theorem fault_of_checkType {fault : SchemaFault} (h : r.checkType t = .error fault) :
    fault.isReported = true ∨ fault = .bottomless ∧ r.Bottomless t := by
  rcases fault_of_checkWithin h with rfl | ⟨name, rfl⟩ | ⟨name, rfl⟩
  · exact .inr ⟨rfl, (bottomless_of_checkType h).1⟩
  · exact .inl rfl
  · exact .inl rfl

theorem fault_of_checkAttributes {attributes : List Attribute} {fault : SchemaFault}
    (h : r.checkAttributes attributes = .error fault) :
    fault.isReported = true ∨
      fault = .bottomless ∧ ∃ a ∈ attributes, r.Bottomless a.type := by
  induction attributes with
  | nil => cases h
  | cons a rest ih =>
    unfold checkAttributes at h
    split at h
    · rename_i own hfirst
      cases h
      exact (fault_of_checkType hfirst).imp_right
        (And.imp_right fun hnested => ⟨a, List.mem_cons_self, hnested⟩)
    · refine (ih h).imp_right (And.imp_right ?_)
      rintro ⟨own, hown, hnested⟩
      exact ⟨own, List.mem_cons_of_mem a hown, hnested⟩

theorem fault_of_checkOverrides (hrooted : r.Rooted e) {overrides : List (Text × Text)}
    {fault : SchemaFault} (h : r.checkOverrides e overrides = .error fault) :
    fault.isReported = true := by
  induction overrides with
  | nil => cases h
  | cons pair rest ih =>
    obtain ⟨names, hnames⟩ := ancestors_of_rooted hrooted
    unfold checkOverrides at h
    rw [hnames] at h
    dsimp only at h
    split at h
    · exact ih h
    · cases h
      rfl

/-- What is wrong with a registered type is reported, unless a search stalls. -/
theorem fault_of_checkRegistered {name : Text} (hfind : r.find? name = some t) {fault : SchemaFault}
    (h : r.checkRegistered t = .error fault) : fault.isReported = true ∨ r.Stalls t fault := by
  have hother : t.checked = [t] → r.checkType t = .error fault →
      fault.isReported = true ∨ r.Stalls t fault := by
    intro hchecked hcheck
    rcases fault_of_checkType hcheck with hreported | ⟨rfl, hnested⟩
    · exact .inl hreported
    · exact .inr (.nested (hchecked ▸ List.mem_singleton_self t) hnested)
  cases t with
  | entity e =>
    have he : r.IsRegistered e := isRegistered_of_entity? (entity?_eq_some.mpr hfind)
    unfold checkRegistered at h
    dsimp only at h
    split at h
    · rename_i own hlinear
      cases h
      exact .inl (isFlaw_of_linearization he hlinear).isReported
    · rename_i chain hchain
      split at h
      · rename_i own hattributes
        cases h
        rcases fault_of_checkAttributes hattributes with hreported | ⟨rfl, a, ha, hnested⟩
        · exact .inl hreported
        · exact .inr (.nested (List.mem_map_of_mem ha) hnested)
      · exact .inl (fault_of_checkOverrides (rooted_of_linearization hchain) h)
  | select own options =>
    unfold checkRegistered at h
    dsimp only at h
    split at h
    · rename_i hentities
      cases h
      have hwithholds := withholds_of_selectEntities hentities
      by_cases hfault : fault = .endless
      · subst hfault
        cases hwithholds with
        | endless hoffers => exact .inr (.circle hoffers)
      · exact .inl (hwithholds.isReported hfault)
    · cases h
  | _ => exact hother rfl h

/-- The first fault is the answer. -/
theorem checkAll_eq_error {types : List (Text × TypeDef)} {fault : SchemaFault}
    (h : r.checkAll types = .error fault) : ∃ before entry after, types = before ++ entry :: after ∧
      (∀ earlier ∈ before, r.checkRegistered earlier.2 = .ok ()) ∧
      r.checkRegistered entry.2 = .error fault := by
  induction types with
  | nil => cases h
  | cons entry rest ih =>
    unfold checkAll at h
    split at h
    · rename_i own hfirst
      cases h
      exact ⟨[], entry, rest, rfl, nofun, hfirst⟩
    · rename_i hfirst
      obtain ⟨before, other, after, rfl, hbefore, hother⟩ := ih h
      exact ⟨entry :: before, other, after, rfl, List.forall_mem_cons.mpr ⟨hfirst, hbefore⟩, hother⟩

/-! ## Circles of defined types -/

/-- A registered type that passes its check is not defined by itself. -/
theorem not_circle_of_checkRegistered (h : r.checkRegistered t = .ok ()) :
    ¬ Relation.TransGen r.Unfolds t t := by
  intro hcircle
  obtain ⟨u, hfirst, _⟩ := Relation.TransGen.head'_iff.mp hcircle
  have hchecked : r.Checked t [] := by
    cases hfirst with
    | ref | defined => exact ⟨_, h⟩
  exact hchecked.not_endless (endless_of_circle .refl hcircle)

/-- A validation comes to an answer, and no bound of a search plays a part in it: all is well, and
no registered type is defined by itself, or a fault is reported.  Otherwise a search has stalled at
the first type that does not pass its check. -/
theorem validate_outcome (r : Registry) :
    r.BoundsSuffice ∧
      (r.validate = .ok () ∧
          (∀ name t, r.find? name = some t → ¬ Relation.TransGen r.Unfolds t t) ∨
        ∃ fault, r.validate = .error fault ∧
          (fault.isReported = true ∨
            ∃ before entry after, r.types = before ++ entry :: after ∧
              (∀ earlier ∈ before, r.checkRegistered earlier.2 = .ok ()) ∧
              r.Stalls entry.2 fault)) := by
  refine ⟨boundsSuffice r, ?_⟩
  cases hvalidate : r.validate with
  | ok done =>
    refine .inl ⟨rfl, fun name t hfind => ?_⟩
    exact not_circle_of_checkRegistered
      (checkRegistered_of_checkAll hvalidate _ (mem_types_of_find? hfind))
  | error fault =>
    refine .inr ⟨fault, rfl, ?_⟩
    obtain ⟨before, entry, after, hsplit, hbefore, hentry⟩ := checkAll_eq_error hvalidate
    have hfind : r.find? entry.2.name = some entry.2 :=
      find?_of_mem_types (hsplit ▸ List.mem_append_right before List.mem_cons_self)
    exact (fault_of_checkRegistered hfind hentry).imp_right
      fun hstalls => ⟨before, entry, after, hsplit, hbefore, hstalls⟩

/-- Two registries in which a defined type is defined by itself and no fault is reported: a select
with this type among its options comes before it, or an aggregate that contains itself does. -/
theorem not_reported_of_circle :
    (∃ r, (initial "s").registerAll
        [.select "CHOICE" ["LOOP"], .defined "LOOP" (.ref "LOOP")] = .ok r ∧
      r.find? "LOOP" = some (.defined "LOOP" (.ref "LOOP")) ∧
      Relation.TransGen r.Unfolds (.defined "LOOP" (.ref "LOOP")) (.defined "LOOP" (.ref "LOOP")) ∧
      r.validate = .error .endless) ∧
    ∃ r, (initial "s").registerAll
        [.aggregate "ROW" (.ref "ROW") .list 0 none, .defined "LOOP" (.ref "LOOP")] = .ok r ∧
      r.find? "LOOP" = some (.defined "LOOP" (.ref "LOOP")) ∧
      Relation.TransGen r.Unfolds (.defined "LOOP" (.ref "LOOP")) (.defined "LOOP" (.ref "LOOP")) ∧
      r.validate = .error .bottomless := by
  have hcircle : ∀ {r : Registry}, r.find? "LOOP" = some (.defined "LOOP" (.ref "LOOP")) →
      Relation.TransGen r.Unfolds (.defined "LOOP" (.ref "LOOP")) (.defined "LOOP" (.ref "LOOP")) :=
    fun hfind => .head (.defined ..) (.single (.ref hfind))
  exact ⟨⟨_, rfl, rfl, hcircle rfl, rfl⟩, _, rfl, rfl, hcircle rfl, rfl⟩

end Registry

end Part21
