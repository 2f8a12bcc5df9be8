import Part21.Proofs.Resolution.Descent

set_option autoImplicit false

/-!
# Errors by default

Only holders and factories can call a building off.  Where a record is held and where the
target of a reference is tested, there are new errors only: reasons that are not attributed to
an instance yet, none of them that an instance is missing or that references go too deep, and
failures of questions to the schema (`Basis.lapses_hold`, `Basis.faults_checkTarget`).  A question
that comes to no end is asked only where a target is tested.  The errors become resolution errors
where they are attributed to the instance under construction.  So an instance with a record is
resolved or has a resolution error, and the resolution of all instances always comes to a report
(`Table.resolveAll_eq_ok`).
-/

namespace Part21

namespace Failure

/-- The failure is not that of a search without end. -/
def Ends (original : Failure) : Prop :=
  ∀ error, original = .schema error → error.fault ≠ .endless

theorem ends_schema {fault : SchemaFault} (h : fault ≠ .endless) : Ends (.schema (.of fault)) := by
  intro error herror
  cases herror
  exact h

end Failure

namespace Reason

/-- The instance that there is not, if that is the reason. -/
def missing? : Reason → Option Int
  | unresolved target => some target
  | _ => none

end Reason

namespace Thrown

variable {α β : Type} {thrown : Thrown} {outcome : Except Thrown α}

/-- What ends with an error ends with one of a kind. -/
def AnyIs (kind : Thrown → Prop) (outcome : Except Thrown α) : Prop :=
  ∀ thrown, outcome = .error thrown → kind thrown

variable {kind other : Thrown → Prop}

theorem anyIs_ok (value : α) : AnyIs kind (.ok value) := by
  intro thrown h
  cases h

theorem anyIs_error (h : kind thrown) : AnyIs kind (.error thrown : Except Thrown α) := by
  intro own hown
  rwa [← Except.error.inj hown]

/-- An error is handed on. -/
theorem AnyIs.pass (h : AnyIs kind (.error thrown : Except Thrown α)) :
    AnyIs kind (.error thrown : Except Thrown β) :=
  anyIs_error (h thrown rfl)

theorem AnyIs.map (h : AnyIs kind outcome) (f : α → β) : AnyIs kind (outcome.map f) := by
  cases outcome with
  | ok value => exact anyIs_ok (f value)
  | error thrown => exact h.pass

theorem AnyIs.mono (h : AnyIs kind outcome) (hkind : ∀ thrown, kind thrown → other thrown) :
    AnyIs other outcome :=
  fun thrown hthrown => hkind thrown (h thrown hthrown)

/-! ## New errors -/

/-- The building is called off. -/
def isInterrupt : Thrown → Bool
  | .interrupt _ => true
  | _ => false

/-- An error as it arises: a reason that is attributed to no instance, other than that there is
no such instance, or a failure. -/
inductive IsNew : Thrown → Prop
  | reason {reason : Reason} (hpresent : reason.missing? = none) : IsNew (.reason reason)
  | failure (original : Failure) : IsNew (.failure original)

/-- A fault of a record: a new error that is no matter of depth. -/
inductive IsFault : Thrown → Prop
  | reason {reason : Reason} (hpresent : reason.missing? = none)
    (hshallow : reason.isTooDeep = false) : IsFault (.reason reason)
  | failure (original : Failure) : IsFault (.failure original)

/-- A lapse of a record: a fault that is not a search without end. -/
inductive IsLapse : Thrown → Prop
  | reason {reason : Reason} (hpresent : reason.missing? = none)
    (hshallow : reason.isTooDeep = false) (hplain : ∀ original, reason ≠ .construction original) :
    IsLapse (.reason reason)
  | failure {original : Failure} (hends : original.Ends) : IsLapse (.failure original)

/-- What ends with an error is not called off. -/
def Uninterrupted : Except Thrown α → Prop :=
  AnyIs fun thrown => thrown.isInterrupt = false

/-- What ends with an error ends with a new one. -/
def Raises : Except Thrown α → Prop :=
  AnyIs IsNew

/-- What ends with an error ends with a fault of a record. -/
def Faults : Except Thrown α → Prop :=
  AnyIs IsFault

/-- What ends with an error ends with a lapse of a record. -/
def Lapses : Except Thrown α → Prop :=
  AnyIs IsLapse

theorem IsNew.isInterrupt (h : thrown.IsNew) : thrown.isInterrupt = false := by
  cases h <;> rfl

theorem IsFault.isNew (h : thrown.IsFault) : thrown.IsNew := by
  cases h with
  | reason hpresent hshallow => exact .reason hpresent
  | failure original => exact .failure original

theorem IsLapse.isFault (h : thrown.IsLapse) : thrown.IsFault := by
  cases h with
  | reason hpresent hshallow hplain => exact .reason hpresent hshallow
  | failure hends => exact .failure _

theorem Lapses.faults (h : Lapses outcome) : Faults outcome :=
  AnyIs.mono h fun _ => IsLapse.isFault

theorem Faults.raises (h : Faults outcome) : Raises outcome :=
  AnyIs.mono h fun _ => IsFault.isNew

theorem Raises.uninterrupted (h : Raises outcome) : Uninterrupted outcome :=
  AnyIs.mono h fun _ => IsNew.isInterrupt

end Thrown

open Thrown

namespace Registry

variable {r : Registry} {sought : Option Text} {original : Failure}

theorem ends_of_groundThrough {follow : Text → Except Failure Ground}
    (hfollow : ∀ name own, follow name = .error own → own.Ends) {t : TypeDef}
    (h : groundThrough sought follow t = .error original) : original.Ends := by
  match t with
  | .ref name => exact hfollow name original h
  | .defined name underlying =>
    rw [groundThrough] at h
    split at h
    · cases h
    · exact ends_of_groundThrough hfollow h
  | .plain _ | .simple _ | .enumeration _ _ | .select _ _ | .aggregate _ _ _ _ _ | .entity _ =>
    cases h

/-- Defined types that lead in a circle exhaust the recursion where a parameter is held. -/
theorem ends_of_groundWithin {references : Nat} {t : TypeDef}
    (h : r.groundWithin sought references t = .error original) : original.Ends := by
  induction references generalizing t original with
  | zero =>
    refine ends_of_groundThrough (fun name own hown => ?_) h
    cases hown
    nofun
  | succ references ih =>
    refine ends_of_groundThrough (fun name own hown => ?_) h
    split at hown
    · exact ih hown
    · cases hown
      exact Failure.ends_schema nofun

end Registry

namespace Held

variable {r : Registry} {s : Settings} {place : Text}

theorem lapses_simple (type : SimpleType) (p : Parameter) :
    Lapses (simple s place type p) := by
  unfold simple mismatch
  repeat' split
  all_goals first
    | exact anyIs_ok _
    | exact anyIs_error (.reason rfl rfl nofun)
    | exact anyIs_error (.failure nofun)

theorem lapses_item (name : Text) (items : List Text) (p : Parameter) :
    Lapses (item s place name items p) := by
  unfold item mismatch
  repeat' split
  all_goals first
    | exact anyIs_ok _
    | exact anyIs_error (.reason rfl rfl nofun)

theorem lapses_whole (t : TypeDef) (p : Parameter) :
    Lapses (whole s place t p) := by
  unfold whole
  split
  · exact (lapses_simple _ p).map Held.value
  · exact (lapses_item _ _ p).map Held.value
  · split
    · exact anyIs_ok _
    · exact anyIs_error (.reason rfl rfl nofun)
  · split
    · exact anyIs_ok _
    · exact anyIs_error (.reason rfl rfl nofun)
  · exact anyIs_error (.reason rfl rfl nofun)

/-- The conversion of a parameter lapses only. -/
theorem lapses_conversion :
    Conversion r s place (fun _ _ outcome => Lapses outcome)
      (fun _ _ outcome => Lapses outcome) where
  lost hground := anyIs_error (.failure (Registry.ends_of_groundWithin hground))
  whole _ := lapses_whole _ _
  unwrapped _ hinner := hinner
  unselected _ _ := anyIs_error (.reason rfl rfl nofun)
  selected _ _ hinner := hinner.map _
  outside _ _ := anyIs_error (.reason rfl rfl nofun)
  aggregate _ _ hitems := hitems.map _
  nil := anyIs_ok _
  stopped hfirst := hfirst.pass
  cons _ hothers := hothers.map _

theorem lapses_ofSlot (a : Attribute) (p : Parameter) :
    Lapses (ofSlot r s a p) := by
  unfold ofSlot mismatch
  split
  · split
    · exact anyIs_ok _
    · exact anyIs_error (.reason rfl rfl nofun)
  · split
    · exact anyIs_error (.reason rfl rfl nofun)
    · split
      · split
        · exact anyIs_ok _
        · exact anyIs_error (.reason rfl rfl nofun)
      · exact lapses_conversion.one a.type p

theorem lapses_ofSlots (attributes : List Attribute) (parameters : List Parameter) :
    Lapses (ofSlots r s attributes parameters) := by
  induction attributes generalizing parameters with
  | nil => exact anyIs_ok _
  | cons a attributes ih =>
    cases parameters with
    | nil => exact anyIs_ok _
    | cons p rest =>
      have hslot := lapses_ofSlot (r := r) (s := s) a p
      have hslots := ih rest
      rw [ofSlots]
      split
      · rename_i thrown hheld
        exact anyIs_error (hslot thrown hheld)
      · split
        · rename_i thrown hothers
          exact anyIs_error (hslots thrown hothers)
        · exact anyIs_ok _

theorem lapses_ofGroup (typeName : Text) (attributes : List Attribute)
    (parameters : List Parameter) :
    Lapses (ofGroup r s typeName attributes parameters) := by
  unfold ofGroup
  split
  · exact lapses_ofSlots attributes parameters
  · exact anyIs_error (.reason rfl rfl nofun)

end Held

namespace Site

theorem lapses_hold (site : Site) (e : EntityType) (parameters : List Parameter) :
    Lapses (site.hold e parameters) := by
  unfold hold
  split
  · rename_i fault hfault
    refine anyIs_error (.failure (Failure.ends_schema ?_))
    rintro rfl
    exact Registry.attributesOf_ne_endless e hfault
  · exact Held.lapses_ofGroup _ _ parameters

theorem lapses_holdPart (site : Site) (e : EntityType) (others : List EntityType)
    (parameters : List Parameter) : Lapses (site.holdPart e others parameters) := by
  unfold holdPart
  split
  · rename_i fault hfault
    refine anyIs_error (.failure (Failure.ends_schema ?_))
    rintro rfl
    exact Registry.ownAttributes_ne_endless e others hfault
  · exact Held.lapses_ofGroup _ _ parameters

theorem lapses_holdParts (site : Site) (all : List EntityType)
    (parts : List (EntityType × Group)) : Lapses (site.holdParts all parts) := by
  induction parts with
  | nil => exact anyIs_ok _
  | cons part rest ih =>
    obtain ⟨e, group⟩ := part
    have hpart := site.lapses_holdPart e (all.filter fun other => other.key ≠ e.key)
      group.parameters
    unfold holdParts
    split
    · rename_i thrown hheld
      exact anyIs_error (hpart thrown hheld)
    · split
      · rename_i thrown hothers
        exact anyIs_error (ih thrown hothers)
      · exact anyIs_ok _

end Site

namespace Basis

variable {b : Basis} {brought : Option Blueprint} {thrown : Thrown}

theorem lapses_blueprint (b : Basis) (brought : Option Blueprint) (keyword : Text) :
    Lapses (b.blueprint brought keyword) := by
  unfold blueprint
  repeat' split
  all_goals first
    | exact anyIs_ok _
    | exact anyIs_error (.reason rfl rfl nofun)

theorem lapses_partTypes (b : Basis) (brought : Option Blueprint) (groups : List Group) :
    Lapses (b.partTypes brought groups) := by
  induction groups with
  | nil => exact anyIs_ok _
  | cons group rest ih =>
    have hown := b.lapses_blueprint brought group.keyword
    unfold partTypes
    split
    · rename_i thrown hthrown
      exact anyIs_error (hown thrown hthrown)
    · split
      · rename_i thrown hothers
        exact anyIs_error (ih thrown hothers)
      · exact anyIs_ok _

/-- There are only lapses while a record is held. -/
theorem lapses_hold (b : Basis) (brought : Option Blueprint) (id : Int) (r : Record) :
    Lapses (b.hold brought id r) := by
  unfold hold
  split
  · rename_i group _
    have hown := b.lapses_blueprint brought group.keyword
    split
    · rename_i thrown hthrown
      exact anyIs_error (hown thrown hthrown)
    · rename_i own _
      have hslots := (b.outset id).lapses_hold own.definition group.parameters
      split
      · rename_i thrown hthrown
        exact anyIs_error (hslots thrown hthrown)
      · exact anyIs_ok _
  · rename_i first others _ _
    have hparts := b.lapses_partTypes brought (first :: others)
    split
    · rename_i thrown hthrown
      exact anyIs_error (hparts thrown hthrown)
    · rename_i parts _
      have hheld := (b.outset id).lapses_holdParts (parts.map Prod.fst) parts
      split
      · rename_i thrown hthrown
        exact anyIs_error (hheld thrown hthrown)
      · exact anyIs_ok _

/-- Only faults are raised where the target of a reference is tested. -/
theorem faults_checkTarget (b : Basis) (brought : Option Blueprint) (id : Int) (r : Record)
    (expected : TypeDef) (place : Text) :
    Faults (b.checkTarget brought id r expected place) := by
  unfold checkTarget
  repeat' split
  all_goals first
    | exact anyIs_ok _
    | exact anyIs_error (.reason rfl rfl)
    | exact anyIs_error (.failure _)

theorem raises_hold (b : Basis) (brought : Option Blueprint) (id : Int) (r : Record) :
    Raises (b.hold brought id r) :=
  (b.lapses_hold brought id r).faults.raises

theorem raises_checkTarget (b : Basis) (brought : Option Blueprint) (id : Int) (r : Record)
    (expected : TypeDef) (place : Text) :
    Raises (b.checkTarget brought id r expected place) :=
  (b.faults_checkTarget brought id r expected place).raises

/-! ## Passes -/

/-- A resolution error with which an attempt ends is that of its building, attributed to the
instance, or a failure of its building that has become one. -/
theorem ending_eq_resolution {id : Int} {r : Record} {outcome : Except Thrown Instance}
    {error : ResolutionError} (h : (b.ending id r outcome).outcome = .error (.resolution error)) :
    (∃ own, outcome = .error (.resolution own) ∧ error = own.attributed id r.offset r.line) ∨
      ∃ original, outcome = .error (.failure original) ∧
        error =
          ⟨if original.isExhausted then .tooDeep b.settings.maxDepth else .construction original,
            ⟨some id, [id], ⟨r.offset, r.line, none⟩⟩, [], some original⟩ := by
  cases outcome with
  | ok value => cases h
  | error thrown =>
    cases thrown with
    | resolution own =>
      rw [ending, Ending.outcome_ofError] at h
      cases h
      exact .inl ⟨own, rfl, rfl⟩
    | failure original =>
      rw [ending_failure, Ending.outcome_ofError] at h
      cases h
      exact .inr ⟨original, rfl, rfl⟩
    | interrupt message => cases h

/-- What ends with an error ends with a resolution error. -/
def Attributes (outcome : Except Thrown Instance) : Prop :=
  ∀ thrown, outcome = .error thrown → ∃ error, thrown = .resolution error

/-- An attempt that is not called off ends with a value or with a resolution error. -/
theorem attributes_ending (id : Int) (r : Record) {outcome : Except Thrown Instance}
    (h : Uninterrupted outcome) : Attributes (b.ending id r outcome).outcome := by
  intro thrown hthrown
  cases outcome with
  | ok value => cases hthrown
  | error own =>
    cases own with
    | resolution error =>
      rw [ending, Ending.outcome_ofError] at hthrown
      exact ⟨_, (Except.error.inj hthrown).symm⟩
    | failure original =>
      rw [ending_failure, Ending.outcome_ofError] at hthrown
      exact ⟨_, (Except.error.inj hthrown).symm⟩
    | interrupt message => cases h _ rfl

/-- Where instances are built by default, nothing is called off on a descent, and where an
instance is entered there are resolution errors only. -/
theorem error_descent :
    b.Descent brought (fun _ _ _ outcome _ => Attributes outcome)
      (fun _ _ _ outcome _ => Uninterrupted outcome)
      (fun _ _ _ outcome _ => Uninterrupted outcome) where
  resolved _ := by
    intro thrown h
    cases h
  failed _ := by
    intro thrown h
    exact ⟨_, (Except.error.inj h).symm⟩
  unheld {path id p r thrown} _ _ hheld := by
    have hhold := b.raises_hold brought id r
    exact attributes_ending id r (anyIs_error (hhold thrown hheld).isInterrupt)
  built {path id p q r held outcome} _ _ _ _ hfollowed _ :=
    attributes_ending id r (hfollowed.map _)
  missing _ := anyIs_error rfl
  deferred _ _ _ _ := (b.raises_checkTarget brought _ _ _ _).uninterrupted
  refused _ _ _ _ _ := anyIs_error rfl
  below {path l p q r outcome} _ _ _ hentered := by
    cases outcome with
    | ok value => exact (b.raises_checkTarget brought l.target r l.expected l.place).uninterrupted
    | error thrown =>
      obtain ⟨error, rfl⟩ := hentered thrown rfl
      exact anyIs_error rfl
  nil := anyIs_ok ()
  stopped hvisited := hvisited
  passed _ _ hfollowed := hfollowed

/-- An instance that has a record is resolved or has a resolution error. -/
theorem resolve_eq_error (hdefault : b.ByDefault brought) {id : Int} {p : Progress}
    (hclosed : ∀ other, p.standing other ≠ .inProgress)
    (h : (b.resolve brought id p).1 = .error thrown) : ∃ error, thrown = .resolution error := by
  cases hr : b.population.find? id with
  | none =>
    rw [resolve_of_find?_eq_none hr] at h
    exact ⟨_, (Except.error.inj h).symm⟩
  | some r => exact error_descent.resolve hdefault hclosed hr thrown h

end Basis

/-! ## All instances -/

namespace Table

variable {registry : Registry} {settings : Settings} {t : Table}

theorem Plain.resolve_eq_error (h : t.Plain registry settings) {id : Int} {thrown : Thrown}
    (hthrown : (t.resolve id none).1 = .error thrown) : ∃ error, thrown = .resolution error :=
  have hdefault : t.basis.ByDefault none := h.byDefault nofun
  Basis.resolve_eq_error hdefault h.idle.closed (t.resolve_none_fst id ▸ hthrown)

/-- Where instances are built by default, the resolution of instances comes to a report. -/
theorem Plain.resolveOnto_eq_ok (h : t.Plain registry settings) (done : Report) (ids : List Int) :
    ∃ report, (t.resolveOnto done ids).1 = .ok report := by
  induction ids generalizing t done with
  | nil => exact ⟨done, rfl⟩
  | cons id rest ih =>
    have hnext := h.resolve id none
    unfold resolveOnto
    split
    · rename_i value u hu
      rw [hu] at hnext
      exact ih hnext _
    · rename_i error u hu
      rw [hu] at hnext
      exact ih hnext _
    · rename_i thrown u hother hu
      obtain ⟨error, rfl⟩ := h.resolve_eq_error (congrArg Prod.fst hu)
      exact absurd rfl (hother error)

/-- Where instances are built by default, the resolution of all of them comes to a report. -/
theorem resolveAll_eq_ok (h : t.Plain registry settings) :
    ∃ report, t.resolveAll.1 = .ok report := by
  obtain ⟨report, hreport⟩ := h.resolveOnto_eq_ok ⟨[], []⟩ t.basis.population.ids
  unfold resolveAll
  split
  · rename_i thrown u hu
    rw [hu] at hreport
    cases hreport
  · exact ⟨_, rfl⟩

end Table

end Part21
