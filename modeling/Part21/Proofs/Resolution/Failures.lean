import Part21.Proofs.Resolution.Errors
import Part21.Proofs.Schema.Search

set_option autoImplicit false

/-!
# Kinds of failures

Where a record is held and where the target of a reference is tested, questions to the schema and
conversions may fail, and such a failure becomes the error of the instance under construction.
Nothing else fails while instances are built by default.  So if these two steps fail in no other
way than of some kind (`Basis.Confined`), no other failure is kept of an instance, none is the error
of a resolution, and none is in a report on all instances (`Table.Lucid.resolveAll`).

One kind are the failures of what comes to an end.  A search for the entity types of a select may
not: it may go round a circle of defined types.  There is no answer then, and what is answered here
in its place says so (`SchemaFault.endless`).  That is not met where no reference is declared to be
of such a select (`Basis.confined_of_searchable`).
-/

namespace Part21

/-- If a failure is the reason, it is of a kind. -/
def Reason.Of (kind : Failure → Prop) (reason : Reason) : Prop :=
  ∀ original, reason = .construction original → kind original

namespace Thrown

/-- The same of what ends a building. -/
def Of (kind : Failure → Prop) : Thrown → Prop
  | resolution error => error.reason.Of kind
  | failure original => kind original
  | interrupt _ => True

/-- What ends with a failure ends with one of a kind. -/
def Only {α : Type} (kind : Failure → Prop) : Except Thrown α → Prop :=
  AnyIs (Of kind)

variable {α : Type} {outcome : Except Thrown α}

/-- A lapse of a record is no search without end. -/
theorem Lapses.only (h : Lapses outcome) : Only Failure.Ends outcome := by
  intro thrown hthrown
  cases h thrown hthrown with
  | failure hends => exact hends
  | reason hpresent hshallow hplain =>
    intro original horiginal
    exact absurd horiginal (hplain original)

end Thrown

open Thrown

namespace Basis

variable {b : Basis} {brought : Option Blueprint} {kind : Failure → Prop} {expects : TypeDef → Prop}

/-- Records are held and targets are tested with failures of a kind only, if at all. -/
structure Confined (b : Basis) (brought : Option Blueprint) (kind : Failure → Prop)
    (expects : TypeDef → Prop) : Prop where
  held (id : Int) (r : Record) : Only kind (b.hold brought id r)
  expected {id : Int} {r : Record} {held : HeldRecord} :
    b.population.find? id = some r → b.hold brought id r = .ok held →
      ∀ l ∈ held.links, expects l.expected
  tested (id : Int) (r : Record) {expected : TypeDef} (place : Text) :
    expects expected → Only kind (b.checkTarget brought id r expected place)

/-! ## Passes -/

/-- Only errors of a kind are kept. -/
def Clear (kind : Failure → Prop) (p : Progress) : Prop :=
  p.Found (fun _ _ => True) fun _ error => error.reason.Of kind

/-- A step keeps errors of a kind only where nothing else was kept before, and so is its own
error. -/
def KeepsClear {α : Type} (kind : Failure → Prop) (p : Progress) (outcome : Except Thrown α)
    (q : Progress) : Prop :=
  Clear kind p → Clear kind q ∧ Only kind outcome

/-- The error of an attempt is of the kind that the failure of its building is of. -/
theorem only_ending (id : Int) (r : Record) {outcome : Except Thrown Instance}
    (h : Only kind outcome) : Only kind (b.ending id r outcome).outcome := by
  cases outcome with
  | ok value => exact anyIs_ok value
  | error thrown =>
    have hthrown : thrown.Of kind := h thrown rfl
    cases thrown with
    | resolution error =>
      rw [ending, Ending.outcome_ofError]
      apply anyIs_error
      rwa [Of, error.reason_attributed]
    | failure original =>
      rw [ending_failure, Ending.outcome_ofError]
      apply anyIs_error
      intro own hown
      dsimp only at hown
      split at hown
      · cases hown
      · cases hown
        exact hthrown
    | interrupt message => exact anyIs_error trivial

/-- An attempt keeps an error of the kind, if any. -/
theorem Clear.finish {q : Progress} (h : Clear kind q) {id : Int} {r : Record}
    {outcome : Except Thrown Instance} (houtcome : Only kind outcome) :
    Clear kind (q.finish id (b.ending id r outcome)) ∧
      Only kind (b.ending id r outcome).outcome := by
  have hending := only_ending (b := b) id r houtcome
  refine ⟨Progress.Found.finish h (fun _ _ => trivial) fun error hfailed => ?_, hending⟩
  exact hending _ (congrArg Ending.outcome hfailed)

/-- Only failures of the kind are met on a descent. -/
theorem clear_descent (hconfined : b.Confined brought kind expects) :
    b.Descent brought (fun _ _ p outcome q => KeepsClear kind p outcome q)
      (fun _ l p outcome q => expects l.expected → KeepsClear kind p outcome q)
      (fun _ links p outcome q =>
        (∀ l ∈ links, expects l.expected) → KeepsClear kind p outcome q) where
  resolved _ h := ⟨h, anyIs_ok _⟩
  failed hstanding h := ⟨h, anyIs_error (h.failed hstanding)⟩
  unheld {path id p r thrown} _ _ hheld h := by
    have hholds := hconfined.held id r
    rw [hheld] at hholds
    exact Clear.finish (Progress.Found.begin h id) hholds.pass
  built {path id p q r held outcome} _ hr _ hheld hfollowed _ h := by
    obtain ⟨hq, houtcome⟩ := hfollowed (hconfined.expected hr hheld) (Progress.Found.begin h id)
    exact Clear.finish hq (houtcome.map _)
  missing _ _ h := ⟨h, anyIs_error nofun⟩
  deferred _ _ _ _ hexpected h :=
    ⟨Progress.Found.report h _, hconfined.tested _ _ _ hexpected⟩
  refused _ _ _ _ _ _ h := ⟨Progress.Found.refuse h _ _, anyIs_error nofun⟩
  below {path l p q r outcome} _ _ _ hentered hexpected h := by
    obtain ⟨hq, houtcome⟩ := hentered h
    refine ⟨hq, ?_⟩
    cases outcome with
    | ok value => exact hconfined.tested _ _ _ hexpected
    | error thrown => exact houtcome.pass
  nil _ h := ⟨h, anyIs_ok ()⟩
  stopped hvisited hlinks := hvisited (hlinks _ List.mem_cons_self)
  passed hvisited _ hfollowed hlinks h := by
    obtain ⟨hfirst, hrest⟩ := List.forall_mem_cons.mp hlinks
    exact hfollowed hrest (hvisited hfirst h).1

/-- A resolution that begins while nothing is in progress keeps and raises errors of the kind
only. -/
theorem clear_resolve (hconfined : b.Confined brought kind expects)
    (hdefault : b.ByDefault brought) (id : Int) {p : Progress}
    (hclosed : ∀ other, p.standing other ≠ .inProgress) (h : Clear kind p) :
    Clear kind (b.resolve brought id p).2 ∧ Only kind (b.resolve brought id p).1 := by
  cases hr : b.population.find? id with
  | none =>
    rw [resolve_of_find?_eq_none hr]
    exact ⟨h, anyIs_error nofun⟩
  | some r => exact (clear_descent hconfined).resolve hdefault hclosed hr h

/-! ## Searches that come to an end -/

/-- No reference of the instance is declared to be of a select that leads to a circle of defined
types. -/
def Searchable (b : Basis) (id : Int) : Prop :=
  ∀ r held, b.population.find? id = some r → b.hold none id r = .ok held →
    ∀ l ∈ held.links, b.registry.Searchable l.expected

theorem anyOf_ne_endless {α : Type} {test : α → Except SchemaFault Bool}
    (h : ∀ a, test a ≠ .error .endless) (among : List α) : anyOf test among ≠ .error .endless := by
  induction among with
  | nil => nofun
  | cons a rest ih =>
    intro hany
    unfold anyOf at hany
    split at hany
    · rename_i htest
      cases hany
      exact h a htest
    · cases hany
    · exact ih hany

theorem keywordIs_ne_endless (b : Basis) (brought : Option Blueprint) (keyword name : Text) :
    b.keywordIs brought keyword name ≠ .error .endless := by
  intro h
  unfold keywordIs at h
  split at h
  · cases h
  · split at h
    · rename_i hsubtype
      cases h
      exact Registry.isSubtype_ne_endless keyword name hsubtype
    · cases h
    · cases brought with
      | none => cases h
      | some own =>
        dsimp only at h
        split at h
        · cases hancestors : b.registry.ancestors own.definition with
          | ok names =>
            rw [hancestors] at h
            cases h
          | error fault =>
            rw [hancestors] at h
            cases h
            exact Registry.ancestors_ne_endless own.definition hancestors
        · cases h

/-- Whether a record is of a type is a question about supertypes. -/
theorem recordIs_ne_endless (b : Basis) (brought : Option Blueprint) (r : Record)
    (names : List Text) : b.recordIs brought r names ≠ .error .endless :=
  anyOf_ne_endless (fun keyword => anyOf_ne_endless (b.keywordIs_ne_endless brought keyword) names)
    r.keywords

theorem allowed_ne_endless {expected : TypeDef} (h : b.registry.Searchable expected) :
    b.allowed expected ≠ .error .endless := by
  intro hallowed
  unfold allowed at hallowed
  split at hallowed
  · rename_i fault hfault
    cases hallowed
    unfold Registry.resolve at hfault
    split at hfault
    · split at hfault <;> cases hfault
    · cases hfault
  · rename_i name options hselect
    exact h.selectEntities_ne_endless hselect hallowed
  · cases hallowed

/-- The test of a target comes to an end. -/
theorem only_checkTarget (id : Int) (r : Record) {expected : TypeDef}
    (h : b.registry.Searchable expected) (place : Text) :
    Only Failure.Ends (b.checkTarget brought id r expected place) := by
  unfold checkTarget
  split
  · rename_i fault hfault
    refine anyIs_error (Failure.ends_schema ?_)
    rintro rfl
    exact allowed_ne_endless h hfault
  · split
    · rename_i fault hfault
      refine anyIs_error (Failure.ends_schema ?_)
      rintro rfl
      exact b.recordIs_ne_endless brought r _ hfault
    · exact anyIs_ok ()
    · exact anyIs_error nofun

/-- Where every reference is of a type of which the entity types can be searched for, there are only
failures of what comes to an end. -/
theorem confined_of_searchable (h : ∀ id, b.Searchable id) :
    b.Confined none Failure.Ends b.registry.Searchable where
  held id r := (b.lapses_hold none id r).only
  expected {id r held} hr hheld := h id r held hr hheld
  tested id r _ place hexpected := only_checkTarget id r hexpected place

end Basis

/-! ## Sessions -/

namespace Table

variable {kind : Failure → Prop} {expects : TypeDef → Prop} {registry : Registry}
  {settings : Settings} {t : Table}

/-- A table between two requests of a session at which instances are built by default: only errors
of a kind were kept. -/
structure Lucid (kind : Failure → Prop) (registry : Registry) (settings : Settings) (t : Table) :
    Prop where
  plain : t.Plain registry settings
  clear : Basis.Clear kind t.progress

namespace Lucid

theorem empty (kind : Failure → Prop) (registry : Registry) (settings : Settings) :
    (Table.empty registry .initial settings).Lucid kind registry settings :=
  ⟨plain_empty registry settings, .of_untouched fun _ => rfl⟩

theorem report (h : t.Lucid kind registry settings) (event : Event) :
    (t.report event).Lucid kind registry settings :=
  ⟨h.plain.report event, Progress.Found.report h.clear event⟩

/-- A resolution keeps errors of the kind only, and its pass ends with nothing but such an error. -/
theorem resolve (h : t.Lucid kind registry settings) (id : Int) (expected : Option Expected)
    (hconfined : t.basis.Confined (expected.bind Expected.brought?) kind expects)
    (hdefault : t.basis.ByDefault (expected.bind Expected.brought?)) :
    (t.resolve id expected).2.Lucid kind registry settings ∧
      Only kind (t.basis.resolve (expected.bind Expected.brought?) id t.progress).1 := by
  obtain ⟨hclear, honly⟩ := Basis.clear_resolve hconfined hdefault id h.plain.idle.closed h.clear
  refine ⟨⟨h.plain.resolve id expected, ?_⟩, honly⟩
  rw [resolve_snd]
  exact hclear

end Lucid

/-- The same of a table and of what has been reported on its instances. -/
structure Recounts (b : Basis) (kind : Failure → Prop) (registry : Registry) (settings : Settings)
    (t : Table) (done : Report) : Prop where
  basis : t.basis = b
  lucid : t.Lucid kind registry settings
  failures : ∀ failure ∈ done.failures, failure.2.reason.Of kind

namespace Recounts

variable {b : Basis} {u : Table} {id : Int} {done : Report}

theorem resolve (hconfined : b.Confined none kind expects)
    (h : t.Recounts b kind registry settings done) (id : Int) :
    (t.resolve id none).2.Recounts b kind registry settings done ∧
      Only kind (t.resolve id none).1 := by
  obtain ⟨rfl, hlucid, hfailures⟩ := h
  have hdefault : t.basis.ByDefault none := hlucid.plain.byDefault nofun
  obtain ⟨hnext, honly⟩ := hlucid.resolve id none hconfined hdefault
  refine ⟨⟨t.basis_resolve id none, hnext, hfailures⟩, ?_⟩
  rw [resolve_none_fst]
  exact honly

theorem value (hconfined : b.Confined none kind expects) {value : Instance}
    (hu : t.resolve id none = (.ok value, u)) (h : t.Recounts b kind registry settings done) :
    u.Recounts b kind registry settings
      { done with entities := done.entities ++ [(id, value)] } := by
  have hnext := (h.resolve hconfined id).1
  rw [hu] at hnext
  exact ⟨hnext.basis, hnext.lucid, hnext.failures⟩

theorem error (hconfined : b.Confined none kind expects) {error : ResolutionError}
    (hu : t.resolve id none = (.error (.resolution error), u))
    (h : t.Recounts b kind registry settings done) :
    u.Recounts b kind registry settings
      { done with failures := done.failures ++ [(id, error)] } := by
  obtain ⟨hnext, honly⟩ := h.resolve hconfined id
  rw [hu] at hnext honly
  refine ⟨hnext.basis, hnext.lucid, ?_⟩
  exact List.forall_mem_append.mpr
    ⟨hnext.failures, List.forall_mem_singleton.mpr (honly (.resolution error) rfl)⟩

end Recounts

/-- The report on all instances tells of failures of the kind only. -/
theorem Lucid.resolveAll (h : t.Lucid kind registry settings)
    (hconfined : t.basis.Confined none kind expects) :
    ∃ report, t.resolveAll.1 = .ok report ∧
      ∀ failure ∈ report.failures, failure.2.reason.Of kind := by
  obtain ⟨report, hreport⟩ := resolveAll_eq_ok h.plain
  have hall : t.resolveAll.2.Recounts t.basis kind registry settings report :=
    resolveAll_induction (fun hu h => h.value hconfined hu) (fun hu h => h.error hconfined hu)
      (fun event h => ⟨h.basis, h.lucid.report event, h.failures⟩)
      ⟨rfl, h, List.forall_mem_nil _⟩ hreport
  exact ⟨report, hreport, hall.failures⟩

end Table

end Part21
