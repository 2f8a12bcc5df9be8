import Part21.Proofs.Resolution.Failures
import Part21.Proofs.Resolution.Filling
import Part21.Proofs.Resolution.Soundness

set_option autoImplicit false

/-!
# The order of records

All instances of a table are resolved in the order in which their records came.  The order
decides at which instance a circle is entered, and so which reference of it is left to be
followed later: an instance is resolved if all its references but those to the instances
under construction could be followed, even if one of these fails afterwards.  Where such a
failure would have come first in another order, the instance fails in that order.

Two things do not depend on the order.  What an instance is if it is resolved is known from
its record.  And its fate is certain where it is sound, so that it is resolved, or doomed, so
that it fails: something is wrong with it, or it refers to a doomed instance from which no
reference leads back (`Table.resolveAll_perm`).  Only a cycle with something wrong behind it
can have members of which neither is true (`Basis.sound_or_doomed`).

There is no report where the test of a target comes to no end.  So no reference may be declared
to be of a select that leads to a circle of defined types (`Basis.Searchable`).
-/

namespace Part21

namespace Basis

/-! ## Doomed instances -/

/-- It is certain that an instance fails: something is wrong with it itself, or it refers to
an instance that is certain to fail and that cannot be under construction when it comes to
the instance, as it does not lead there. -/
inductive Doomed (b : Basis) : Int → Prop
  | flawed {id : Int} (hflawed : ¬ b.Intact id) : Doomed b id
  | refers {id target : Int} (hrefers : b.population.Refers id target)
      (hapart : ¬ b.population.LeadsTo target id) (htarget : Doomed b target) : Doomed b id

/-- What an instance is once it is resolved. -/
def IsBuilt (b : Basis) (id : Int) (value : Instance) : Prop :=
  ∃ r held, b.population.find? id = some r ∧ b.hold none id r = .ok held ∧
    value = held.toInstance b.registry id

/-- Every instance that is resolved is what its record says, and none was doomed. -/
def Answers (b : Basis) (p : Progress) : Prop :=
  ∀ id value, p.standing id = .resolved value → b.IsBuilt id value ∧ ¬ b.Doomed id

variable {b : Basis}

theorem IsBuilt.eq {id : Int} {value other : Instance} (hvalue : b.IsBuilt id value)
    (hother : b.IsBuilt id other) : value = other := by
  obtain ⟨r, held, hr, hheld, rfl⟩ := hvalue
  obtain ⟨s, own, hs, hown, rfl⟩ := hother
  obtain rfl : s = r := Option.some.inj (hs.symm.trans hr)
  obtain rfl : own = held := Except.ok.inj (hown.symm.trans hheld)
  rfl

theorem Sound.isBuilt {id : Int} (h : b.Sound id) : ∃ value, b.IsBuilt id value := by
  obtain ⟨r, held, hr, hheld, _⟩ := h.intact
  exact ⟨held.toInstance b.registry id, r, held, hr, hheld, rfl⟩

/-- An instance that leads to one with which something is wrong is doomed, if the fate of all
cycles on the way is certain. -/
theorem doomed_of_leadsTo {id flawed : Int} (hleads : b.population.LeadsTo id flawed)
    (hflawed : ¬ b.Intact flawed)
    (hcycles : ∀ member, b.population.LeadsTo id member → b.population.OnCycle member →
      b.Sound member ∨ b.Doomed member) : b.Doomed id := by
  induction hleads using Relation.ReflTransGen.head_induction_on with
  | refl => exact .flawed hflawed
  | @head id next hrefers hleads ih =>
    have hnext : b.Doomed next := by
      apply ih
      intro member hmember
      exact hcycles member (.head hrefers hmember)
    by_cases hback : b.population.LeadsTo next id
    · have hcycle : b.population.OnCycle id :=
        Relation.TransGen.head'_iff.mpr ⟨next, hrefers, hback⟩
      have hunsound : ¬ b.Sound id := by
        intro hsound
        exact hflawed (hsound flawed (.head hrefers hleads))
      exact (hcycles id .refl hcycle).resolve_left hunsound
    · exact .refers hrefers hback hnext

/-- The fate of an instance is certain, unless it leads to a cycle of which the fate is not. -/
theorem sound_or_doomed {id : Int}
    (hcycles : ∀ member, b.population.LeadsTo id member → b.population.OnCycle member →
      b.Sound member ∨ b.Doomed member) : b.Sound id ∨ b.Doomed id := by
  by_cases hsound : b.Sound id
  · exact .inl hsound
  · unfold Sound at hsound
    push Not at hsound
    obtain ⟨flawed, hleads, hflawed⟩ := hsound
    exact .inr (doomed_of_leadsTo hleads hflawed hcycles)

/-! ## What is resolved -/

namespace Answers

variable {p q : Progress}

theorem iff_found : b.Answers p ↔
    p.Found (fun id value => b.IsBuilt id value ∧ ¬ b.Doomed id) fun _ _ => True :=
  ⟨fun h => ⟨fun hresolved => h _ _ hresolved, fun _ => trivial⟩,
    fun h _ _ hresolved => h.resolved hresolved⟩

theorem begin (h : b.Answers p) (id : Int) : b.Answers (p.begin id) :=
  iff_found.mpr ((iff_found.mp h).begin id)

theorem finish {id : Int} {ending : Ending} (h : b.Answers q)
    (hbuilt : ∀ value, ending = .completed value → b.IsBuilt id value ∧ ¬ b.Doomed id) :
    b.Answers (q.finish id ending) :=
  iff_found.mpr ((iff_found.mp h).finish hbuilt fun _ _ => trivial)

end Answers

/-- An instance of which all links were followed is not doomed. -/
theorem not_doomed_of_passed {path : List Int} {id : Int} {p q : Progress} {r : Record}
    {held : HeldRecord} (harrives : b.Arrives path id p) (hr : b.population.find? id = some r)
    (hheld : b.hold none id r = .ok held)
    (hanswers : b.Answers q) (hpassed : ∀ l ∈ held.links, b.Passed none (id :: path) q l) :
    ¬ b.Doomed id := by
  intro hdoomed
  cases hdoomed with
  | flawed hflawed => exact hflawed ⟨r, held, hr, hheld, fun l hmem => (hpassed l hmem).checked⟩
  | @refers _ target hrefers hapart htarget =>
    rcases reached_of_passed hr hheld hpassed target hrefers with honPath | ⟨value, hvalue⟩
    · -- From every instance on the path references lead to the last one.
      rcases List.mem_cons.mp honPath with hself | hbefore
      · exact hapart (hself ▸ .refl)
      · exact hapart (harrives.isPath.leads harrives.referred _ hbefore).to_reflTransGen
    · exact (hanswers _ _ hvalue).2 htarget

/-- On every descent, what is resolved is what its record says, and is not doomed. -/
theorem answers_descent :
    b.Descent none (fun _ _ p _ q => b.Answers p → b.Answers q)
      (fun _ _ p _ q => b.Answers p → b.Answers q)
      (fun _ _ p _ q => b.Answers p → b.Answers q) where
  resolved _ hanswers := hanswers
  failed _ hanswers := hanswers
  unheld {path id p r thrown} _ _ _ hanswers :=
    (hanswers.begin id).finish fun value hcompleted =>
      absurd hcompleted (b.ending_error_ne_completed id r thrown value)
  built {path id p q r held outcome} harrives hr _ hheld hfollowed hpassed hanswers := by
    have hanswers := hfollowed (hanswers.begin id)
    refine hanswers.finish fun value hcompleted => ?_
    cases outcome with
    | ok done =>
      cases hcompleted
      exact ⟨⟨r, held, hr, hheld, rfl⟩,
        not_doomed_of_passed harrives hr hheld hanswers (hpassed rfl)⟩
    | error thrown => exact absurd hcompleted (b.ending_error_ne_completed id r thrown value)
  missing _ hanswers := hanswers
  deferred _ _ _ _ hanswers := hanswers
  refused _ _ _ _ _ hanswers := hanswers
  below _ _ _ hentered := hentered
  nil hanswers := hanswers
  stopped hvisited := hvisited
  passed hvisited _ hfollowed hanswers := hfollowed (hvisited hanswers)

theorem answers_resolve (id : Int) (hdefault : b.ByDefault none) {p : Progress}
    (hclosed : ∀ other, p.standing other ≠ .inProgress) (hanswers : b.Answers p) :
    b.Answers (b.resolve none id p).2 := by
  cases hr : b.population.find? id with
  | none => rwa [resolve_of_find?_eq_none hr]
  | some r => exact answers_descent.resolve hdefault hclosed hr hanswers

/-! ## The same records in another order -/

/-- Two bases differ at most in the order of their records. -/
structure Alike (b c : Basis) : Prop where
  registry : b.registry = c.registry
  makers : b.makers = c.makers
  settings : b.settings = c.settings
  find? : ∀ id, b.population.find? id = c.population.find? id

namespace Alike

variable {c : Basis}

theorem symm (h : b.Alike c) : c.Alike b :=
  ⟨h.registry.symm, h.makers.symm, h.settings.symm, fun id => (h.find? id).symm⟩

theorem sameSchema (h : b.Alike c) : b.SameSchema c := ⟨h.registry, h.makers, h.settings⟩

theorem refers_eq (h : b.Alike c) : b.population.Refers = c.population.Refers := by
  funext referrer target
  unfold Population.Refers
  rw [h.find? referrer]

theorem leadsTo_eq (h : b.Alike c) : b.population.LeadsTo = c.population.LeadsTo := by
  unfold Population.LeadsTo
  rw [h.refers_eq]

theorem intact_iff (h : b.Alike c) (id : Int) : b.Intact id ↔ c.Intact id := by
  simp only [Intact, h.find?, h.sameSchema.hold_eq, h.sameSchema.checkTarget_eq]

theorem isBuilt_iff (h : b.Alike c) (id : Int) (value : Instance) :
    b.IsBuilt id value ↔ c.IsBuilt id value := by
  simp only [IsBuilt, h.find?, h.sameSchema.hold_eq, h.registry]

theorem sound (h : b.Alike c) {id : Int} (hsound : b.Sound id) : c.Sound id := by
  intro other hleads
  rw [← h.leadsTo_eq] at hleads
  exact (h.intact_iff other).mp (hsound other hleads)

theorem doomed (h : b.Alike c) {id : Int} (hdoomed : b.Doomed id) : c.Doomed id := by
  induction hdoomed with
  | @flawed id hflawed => exact .flawed fun hintact => hflawed ((h.intact_iff id).mpr hintact)
  | refers hrefers hapart _ ih =>
    rw [h.refers_eq] at hrefers
    rw [h.leadsTo_eq] at hapart
    exact .refers hrefers hapart ih

theorem searchable (h : b.Alike c) {id : Int} (hsearchable : b.Searchable id) :
    c.Searchable id := by
  intro r held hr hheld
  rw [← h.find?] at hr
  rw [← h.sameSchema.hold_eq] at hheld
  rw [← h.registry]
  exact hsearchable r held hr hheld

theorem ids_perm (h : b.Alike c) : b.population.ids.Perm c.population.ids := by
  refine (List.perm_ext_iff_of_nodup b.population.distinct c.population.distinct).mpr fun id => ?_
  change id ∈ b.population.ids ↔ id ∈ c.population.ids
  rw [Population.mem_ids_iff, Population.mem_ids_iff, Population.contains, Population.contains,
    h.find?]

theorem isSimplePath (h : b.Alike c) {ids : List Int} (hpath : b.population.IsSimplePath ids) :
    c.population.IsSimplePath ids where
  present id hmem := by
    have hrecord := hpath.present id hmem
    rw [Population.contains, h.find?] at hrecord
    exact hrecord
  linked := h.refers_eq ▸ hpath.linked
  distinct := hpath.distinct

theorem pathsWithin (h : b.Alike c) {limit : Nat} {id : Int}
    (hwithin : b.population.PathsWithin limit id) : c.population.PathsWithin limit id := by
  intro ids hhead hpath
  exact hwithin ids hhead (h.symm.isSimplePath hpath)

end Alike

end Basis

/-! ## Reports -/

namespace Report

/-- The report has a value for the instance. -/
def Resolves (r : Report) (id : Int) (value : Instance) : Prop := (id, value) ∈ r.entities

/-- The report has an error for the instance. -/
def Fails (r : Report) (id : Int) : Prop := ∃ error, (id, error) ∈ r.failures

theorem mem_names {r : Report} {id : Int} :
    id ∈ r.names ↔ (∃ value, r.Resolves id value) ∨ r.Fails id := by
  simp [names, Resolves, Fails]

end Report

namespace Basis

/-- What a report says of instances is what their records let expect: those that are resolved
are what their records say, none of them is doomed, and none that failed is sound. -/
structure Judges (b : Basis) (report : Report) : Prop where
  entities : ∀ entry ∈ report.entities, b.IsBuilt entry.1 entry.2 ∧ ¬ b.Doomed entry.1
  failures : ∀ entry ∈ report.failures, ¬ b.Sound entry.1

/-- Two reports on the records of a basis agree, as far as the order of the records does not
matter. -/
structure Agree (b : Basis) (first second : Report) : Prop where
  /-- both report on every instance once -/
  names : first.names.Perm b.population.ids ∧ second.names.Perm b.population.ids
  /-- what is resolved in both is the same -/
  values {id : Int} {value other : Instance} : first.Resolves id value →
    second.Resolves id other → value = other
  /-- what is sound is resolved in both -/
  sound {id : Int} : b.population.contains id = true → b.Sound id →
    ∃ value, first.Resolves id value ∧ second.Resolves id value
  /-- what is doomed fails in both -/
  doomed {id : Int} : b.population.contains id = true → b.Doomed id →
    first.Fails id ∧ second.Fails id
  /-- what leads to no cycle of uncertain fate comes out the same -/
  certain {id : Int} :
    (∀ member, b.population.LeadsTo id member → b.population.OnCycle member →
      b.Sound member ∨ b.Doomed member) →
    (first.Fails id ↔ second.Fails id) ∧
      ∀ value, first.Resolves id value ↔ second.Resolves id value

variable {b : Basis} {report other : Report} {id : Int}

theorem judges_nothing (b : Basis) : b.Judges ⟨[], []⟩ :=
  ⟨List.forall_mem_nil _, List.forall_mem_nil _⟩

theorem Alike.judges {c : Basis} (h : b.Alike c) (hjudges : b.Judges report) :
    c.Judges report where
  entities entry hmem := by
    obtain ⟨hbuilt, hdoomed⟩ := hjudges.entities entry hmem
    exact ⟨(h.isBuilt_iff _ _).mp hbuilt, fun hother => hdoomed (h.symm.doomed hother)⟩
  failures entry hmem hsound := hjudges.failures entry hmem (h.symm.sound hsound)

namespace Judges

theorem not_fails (h : b.Judges report) (hsound : b.Sound id) : ¬ report.Fails id := by
  rintro ⟨error, herror⟩
  exact h.failures _ herror hsound

theorem not_resolves (h : b.Judges report) (hdoomed : b.Doomed id) (value : Instance) :
    ¬ report.Resolves id value := by
  intro hvalue
  exact (h.entities _ hvalue).2 hdoomed

/-- What is sound is resolved to what its record says. -/
theorem resolves_iff (h : b.Judges report) (hnames : report.names.Perm b.population.ids)
    (hrecord : b.population.contains id = true) (hsound : b.Sound id) (value : Instance) :
    report.Resolves id value ↔ b.IsBuilt id value := by
  constructor
  · intro hvalue
    exact (h.entities _ hvalue).1
  · intro hbuilt
    have hmem : id ∈ report.names := hnames.mem_iff.mpr (Population.mem_ids_iff.mpr hrecord)
    rcases Report.mem_names.mp hmem with ⟨own, hown⟩ | hfails
    · have hsame : value = own := hbuilt.eq (h.entities _ hown).1
      rwa [hsame]
    · exact absurd hfails (h.not_fails hsound)

theorem fails (h : b.Judges report) (hnames : report.names.Perm b.population.ids)
    (hrecord : b.population.contains id = true) (hdoomed : b.Doomed id) : report.Fails id := by
  have hmem : id ∈ report.names := hnames.mem_iff.mpr (Population.mem_ids_iff.mpr hrecord)
  rcases Report.mem_names.mp hmem with ⟨value, hvalue⟩ | hfails
  · exact absurd hvalue (h.not_resolves hdoomed value)
  · exact hfails

/-- A report on the instances of a basis says nothing of others. -/
theorem silent (hnames : report.names.Perm b.population.ids)
    (hrecord : ¬ b.population.contains id = true) :
    ¬ report.Fails id ∧ ∀ value, ¬ report.Resolves id value := by
  rw [← Population.mem_ids_iff, ← hnames.mem_iff, Report.mem_names, not_or, not_exists] at hrecord
  exact hrecord.symm

/-- Two reports that judge the same instances agree. -/
theorem agree (h : b.Judges report) (hother : b.Judges other)
    (hnames : report.names.Perm b.population.ids)
    (hnamesOther : other.names.Perm b.population.ids) : b.Agree report other where
  names := ⟨hnames, hnamesOther⟩
  values hvalue hown := by
    have hbuilt := (h.entities _ hvalue).1
    have hbuiltOther := (hother.entities _ hown).1
    exact hbuilt.eq hbuiltOther
  sound {id} hrecord hsound := by
    obtain ⟨value, hbuilt⟩ := hsound.isBuilt
    exact ⟨value, (h.resolves_iff hnames hrecord hsound _).mpr hbuilt,
      (hother.resolves_iff hnamesOther hrecord hsound _).mpr hbuilt⟩
  doomed hrecord hdoomed :=
    ⟨h.fails hnames hrecord hdoomed, hother.fails hnamesOther hrecord hdoomed⟩
  certain {id} hcycles := by
    by_cases hrecord : b.population.contains id = true
    · rcases sound_or_doomed hcycles with hsound | hdoomed
      · refine ⟨iff_of_false (h.not_fails hsound) (hother.not_fails hsound), ?_⟩
        intro value
        rw [h.resolves_iff hnames hrecord hsound, hother.resolves_iff hnamesOther hrecord hsound]
      · have hfails := h.fails hnames hrecord hdoomed
        have hfailsOther := hother.fails hnamesOther hrecord hdoomed
        refine ⟨iff_of_true hfails hfailsOther, ?_⟩
        intro value
        exact iff_of_false (h.not_resolves hdoomed value) (hother.not_resolves hdoomed value)
    · obtain ⟨hfails, hresolves⟩ := silent hnames hrecord
      obtain ⟨hfailsOther, hresolvesOther⟩ := silent hnamesOther hrecord
      refine ⟨iff_of_false hfails hfailsOther, ?_⟩
      intro value
      exact iff_of_false (hresolves value) (hresolvesOther value)

end Judges

end Basis

/-! ## All instances of a table -/

namespace Table

/-- A table of which some instances have been resolved, one by one, as a report says.  Depth
was not in the way. -/
structure Judged (b : Basis) (t : Table) (done : Report) : Prop where
  basis : t.basis = b
  idle : t.Idle
  whole : b.Whole [] t.progress
  answers : b.Answers t.progress
  judges : b.Judges done

namespace Judged

variable {b : Basis} {t u : Table} {done report : Report} {id : Int}

/-- Another instance is resolved. -/
theorem resolve (hdefault : b.ByDefault none)
    (hwithin : ∀ other, b.population.PathsWithin b.settings.maxDepth other)
    (h : Judged b t done) (id : Int) : Judged b (t.resolve id none).2 done := by
  obtain ⟨rfl, hidle, hwhole, hanswers, hjudges⟩ := h
  obtain ⟨hkept, _⟩ := Basis.resolve_of_whole id hdefault nofun hidle.closed hwhole
  refine ⟨t.basis_resolve id none, hidle.resolve id none, ?_, ?_, hjudges⟩
  · rw [resolve_snd]
    exact hkept.resolve_left fun ⟨_, hlong⟩ => hlong id rfl (hwithin id)
  · rw [resolve_snd]
    exact Basis.answers_resolve id hdefault hidle.closed hanswers

theorem value (hdefault : b.ByDefault none)
    (hwithin : ∀ other, b.population.PathsWithin b.settings.maxDepth other)
    (h : Judged b t done) {value : Instance} (hvalue : t.resolve id none = (.ok value, u)) :
    Judged b u { done with entities := done.entities ++ [(id, value)] } := by
  have hnext := h.resolve hdefault hwithin id
  have hstanding := standing_of_resolve_ok (congrArg Prod.fst hvalue)
  rw [hvalue] at hnext hstanding
  refine ⟨hnext.basis, hnext.idle, hnext.whole, hnext.answers, ?_, h.judges.failures⟩
  exact List.forall_mem_append.mpr
    ⟨h.judges.entities, List.forall_mem_singleton.mpr (hnext.answers id value hstanding)⟩

theorem error (hdefault : b.ByDefault none)
    (hwithin : ∀ other, b.population.PathsWithin b.settings.maxDepth other)
    (h : Judged b t done) {error : ResolutionError}
    (herror : t.resolve id none = (.error (.resolution error), u)) :
    Judged b u { done with failures := done.failures ++ [(id, error)] } := by
  have hnext := h.resolve hdefault hwithin id
  have hpass : (t.basis.resolve none id t.progress).1 = .error (.resolution error) := by
    rw [← resolve_none_fst, herror]
  rw [herror] at hnext
  refine ⟨hnext.basis, hnext.idle, hnext.whole, hnext.answers, h.judges.entities, ?_⟩
  have hunsound : ¬ b.Sound id := by
    intro hsound
    obtain ⟨rfl, hidle, hwhole, _⟩ := h
    obtain ⟨_, hresolved⟩ := Basis.resolve_of_whole id hdefault nofun hidle.closed hwhole
    obtain ⟨value, hvalue⟩ := hresolved hsound (hwithin id)
    rw [hpass] at hvalue
    cases hvalue
  exact List.forall_mem_append.mpr ⟨h.judges.failures, List.forall_mem_singleton.mpr hunsound⟩

theorem event (h : Judged b t done) (event : Event) : Judged b (t.report event) done :=
  ⟨h.basis, h.idle.report event, ⟨h.whole.unfailed, h.whole.closed⟩, h.answers, h.judges⟩

/-- The resolution of all instances judges them. -/
theorem resolveAll (hdefault : b.ByDefault none)
    (hwithin : ∀ other, b.population.PathsWithin b.settings.maxDepth other)
    (h : Judged b t ⟨[], []⟩) (hreport : t.resolveAll.1 = .ok report) :
    Judged b t.resolveAll.2 report :=
  resolveAll_induction (fun hvalue h => h.value hdefault hwithin hvalue)
    (fun herror h => h.error hdefault hwithin herror) (fun event h => h.event event) h hreport

/-- Nothing is judged yet of a table that was just filled. -/
theorem initial (h : t.Idle) (hopen : ∀ id, t.standing id = .unvisited) :
    Judged t.basis t ⟨[], []⟩ where
  basis := rfl
  idle := h
  whole := whole_of_untouched hopen
  answers id value hresolved := by
    rw [show t.progress.standing id = .unvisited from hopen id] at hresolved
    cases hresolved
  judges := t.basis.judges_nothing

end Judged

/-- A new table with default holders and without factories has taken records, and nothing else
was done at it. -/
structure Fresh (registry : Registry) (settings : Settings) (rs : List Record) (t : Table) :
    Prop where
  extended : (empty registry .initial settings).extend rs = (.ok (), t)
  plain : t.Plain registry settings
  unsealed : t.isSealed = false
  find? : ∀ id s, t.basis.population.find? id = some s ↔ s ∈ rs ∧ s.id = some id

/-- A new table takes records with distinct names. -/
theorem fresh_of_extend {registry : Registry} {settings : Settings} {rs : List Record}
    (hnamed : ∀ r ∈ rs, r.id.isSome = true) (hdistinct : (rs.map Record.id).Nodup) {t : Table}
    (ht : ((empty registry .initial settings).extend rs).2 = t) :
    t.Fresh registry settings rs := by
  have hplain := extend_invariant (fun hadd h => (Plain.add hadd h).1) rs
    (plain_empty registry settings)
  obtain ⟨population, hextend, hfind⟩ :=
    extend_empty_eq_ok registry .initial settings hnamed hdistinct
  rw [ht] at hplain
  rw [hextend] at ht
  subst ht
  exact ⟨hextend, hplain, rfl, hfind⟩

/-- It takes them in another order too. -/
theorem fresh_of_perm {registry : Registry} {settings : Settings} {records others : List Record}
    (hperm : records.Perm others) (hnamed : ∀ r ∈ records, r.id.isSome = true)
    (hdistinct : (records.map Record.id).Nodup) {u : Table}
    (hu : ((empty registry .initial settings).extend others).2 = u) :
    u.Fresh registry settings others := by
  refine fresh_of_extend (fun r hmem => ?_) ((hperm.map _).nodup_iff.mp hdistinct) hu
  exact hnamed r (hperm.mem_iff.mpr hmem)

namespace Fresh

variable {registry : Registry} {settings : Settings} {records others : List Record} {t u : Table}

/-- Tables of the same records differ at most in the order of the records. -/
theorem alike (h : t.Fresh registry settings records) (hother : u.Fresh registry settings others)
    (hperm : records.Perm others) : t.basis.Alike u.basis where
  registry := h.plain.registry.trans hother.plain.registry.symm
  makers := h.plain.makers.trans hother.plain.makers.symm
  settings := h.plain.settings.trans hother.plain.settings.symm
  find? id := by
    refine Option.ext fun s => ?_
    rw [h.find?, hother.find?, hperm.mem_iff]

/-- The resolution of all instances judges them, if depth is not in the way. -/
theorem judges (h : t.Fresh registry settings records)
    (hwithin : ∀ id, t.basis.population.PathsWithin settings.maxDepth id) :
    ∃ report, t.resolveAll.1 = .ok report ∧ t.basis.Judges report ∧
      report.names.Perm t.basis.population.ids := by
  obtain ⟨report, hreport⟩ := resolveAll_eq_ok h.plain
  have hdefault : t.basis.ByDefault none := h.plain.byDefault nofun
  rw [← h.plain.settings] at hwithin
  have hinitial := Judged.initial h.plain.idle (h.plain.untouched h.unsealed)
  have hjudged := hinitial.resolveAll hdefault hwithin hreport
  exact ⟨report, hreport, hjudged.judges, names_resolveAll hreport⟩

/-- No failure is that of a search without end, if there is no reference that makes one. -/
theorem ends (h : t.Fresh registry settings records) (hsearchable : ∀ id, t.basis.Searchable id)
    {report : Report} (hreport : t.resolveAll.1 = .ok report) :
    ∀ failure ∈ report.failures, failure.2.reason.Of Failure.Ends := by
  have hlucid : t.Lucid Failure.Ends registry settings :=
    ⟨h.plain, .of_untouched (h.plain.untouched h.unsealed)⟩
  obtain ⟨own, hown, hends⟩ := hlucid.resolveAll (Basis.confined_of_searchable hsearchable)
  obtain rfl : own = report := Except.ok.inj (hown.symm.trans hreport)
  exact hends

end Fresh

/-- The order of records.  Let the same records, all with names and no two of the same name,
be added to two new tables with default holders and without factories, in whatever order.  Let
no simple path of references be longer than the limit, and no reference be declared to be of a
select that leads to a circle of defined types.  Then both tables take the records all, and the
resolutions of all instances come to reports that agree: on every instance that is resolved in
both, on those that are sound, on those that are doomed, and so on all that lead to no cycle of
which the fate is uncertain.  No failure in them is that of a search without end. -/
theorem resolveAll_perm {registry : Registry} {settings : Settings} {records others : List Record}
    (hperm : records.Perm others) (hnamed : ∀ r ∈ records, r.id.isSome = true)
    (hdistinct : (records.map Record.id).Nodup) {t u : Table}
    (ht : ((empty registry .initial settings).extend records).2 = t)
    (hu : ((empty registry .initial settings).extend others).2 = u)
    (hwithin : ∀ id, t.basis.population.PathsWithin settings.maxDepth id)
    (hsearchable : ∀ id, t.basis.Searchable id) :
    ((empty registry .initial settings).extend records).1 = .ok () ∧
      ((empty registry .initial settings).extend others).1 = .ok () ∧
      ∃ first second, t.resolveAll.1 = .ok first ∧ u.resolveAll.1 = .ok second ∧
        t.basis.Agree first second ∧
        ∀ failure ∈ first.failures ++ second.failures, failure.2.reason.Of Failure.Ends := by
  have hfresh := fresh_of_extend hnamed hdistinct ht
  have hfreshOther := fresh_of_perm hperm hnamed hdistinct hu
  have halike := hfresh.alike hfreshOther hperm
  obtain ⟨first, hfirst, hjudges, hnames⟩ := hfresh.judges hwithin
  obtain ⟨second, hsecond, hjudgesOther, hnamesOther⟩ :=
    hfreshOther.judges fun id => halike.pathsWithin (hwithin id)
  rw [hfresh.extended, hfreshOther.extended]
  refine ⟨rfl, rfl, first, second, hfirst, hsecond, ?_, ?_⟩
  · exact hjudges.agree (halike.symm.judges hjudgesOther) hnames
      (hnamesOther.trans halike.symm.ids_perm)
  · exact List.forall_mem_append.mpr ⟨hfresh.ends hsearchable hfirst,
      hfreshOther.ends (fun id => halike.searchable (hsearchable id)) hsecond⟩

end Table

/-! ## Samples -/

namespace Sample

/-- Two nodes that refer to each other, and one that refers to them and to none that is there. -/
def sturdy : List Record := [record 1 [2], record 2 [1], record 3 [1, 9]]

/-- Two nodes that refer to each other, of which one also refers to none that is there. -/
def broken : List Record := [record 1 [2, 9], record 2 [1]]

/-- A new table filled with nodes. -/
def filled (records : List Record) : Table :=
  ((Table.empty registry .initial .default).extend records).2

end Sample

namespace Table

theorem resolveAll_perm_sturdy :
    ((empty Sample.registry .initial .default).extend Sample.sturdy).1 = .ok () ∧
      ((empty Sample.registry .initial .default).extend Sample.sturdy.reverse).1 = .ok () ∧
      ∃ first second, (Sample.filled Sample.sturdy).resolveAll.1 = .ok first ∧
        (Sample.filled Sample.sturdy.reverse).resolveAll.1 = .ok second ∧
        (Sample.filled Sample.sturdy).basis.Agree first second ∧
        ∀ failure ∈ first.failures ++ second.failures, failure.2.reason.Of Failure.Ends := by
  have hknown : ∀ entry ∈ Sample.registry.types,
      (Sample.registry.underlying entry.2).isOk = true := by decide +kernel
  exact resolveAll_perm (List.reverse_perm _).symm (by decide) (by decide) rfl rfl
    (Population.pathsWithin_of_size_le (by decide +kernel))
    fun _ _ _ _ _ l _ => Registry.searchable_of_underlying hknown l.expected

/-- The order matters to a node on a circle with something wrong behind it.  If the node with
the faulty reference comes first, the other one finds it under construction and is resolved;
if it comes second, its failure is that of the other one too. -/
theorem not_resolveAll_perm :
    Sample.broken.Perm Sample.broken.reverse ∧
      (∀ r ∈ Sample.broken, r.id.isSome = true) ∧ (Sample.broken.map Record.id).Nodup ∧
      (∀ id, (Sample.filled Sample.broken).basis.population.PathsWithin
        Settings.default.maxDepth id) ∧
      ∃ first second, (Sample.filled Sample.broken).resolveAll.1 = .ok first ∧
        (Sample.filled Sample.broken.reverse).resolveAll.1 = .ok second ∧
        ¬ ∀ id, first.Fails id ↔ second.Fails id := by
  refine ⟨(List.reverse_perm _).symm, by decide, by decide,
    Population.pathsWithin_of_size_le (by decide +kernel), _, _, rfl, rfl, fun hsame => ?_⟩
  obtain ⟨error, herror⟩ := (hsame 2).mpr ⟨_, List.mem_cons_self⟩
  cases herror with
  | tail _ hmem => cases hmem

end Table

end Part21
