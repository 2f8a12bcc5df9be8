import Part21.Proofs.Resolution.Errors

set_option autoImplicit false

/-!
# Passages

A building hands errors on if the first reference that cannot be followed ends it by the same
error, and if it starts no resolution of its own.  The default holder builds so, with any factory
that starts none either, and so does a holder that calls its buildings off (`Holder.callingOff`).

What holds of every step of a pass through such buildings holds of the pass as a whole: a `Passage`
says of the steps how a property of entering an instance, one of visiting a target and one of
running a building hang together, and `Passage.resolve` draws the conclusion.  In contrast to a
course, a passage need not know what a building is made of.
-/

namespace Part21

/-! ## Buildings that hand errors on -/

/-- A building follows references to some instances only, ends by the error of the first one that
cannot be followed, and starts no resolution of its own.  An error that it ends by otherwise is a
fault of the record or of the given kind. -/
inductive Build.HandsOn {α : Type} (targets : List Int) (kind : Thrown → Prop) : Build α → Prop
  | done {outcome : Except Thrown α}
      (hown : ∀ thrown, outcome = .error thrown → thrown.IsFault ∨ kind thrown) :
      HandsOn targets kind (.done outcome)
  | visit {id : Int} {expected : TypeDef} {place : Text} {next : Except Thrown Unit → Build α}
      (hid : id ∈ targets) (hstops : ∀ thrown, next (.error thrown) = .done (.error thrown))
      (hnext : HandsOn targets kind (next (.ok ()))) :
      HandsOn targets kind (.visit id expected place next)

/-- A holder builds by handing errors on, wherever its factory is steady.  It follows references of
the parameters only. -/
def Holder.HandsOn (holder : Holder) (kind : Thrown → Prop) : Prop :=
  ∀ site e factory parameters, (∀ make ∈ factory, Factory.Steady make kind) →
    (holder site e factory parameters).HandsOn (Parameter.allReferences parameters) kind

/-- The holder, if there is one, hands errors on, and the factory, if there is one, starts no
resolution and fails with errors of some kind only. -/
structure Maker.HandsOn (m : Maker) (kind : Thrown → Prop) : Prop where
  holder : ∀ holder ∈ m.holder, Holder.HandsOn holder kind
  factory : ∀ make ∈ m.factory, Factory.Steady make kind

/-- All makers hand errors on. -/
def Makers.HandOn (m : Makers) (kind : Thrown → Prop) : Prop := ∀ key, (m key).HandsOn kind

/-- What is brought along, if anything, hands errors on. -/
def Blueprint.HandOn (brought : Option Blueprint) (kind : Thrown → Prop) : Prop :=
  ∀ own ∈ brought, own.maker.HandsOn kind

variable {kind : Thrown → Prop}

theorem Maker.handsOn_default (kind : Thrown → Prop) : Maker.default.HandsOn kind :=
  ⟨nofun, nofun⟩

theorem Makers.handOn_initial (kind : Thrown → Prop) : Makers.initial.HandOn kind :=
  fun _ => Maker.handsOn_default kind

theorem Makers.HandOn.change {m : Makers} (h : m.HandOn kind) (name : Text) {maker : Maker}
    (hmaker : maker.HandsOn kind) : (m.change name maker).HandOn kind := by
  intro key
  unfold Makers.change
  split
  · exact hmaker
  · exact h key

namespace Build

variable {α : Type} {targets : List Int}

theorem handsOn_throw {thrown : Thrown} (h : thrown.IsFault ∨ kind thrown) :
    (throw thrown : Build α).HandsOn targets kind :=
  .done fun _ hown => Except.error.inj hown ▸ h

/-- To follow links and then to come to an outcome is to hand errors on. -/
theorem handsOn_after {links : List Link} {outcome : Except Thrown α}
    (htargets : ∀ target ∈ links.map Link.target, target ∈ targets)
    (hown : ∀ thrown, outcome = .error thrown → thrown.IsFault ∨ kind thrown) :
    (after links (.done outcome)).HandsOn targets kind := by
  induction links with
  | nil => exact .done hown
  | cons l rest ih =>
    obtain ⟨hfirst, hrest⟩ := List.forall_mem_cons.mp htargets
    exact .visit hfirst (fun _ => rfl) (ih hrest)

end Build

namespace Holder

/-- The default holder hands errors on. -/
theorem default_handsOn (kind : Thrown → Prop) : Holder.default.HandsOn kind := by
  intro site e factory parameters hfactory
  unfold Holder.default
  cases hslots : site.hold e parameters with
  | error thrown =>
    exact Build.handsOn_throw (.inl (site.lapses_hold e parameters thrown hslots).isFault)
  | ok slots =>
    have htargets : ∀ target ∈ (Held.slotLinks slots).map Link.target,
        target ∈ Parameter.allReferences parameters := by
      rw [Site.targets_hold hslots]
      exact fun _ hmem => hmem
    rw [Build.ofExcept_bind_ok]
    cases factory with
    | none =>
      dsimp only
      rw [Site.release_eq (Site.rooted_of_hold hslots), Build.after_bind, Build.pure_bind]
      refine Build.handsOn_after htargets fun thrown hthrown => ?_
      cases hthrown
    | some make =>
      have hmake := hfactory make rfl
      obtain ⟨outcome, hmade⟩ := hmake.atOnce site (Held.fieldsOnto [] slots)
      dsimp only
      rw [Held.releaseOnto_eq, Build.after_bind, Build.pure_bind, hmade]
      exact Build.handsOn_after htargets fun thrown hthrown =>
        .inr (hmake.kind_of_throw (hmade.trans (congrArg Build.done hthrown)))

/-- The default holder, but for buildings that are called off where references would be followed
next.  Which ones these are may depend on everything that a holder is told. -/
def callingOff (stops : Site → Option Text) : Holder := fun site e factory parameters =>
  match site.hold e parameters, stops site with
  | .ok _, some message => .throw (.interrupt message)
  | _, _ => Holder.default site e factory parameters

/-- To call a building off is to hand errors on, where interrupts are of the kind of errors that may
come up. -/
theorem callingOff_handsOn (stops : Site → Option Text)
    (hkind : ∀ message, kind (.interrupt message)) : (callingOff stops).HandsOn kind := by
  intro site e factory parameters hfactory
  unfold callingOff
  split
  · exact Build.handsOn_throw (.inr (hkind _))
  · exact default_handsOn kind site e factory parameters hfactory

end Holder

namespace Basis

variable {b : Basis} {brought : Option Blueprint}

theorem handsOn_blueprint (hmakers : b.makers.HandOn kind)
    (hbrought : Blueprint.HandOn brought kind) {keyword : Text} {own : Blueprint}
    (h : b.blueprint brought keyword = .ok own) : own.maker.HandsOn kind := by
  unfold blueprint at h
  split at h
  · cases h
    exact hmakers _
  · split at h
    · rename_i other
      split at h
      · cases h
        exact hbrought own rfl
      · cases h
    · cases h

/-- A record held by the default holder is built by handing errors on. -/
theorem handsOn_build_of_heldByDefault {r : Record} (hholder : b.HeldByDefault brought r)
    (hfactory : ∀ make ∈ b.factory? brought r, Factory.Steady make kind) {site : Site}
    (hregistry : site.registry = b.registry) (hsettings : site.settings = b.settings) :
    (b.build brought site r).HandsOn r.references kind := by
  rw [build_eq_made hholder hregistry hsettings]
  cases hheld : b.hold brought site.id r with
  | error thrown =>
    exact Build.handsOn_throw (.inl (b.lapses_hold brought site.id r thrown hheld).isFault)
  | ok held =>
    obtain ⟨outcome, hmade⟩ :=
      made_eq_done (fun make hmake => (hfactory make hmake).atOnce) site held
    dsimp only
    rw [hmade]
    refine Build.handsOn_after (fun target hmem => targets_hold hheld ▸ hmem) ?_
    rintro thrown rfl
    rcases b.made_cases brought site r held with ⟨value, hvalue⟩ | ⟨make, hmake, fields, hfields⟩
    · cases hvalue.symm.trans hmade
    · exact .inr ((hfactory make hmake).kind_of_throw (hfields.symm.trans hmade))

/-- Where makers hand errors on, every record is built so. -/
theorem handsOn_build (hmakers : b.makers.HandOn kind) (hbrought : Blueprint.HandOn brought kind)
    (r : Record) {site : Site} (hregistry : site.registry = b.registry)
    (hsettings : site.settings = b.settings) :
    (b.build brought site r).HandsOn r.references kind := by
  by_cases hholder : b.HeldByDefault brought r
  · refine handsOn_build_of_heldByDefault hholder (fun make hmake => ?_) hregistry hsettings
    unfold factory? at hmake
    split at hmake
    · split at hmake
      · cases hmake
      · rename_i own hown
        exact (handsOn_blueprint hmakers hbrought hown).factory make hmake
    · cases hmake
  · simp only [HeldByDefault, not_forall] at hholder
    obtain ⟨group, own, hbody, hown, hholder⟩ := hholder
    obtain ⟨holder, hholder⟩ := Option.ne_none_iff_exists'.mp hholder
    have hmaker := handsOn_blueprint hmakers hbrought hown
    unfold build Record.references Record.groups Blueprint.build
    rw [hbody]
    dsimp only
    rw [hown]
    dsimp only
    rw [hholder, Body.groups, List.flatMap_singleton]
    exact hmaker.holder holder hholder site _ _ _ hmaker.factory

/-! ## Steps of a pass -/

/-- Three properties that hang together along a pass: of entering an instance that has a record,
of visiting a target from the last instance on the path, and of running a building of that
instance. -/
structure Passage (b : Basis) (kind : Thrown → Prop)
    (Entered : List Int → Int → Progress → Except Thrown Instance → Progress → Prop)
    (Visited : List Int → Int → Progress → Except Thrown Unit → Progress → Prop)
    (Ran : List Int → Progress → Except Thrown Instance → Progress → Prop) : Prop where
  /-- the instance is resolved already -/
  resolved {path : List Int} {id : Int} {p : Progress} {value : Instance}
    (hstanding : p.standing id = .resolved value) : Entered path id p (.ok value) p
  /-- the instance has failed already -/
  failed {path : List Int} {id : Int} {p : Progress} {error : ResolutionError}
    (horderly : p.Orderly b.population) (hstanding : p.standing id = .failed error) :
    Entered path id p (.error (.resolution error)) p
  /-- its building is run -/
  built {path : List Int} {id : Int} {p q : Progress} {r : Record}
    {outcome : Except Thrown Instance} (harrives : b.Arrives path id p)
    (hr : b.population.find? id = some r) (hopen : p.standing id = .unvisited)
    (hran : Ran (id :: path) (p.begin id) outcome q) :
    Entered path id p (b.ending id r outcome).outcome (q.finish id (b.ending id r outcome))
  /-- there is no such instance -/
  missing {path : List Int} {target : Int} {p : Progress}
    (hr : b.population.find? target = none) :
    Visited path target p (.error (.reason (.unresolved target))) p
  /-- the instance is under construction, and only tested -/
  deferred {path : List Int} {target : Int} {p : Progress} {tested : Except Thrown Unit}
    (htested : Thrown.Faults tested) (event : Event) :
    Visited path target p tested (p.report event)
  /-- the path is at its limit -/
  refused {path : List Int} {target referrer : Int} {p : Progress}
    (harrives : b.Arrives path target p) (hnew : target ∉ path)
    (hreferrer : path.head? = some referrer) (hlimit : b.settings.maxDepth ≤ path.length) :
    Visited path target p (.error (.reason (.tooDeep b.settings.maxDepth)))
      (p.note (.refused referrer target))
  /-- the instance is entered and then tested -/
  below {path : List Int} {target : Int} {p q : Progress} {outcome : Except Thrown Instance}
    {tested : Except Thrown Unit} (hlimit : path.length < b.settings.maxDepth)
    (hentered : Entered path target p outcome q) (htested : Thrown.Faults tested) :
    Visited path target p (outcome.bind fun _ => tested) q
  /-- the building comes to an outcome of its own -/
  done {path : List Int} {p : Progress} {outcome : Except Thrown Instance}
    (hown : ∀ thrown, outcome = .error thrown → thrown.IsFault ∨ kind thrown) :
    Ran path p outcome p
  /-- a reference cannot be followed -/
  stopped {path : List Int} {target : Int} {p q : Progress} {thrown : Thrown}
    (hvisited : Visited path target p (.error thrown) q) : Ran path p (.error thrown) q
  /-- a reference is followed, and the building goes on -/
  passed {path : List Int} {target : Int} {p q s : Progress} {outcome : Except Thrown Instance}
    (hvisited : Visited path target p (.ok ()) q) (hran : Ran path q outcome s) :
    Ran path p outcome s

namespace Passage

variable {Entered : List Int → Int → Progress → Except Thrown Instance → Progress → Prop}
  {Visited : List Int → Int → Progress → Except Thrown Unit → Progress → Prop}
  {Ran : List Int → Progress → Except Thrown Instance → Progress → Prop}

theorem visit (c : b.Passage kind Entered Visited Ran) {buildings : Nat} {path : List Int}
    (hentered : ∀ {id p r}, b.Arrives path id p → p.Orderly b.population →
      b.population.find? id = some r → id ∉ path →
      Entered path id p (b.enter buildings ⟨brought, path⟩ id p).1
        (b.enter buildings ⟨brought, path⟩ id p).2)
    {referrer : Int} (hreferrer : path.head? = some referrer) {target : Int} {p : Progress}
    (harrives : b.Arrives path target p) (horderly : p.Orderly b.population)
    (expected : TypeDef) (place : Text) :
    Visited path target p
      (b.visit (b.enter buildings) ⟨brought, path⟩ referrer target expected place p).1
      (b.visit (b.enter buildings) ⟨brought, path⟩ referrer target expected place p).2 := by
  unfold Basis.visit
  split
  · rename_i hr
    exact c.missing hr
  · rename_i r hr
    have htested := b.faults_checkTarget brought target r expected place
    dsimp only
    split
    · exact c.deferred htested _
    · rename_i hmem
      have hnew : target ∉ path := fun h => hmem (List.contains_iff_mem.mpr h)
      split
      · rename_i hlimit
        have hbelow := c.below hlimit (hentered harrives horderly hr hnew) htested
        split <;> rename_i hresult <;> rw [hresult] at hbelow <;> exact hbelow
      · rename_i hlimit
        exact c.refused harrives hnew hreferrer (Nat.le_of_not_lt hlimit)

theorem run (c : b.Passage kind Entered Visited Ran) {buildings : Nat} {path : List Int}
    (hentered : ∀ {id p r}, b.Arrives path id p → p.Orderly b.population →
      b.population.find? id = some r → id ∉ path →
      Entered path id p (b.enter buildings ⟨brought, path⟩ id p).1
        (b.enter buildings ⟨brought, path⟩ id p).2)
    {referrer : Int} (hreferrer : path.head? = some referrer) {targets : List Int}
    {build : Build Instance} (hbuild : build.HandsOn targets kind)
    (resolved : Int → Progress → Except Thrown Instance × Progress) {p : Progress}
    (harrives : ∀ target ∈ targets, b.Arrives path target p)
    (horderly : p.Orderly b.population) :
    Ran path p
      (build.run (b.visit (b.enter buildings) ⟨brought, path⟩ referrer) resolved p).1
      (build.run (b.visit (b.enter buildings) ⟨brought, path⟩ referrer) resolved p).2 := by
  induction hbuild generalizing p with
  | done hown => exact c.done hown
  | @visit id expected place next hid hstops _ ih =>
    have hvisited := c.visit hentered hreferrer (harrives id hid) horderly expected place
    have hadvances := b.visit_advances (b.enter_advances buildings) ⟨brought, path⟩ referrer id
      expected place p
    rw [Build.run]
    generalize b.visit (b.enter buildings) ⟨brought, path⟩ referrer id expected place p = answer
      at hvisited hadvances ⊢
    obtain ⟨answer, q⟩ := answer
    cases answer with
    | error thrown =>
      dsimp only
      rw [hstops]
      exact c.stopped hvisited
    | ok done =>
      refine c.passed hvisited (ih ?_ (horderly.moves hadvances.moves))
      exact fun target hmem =>
        (harrives target hmem).advance hadvances (harrives target hmem).referred

/-- What holds of the steps of a pass holds of it as a whole. -/
theorem enter (c : b.Passage kind Entered Visited Ran) (hmakers : b.makers.HandOn kind)
    (hbrought : Blueprint.HandOn brought kind) {buildings : Nat} {path : List Int} {id : Int}
    {p : Progress} {r : Record} (harrives : b.Arrives path id p)
    (horderly : p.Orderly b.population) (hr : b.population.find? id = some r) (hnew : id ∉ path)
    (hroom : b.population.size < buildings + path.length) :
    Entered path id p (b.enter buildings ⟨brought, path⟩ id p).1
      (b.enter buildings ⟨brought, path⟩ id p).2 := by
  induction buildings generalizing path id p r with
  | zero =>
    have hlength := (harrives.isPath_cons hr hnew).length_le
    rw [List.length_reverse, List.length_cons] at hlength
    omega
  | succ buildings ih =>
    unfold Basis.enter
    rw [hr]
    dsimp only
    cases hstanding : p.standing id with
    | inProgress => exact absurd ((harrives.open_iff id).mp hstanding) hnew
    | resolved value => exact c.resolved hstanding
    | failed error => exact c.failed horderly hstanding
    | unvisited =>
      refine c.built harrives hr hstanding (c.run ?_ rfl
        (handsOn_build hmakers hbrought r rfl rfl) _ ?_ ?_)
      · intro target q s hthere hordered hs hfresh
        exact ih hthere hordered hs hfresh (by rw [List.length_cons]; omega)
      · exact fun target hmem => harrives.begin hr hstanding ⟨r, hr, hmem⟩
      · exact horderly.begin hstanding (Population.contains_of_find? hr)

/-- The same of a resolution that begins while nothing is in progress. -/
theorem resolve (c : b.Passage kind Entered Visited Ran) (hmakers : b.makers.HandOn kind)
    (hbrought : Blueprint.HandOn brought kind) {id : Int} {p : Progress} {r : Record}
    (hclosed : ∀ other, p.standing other ≠ .inProgress) (horderly : p.Orderly b.population)
    (hr : b.population.find? id = some r) :
    Entered [] id p (b.resolve brought id p).1 (b.resolve brought id p).2 :=
  c.enter hmakers hbrought (arrives_nil hclosed id) horderly hr List.not_mem_nil
    (Nat.lt_succ_self _)

end Passage

end Basis

end Part21
