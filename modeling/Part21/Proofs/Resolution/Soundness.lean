import Part21.Proofs.Resolution.Brought
import Part21.Proofs.Resolution.Descent

set_option autoImplicit false

/-!
# Sound instances

An instance is sound if nothing is wrong with it nor with any instance that it leads to:
their records can be held, and every link leads to a record of the type expected.  Whether
references lead in circles does not matter.

A sound instance never fails.  A link back to an instance under construction is passed
over, and the instance it leads to is completed by the building that began it, so at any
time the targets of a resolved sound instance are resolved themselves or still on the path
(`Basis.Whole`).  Only depth can get in the way, and only where a simple path from the
outset is longer than the limit (`Table.resolve_of_sound`).
-/

namespace Part21

namespace Basis

/-- Nothing is wrong with an instance itself: its record can be held, and every link of it
leads to a record of the type expected. -/
def Intact (b : Basis) (id : Int) : Prop :=
  ∃ r held, b.population.find? id = some r ∧ b.hold none id r = .ok held ∧
    ∀ l ∈ held.links, ∃ target, b.population.find? l.target = some target ∧
      b.checkTarget none l.target target l.expected l.place = .ok ()

/-- Nothing is wrong with any instance that an instance leads to. -/
def Sound (b : Basis) (id : Int) : Prop :=
  ∀ other, b.population.LeadsTo id other → b.Intact other

/-- The targets of instances of some kind that are resolved are resolved or under
construction. -/
def Closed (b : Basis) (kind : Int → Prop) (path : List Int) (p : Progress) : Prop :=
  ∀ ⦃id value target⦄, kind id → p.standing id = .resolved value →
    b.population.Refers id target → target ∈ path ∨ ∃ value, p.standing target = .resolved value

/-- What sound instances have come to on a pass: none has failed, and the targets of one that
is resolved are resolved or under construction. -/
structure Whole (b : Basis) (path : List Int) (p : Progress) : Prop where
  unfailed : ∀ {id error}, b.Sound id → p.standing id ≠ .failed error
  closed : b.Closed b.Sound path p

variable {b : Basis} {brought : Option Blueprint}

theorem Sound.intact {id : Int} (h : b.Sound id) : b.Intact id := h id .refl

theorem Sound.of_leadsTo {id other : Int} (h : b.Sound id)
    (hleads : b.population.LeadsTo id other) : b.Sound other :=
  fun far hfar => h far (hleads.trans hfar)

theorem Sound.of_refers {id target : Int} (h : b.Sound id)
    (hrefers : b.population.Refers id target) : b.Sound target :=
  h.of_leadsTo (.single hrefers)

/-- A sound instance is held in the same way whatever is brought along, and its links lead to
sound instances of the types expected. -/
theorem Sound.hold (hadmits : ∀ own, brought = some own → b.registry.Admits own) {id : Int}
    {r : Record} (h : b.Sound id) (hr : b.population.find? id = some r) :
    ∃ held, b.hold brought id r = .ok held ∧ ∀ l ∈ held.links, b.Sound l.target ∧
      ∃ target, b.population.find? l.target = some target ∧
        b.checkTarget brought l.target target l.expected l.place = .ok () := by
  obtain ⟨s, held, hs, hheld, hlinks⟩ := h.intact
  obtain rfl : s = r := Option.some.inj (hs.symm.trans hr)
  refine ⟨held, hold_of_none hheld, ?_⟩
  intro l hmem
  have htarget : b.Sound l.target := by
    refine h.of_refers ⟨s, hr, ?_⟩
    rw [← targets_hold hheld]
    exact List.mem_map_of_mem hmem
  obtain ⟨target, hfind, hcheck⟩ := hlinks l hmem
  obtain ⟨t, heldTarget, ht, hheldTarget, _⟩ := htarget.intact
  obtain rfl : t = target := Option.some.inj (ht.symm.trans hfind)
  exact ⟨htarget, t, hfind, checkTarget_of_none hadmits (known_of_hold hheldTarget) hcheck⟩

/-! ## Steps of a descent -/

namespace Closed

variable {kind : Int → Prop} {path : List Int} {id : Int} {p q : Progress}

theorem begin (h : b.Closed kind path p) (hopen : p.standing id = .unvisited) :
    b.Closed kind (id :: path) (p.begin id) := by
  intro other value target hkind hresolved hrefers
  have hother : other ≠ id := by
    rintro rfl
    rw [Progress.standing_begin_self] at hresolved
    cases hresolved
  rw [Progress.standing_begin_other p hother] at hresolved
  rcases h hkind hresolved hrefers with hmem | ⟨own, hown⟩
  · exact .inl (List.mem_cons_of_mem id hmem)
  · by_cases htarget : target = id
    · exact .inl (htarget ▸ List.mem_cons_self)
    · exact .inr ⟨own, (Progress.standing_begin_other p htarget).trans hown⟩

/-- An instance is completed behind its last link. -/
theorem complete (h : b.Closed kind (id :: path) q) (value : Instance)
    (hpassed : ∀ target, b.population.Refers id target →
      target ∈ id :: path ∨ ∃ value, q.standing target = .resolved value) :
    b.Closed kind path (q.finish id (.completed value)) := by
  intro other own target hkind hresolved hrefers
  have hreached : target ∈ id :: path ∨ ∃ value, q.standing target = .resolved value := by
    by_cases hother : other = id
    · exact hpassed target (hother ▸ hrefers)
    · rw [Progress.standing_finish_other q _ hother] at hresolved
      exact h hkind hresolved hrefers
  by_cases htarget : target = id
  · rw [htarget, Progress.standing_finish_self]
    exact .inr ⟨value, rfl⟩
  · rw [Progress.standing_finish_other q _ htarget]
    exact hreached.imp_left fun hmem => List.mem_of_ne_of_mem htarget hmem

end Closed

/-- The targets of an instance of which all links were followed. -/
theorem reached_of_passed {path : List Int} {id : Int} {q : Progress} {r : Record}
    {held : HeldRecord} (hr : b.population.find? id = some r)
    (hheld : b.hold brought id r = .ok held)
    (hpassed : ∀ l ∈ held.links, b.Passed brought (id :: path) q l) :
    ∀ target, b.population.Refers id target →
      target ∈ id :: path ∨ ∃ value, q.standing target = .resolved value := by
  rintro target ⟨s, hs, hmem⟩
  obtain rfl : s = r := Option.some.inj (hs.symm.trans hr)
  rw [← targets_hold hheld] at hmem
  obtain ⟨l, hl, rfl⟩ := List.mem_map.mp hmem
  exact (hpassed l hl).reached

namespace Whole

variable {path : List Int} {id : Int} {p q : Progress}

theorem begin (h : b.Whole path p) (hopen : p.standing id = .unvisited) :
    b.Whole (id :: path) (p.begin id) where
  unfailed {other error} hsound := by
    rw [Progress.standing_begin]
    split
    · nofun
    · exact h.unfailed hsound
  closed := h.closed.begin hopen

theorem complete (h : b.Whole (id :: path) q) (value : Instance)
    (hpassed : ∀ target, b.population.Refers id target →
      target ∈ id :: path ∨ ∃ value, q.standing target = .resolved value) :
    b.Whole path (q.finish id (.completed value)) where
  unfailed {other error} hsound := by
    rw [Progress.standing_finish]
    split
    · nofun
    · exact h.unfailed hsound
  closed := h.closed.complete value hpassed

/-- However an instance that is not sound comes out, no resolved sound instance waits for it. -/
theorem finish (h : b.Whole (id :: path) q) (hunsound : ¬ b.Sound id) (ending : Ending) :
    b.Whole path (q.finish id ending) where
  unfailed {other own} hsound := by
    have hother : other ≠ id := fun hsame => hunsound (hsame ▸ hsound)
    rw [Progress.standing_finish_other q _ hother]
    exact h.unfailed hsound
  closed {other own target} hsound hresolved hrefers := by
    have hother : other ≠ id := fun hsame => hunsound (hsame ▸ hsound)
    have htarget : target ≠ id := fun hsame => hunsound (hsame ▸ hsound.of_refers hrefers)
    rw [Progress.standing_finish_other q _ hother] at hresolved
    rw [Progress.standing_finish_other q _ htarget]
    exact (h.closed hsound hresolved hrefers).imp_left (List.mem_of_ne_of_mem htarget)

end Whole

/-! ## Passes -/

/-- A link leads to a sound instance of the type expected. -/
def SoundLink (b : Basis) (brought : Option Blueprint) (l : Link) : Prop :=
  b.Sound l.target ∧ ∃ target, b.population.find? l.target = some target ∧
    b.checkTarget brought l.target target l.expected l.place = .ok ()

/-- Something was given up on a pass that began at an instance from which a simple path is
longer than the limit. -/
def Overran {α : Type} (b : Basis) (path : List Int) (outcome : Except Thrown α) : Prop :=
  Thrown.GivesUp outcome ∧
    ∀ root, path.getLast? = some root → ¬ b.population.PathsWithin b.settings.maxDepth root

/-- What a pass makes of whole progress: it stays whole, and all is well with what is sound,
unless the limit was in the way. -/
def Preserves {α : Type} (b : Basis) (path below : List Int) (sound : Prop) (p : Progress)
    (outcome : Except Thrown α) (q : Progress) : Prop :=
  b.Whole path p →
    (b.Overran below outcome ∨ b.Whole path q) ∧
      (sound → (∃ value, outcome = .ok value) ∨ b.Overran below outcome)

theorem not_overran_ok {α : Type} {path : List Int} (value : α) :
    ¬ b.Overran path (.ok value) :=
  fun h => Thrown.not_givesUp_ok value h.1

theorem getLast?_cons_of_some {path : List Int} {root : Int} (h : path.getLast? = some root)
    (id : Int) : (id :: path).getLast? = some root := by
  rw [List.getLast?_cons, h]
  rfl

/-- An error of something that was given up is passed on to what waits for it. -/
theorem Overran.pass {α β : Type} {path above : List Int} {thrown : Thrown}
    {outcome : Except Thrown β} (h : b.Overran path (.error thrown : Except Thrown α))
    (habove : ∀ root, above.getLast? = some root → path.getLast? = some root)
    (hgives : thrown.isGivenUp = true → Thrown.GivesUp outcome) : b.Overran above outcome :=
  ⟨hgives (Thrown.givesUp_error.mp h.1), fun root hroot => h.2 root (habove root hroot)⟩

/-- What is sound keeps progress whole, on every descent. -/
theorem whole_descent (hadmits : ∀ own, brought = some own → b.registry.Admits own) :
    b.Descent brought
      (fun path id => b.Preserves path (id :: path) (b.Sound id))
      (fun path l => b.Preserves path path (b.SoundLink brought l))
      (fun path links => b.Preserves path path (∀ l ∈ links, b.SoundLink brought l)) where
  resolved _ hwhole := ⟨.inr hwhole, fun _ => .inl ⟨_, rfl⟩⟩
  failed hstanding hwhole :=
    ⟨.inr hwhole, fun hsound => absurd hstanding (hwhole.unfailed hsound)⟩
  unheld {path id p r thrown} hr hopen hheld hwhole := by
    have hunsound : ¬ b.Sound id := by
      intro hsound
      obtain ⟨held, hsome, _⟩ := hsound.hold hadmits hr
      rw [hheld] at hsome
      cases hsome
    have hkept := (hwhole.begin hopen).finish hunsound (b.ending id r (.error thrown))
    exact ⟨.inr hkept, fun hsound => absurd hsound hunsound⟩
  built {path id p q r held outcome} harrives hr hopen hheld hfollowed hpassed hwhole := by
    obtain ⟨hkept, hfares⟩ := hfollowed (hwhole.begin hopen)
    have hlinks : b.Sound id → ∀ l ∈ held.links, b.SoundLink brought l := by
      intro hsound
      obtain ⟨own, hown, hlinks⟩ := hsound.hold hadmits hr
      obtain rfl : own = held := Except.ok.inj (hown.symm.trans hheld)
      exact hlinks
    cases outcome with
    | ok done =>
      have hwhole := hkept.resolve_left (not_overran_ok done)
      have hreached := reached_of_passed hr hheld (hpassed rfl)
      exact ⟨.inr (hwhole.complete _ hreached), fun _ => .inl ⟨_, rfl⟩⟩
    | error thrown =>
      have hpass : b.Overran (id :: path) (.error thrown : Except Thrown Unit) →
          b.Overran (id :: path) (b.ending id r (.error thrown)).outcome := by
        intro hoverran
        refine hoverran.pass (fun _ hroot => hroot) fun hthrown => ?_
        rcases b.ending_error_cases id r thrown with ⟨_, _, hgiven⟩ | ⟨hkeeps, _⟩
        · exact hgiven
        · rw [hthrown] at hkeeps
          cases hkeeps
      have hsoundOverran : b.Sound id →
          b.Overran (id :: path) (b.ending id r (.error thrown)).outcome := by
        intro hsound
        rcases hfares (hlinks hsound) with ⟨_, hok⟩ | hoverran
        · cases hok
        · exact hpass hoverran
      refine ⟨?_, fun hsound => .inr (hsoundOverran hsound)⟩
      rcases hkept with hoverran | hkept
      · exact .inl (hpass hoverran)
      · by_cases hsound : b.Sound id
        · exact .inl (hsoundOverran hsound)
        · exact .inr (hkept.finish hsound _)
  missing hr hwhole := by
    refine ⟨.inr hwhole, ?_⟩
    rintro ⟨_, target, htarget, _⟩
    rw [hr] at htarget
    cases htarget
  deferred {path l p r} referrer harrives hr hmem hwhole := by
    refine ⟨.inr ⟨hwhole.unfailed, hwhole.closed⟩, ?_⟩
    rintro ⟨_, target, htarget, hcheck⟩
    obtain rfl : target = r := Option.some.inj (htarget.symm.trans hr)
    exact .inl ⟨(), hcheck⟩
  refused {path l p r} referrer harrives hr hnew hlimit hwhole := by
    have hoverran : b.Overran path
        (.error (.reason (.tooDeep b.settings.maxDepth)) : Except Thrown Unit) := by
      refine ⟨⟨_, rfl, rfl⟩, ?_⟩
      intro root hroot hwithin
      -- The path together with the instance it was not to go on to is too long.
      have hlength := hwithin _ (List.head?_reverse.trans (getLast?_cons_of_some hroot l.target))
        (harrives.isPath_cons hr hnew)
      rw [List.length_reverse, List.length_cons] at hlength
      omega
    exact ⟨.inl hoverran, fun _ => .inr hoverran⟩
  below {path l p q r outcome} harrives hr hnew hentered hwhole := by
    obtain ⟨hkept, hfares⟩ := hentered hwhole
    cases outcome with
    | error thrown =>
      have hpass : b.Overran (l.target :: path) (.error thrown : Except Thrown Instance) →
          b.Overran path (.error thrown : Except Thrown Unit) := by
        intro hoverran
        refine hoverran.pass (fun root hroot => ?_) Thrown.givesUp_error.mpr
        exact getLast?_cons_of_some hroot l.target
      refine ⟨hkept.imp_left hpass, ?_⟩
      rintro ⟨hsound, _⟩
      rcases hfares hsound with ⟨_, hok⟩ | hoverran
      · cases hok
      · exact .inr (hpass hoverran)
    | ok value =>
      refine ⟨.inr (hkept.resolve_left (not_overran_ok value)), ?_⟩
      rintro ⟨_, target, htarget, hcheck⟩
      obtain rfl : target = r := Option.some.inj (htarget.symm.trans hr)
      exact .inl ⟨(), hcheck⟩
  nil hwhole := ⟨.inr hwhole, fun _ => .inl ⟨(), rfl⟩⟩
  stopped hvisited hwhole :=
    ⟨(hvisited hwhole).1, fun hlinks => (hvisited hwhole).2 (hlinks _ List.mem_cons_self)⟩
  passed hvisited hadvances hfollowed hwhole := by
    have hwhole := (hvisited hwhole).1.resolve_left (not_overran_ok ())
    obtain ⟨hkept, hfares⟩ := hfollowed hwhole
    exact ⟨hkept, fun hlinks => hfares fun l hmem => hlinks l (List.mem_cons_of_mem _ hmem)⟩

/-- A resolution that begins while nothing is in progress leaves progress whole, unless it is
given up and a simple path from its instance is longer than the limit.  If none is, a sound
instance is resolved. -/
theorem resolve_of_whole (id : Int) (hdefault : b.ByDefault brought)
    (hadmits : ∀ own, brought = some own → b.registry.Admits own) {p : Progress}
    (hclosed : ∀ other, p.standing other ≠ .inProgress) (hwhole : b.Whole [] p) :
    (b.Overran [id] (b.resolve brought id p).1 ∨ b.Whole [] (b.resolve brought id p).2) ∧
      (b.Sound id → b.population.PathsWithin b.settings.maxDepth id →
        ∃ value, (b.resolve brought id p).1 = .ok value) := by
  cases hr : b.population.find? id with
  | none =>
    rw [resolve_of_find?_eq_none hr]
    refine ⟨.inr hwhole, ?_⟩
    intro hsound _
    obtain ⟨r, _, hfind, _⟩ := hsound.intact
    rw [hr] at hfind
    cases hfind
  | some r =>
    obtain ⟨hkept, hfares⟩ := (whole_descent hadmits).resolve hdefault hclosed hr hwhole
    exact ⟨hkept, fun hsound hwithin =>
      (hfares hsound).resolve_right fun ⟨_, hlong⟩ => hlong id rfl hwithin⟩

end Basis

/-! ## Sessions -/

namespace Table

/-- The request ends because references go too deep or a building is called off.  A
resolution of all instances does so if it reports that for one of them, or does not come to
a report. -/
def GivesUp (t : Table) : Request → Prop
  | .resolve id expected => Thrown.GivesUp (t.resolve id expected).1
  | .resolveAll =>
    ∀ report, t.resolveAll.1 = .ok report →
      ∃ failure ∈ report.failures, failure.2.reason.isTooDeep = true
  | _ => False

/-- None of a row of requests is given up. -/
def Calm (t : Table) : List Request → Prop
  | [] => True
  | q :: rest => ¬ t.GivesUp q ∧ (t.serve q).Calm rest

/-- Only entity types that do no harm are brought along. -/
def Harmless (registry : Registry) (expected : Option Expected) : Prop :=
  ∀ own, expected.bind Expected.brought? = some own → registry.Admits own

/-- A table between two requests of a session of which none was given up. -/
structure Wholesome (registry : Registry) (settings : Settings) (t : Table) : Prop where
  plain : t.Plain registry settings
  whole : t.basis.Whole [] t.progress

variable {registry : Registry} {settings : Settings} {t u : Table}

theorem harmless_none : Harmless registry none := nofun

theorem whole_of_untouched {b : Basis} {p : Progress} (h : ∀ id, p.standing id = .unvisited) :
    b.Whole [] p where
  unfailed {id error} _ := by
    rw [h id]
    nofun
  closed {id value target} _ hresolved := by
    rw [h id] at hresolved
    cases hresolved

namespace Wholesome

theorem add {r : Record} (hadd : t.add r = .ok u) (h : t.Wholesome registry settings) :
    u.Wholesome registry settings :=
  ⟨(Plain.add hadd h.plain).1, whole_of_untouched (Plain.add hadd h.plain).2⟩

theorem report (h : t.Wholesome registry settings) (event : Event) :
    (t.report event).Wholesome registry settings :=
  ⟨h.plain.report event, h.whole.unfailed, h.whole.closed⟩

theorem admits (h : t.Wholesome registry settings) {expected : Option Expected}
    (hharmless : Harmless registry expected) {own : Blueprint}
    (hown : expected.bind Expected.brought? = some own) : t.basis.registry.Admits own := by
  rw [h.plain.registry]
  exact hharmless own hown

theorem resolve (h : t.Wholesome registry settings) (id : Int) {expected : Option Expected}
    (hharmless : Harmless registry expected)
    (hcalm : ¬ Thrown.GivesUp (t.resolve id expected).1) :
    (t.resolve id expected).2.Wholesome registry settings where
  plain := h.plain.resolve id expected
  whole := by
    have hadmits : ∀ own, expected.bind Expected.brought? = some own →
        t.basis.registry.Admits own := fun own => h.admits hharmless
    obtain ⟨hkept, _⟩ := Basis.resolve_of_whole id
      (h.plain.byDefault fun own hown => (hadmits own hown).byDefault) hadmits h.plain.idle.closed
      h.whole
    rw [resolve_snd]
    refine hkept.resolve_left fun ⟨⟨thrown, hthrown, hgiven⟩, _⟩ => hcalm ⟨thrown, ?_, hgiven⟩
    exact resolve_fst_of_error hthrown

theorem resolveAll (h : t.Wholesome registry settings) (hcalm : ¬ t.GivesUp .resolveAll) :
    t.resolveAll.2.Wholesome registry settings := by
  simp only [GivesUp, not_forall, not_exists, not_and, Bool.not_eq_true] at hcalm
  obtain ⟨report, hreport, hdeep⟩ := hcalm
  -- As long as nothing deep was reported, the table is wholesome.
  refine resolveAll_induction
    (P := fun u done => (∀ failure ∈ done.failures, failure.2.reason.isTooDeep = false) →
      u.Wholesome registry settings)
    ?_ ?_ (fun event hdone hfailures => (hdone hfailures).report event) (fun _ => h) hreport hdeep
  · intro u v id done value hu hdone hfailures
    have hresolved := (hdone hfailures).resolve id harmless_none
      (by rw [hu]; exact Thrown.not_givesUp_ok value)
    rwa [hu] at hresolved
  · intro u v id done error hu hdone hfailures
    obtain ⟨hold, hnew⟩ := List.forall_mem_append.mp hfailures
    have hshallow := hnew _ List.mem_cons_self
    have hresolved := (hdone hold).resolve id harmless_none (by
      rw [hu, Thrown.givesUp_error]
      exact (Bool.eq_false_iff.mp hshallow))
    rwa [hu] at hresolved

theorem serve (h : t.Wholesome registry settings) {q : Request}
    (hharmless : q.Expects (Harmless registry)) (hcalm : ¬ t.GivesUp q) :
    (t.serve q).Wholesome registry settings := by
  cases q with
  | add r =>
    simp only [Table.serve]
    split
    · rename_i u hu
      exact h.add hu
    · exact h
  | lookup id => exact h
  | resolve id expected => exact h.resolve id hharmless hcalm
  | resolveAll => exact h.resolveAll hcalm

/-- A table stays wholesome in a session of which nothing is given up, and in which nothing
harmful is brought along. -/
theorem session {requests : List Request} (h : t.Wholesome registry settings)
    (hharmless : ∀ q ∈ requests, q.Expects (Harmless registry)) (hcalm : t.Calm requests) :
    (t.session requests).Wholesome registry settings := by
  induction requests generalizing t with
  | nil => exact h
  | cons q rest ih =>
    obtain ⟨hfirst, hothers⟩ := List.forall_mem_cons.mp hharmless
    exact ih (h.serve hfirst hcalm.1) hothers hcalm.2

end Wholesome

/-- Circles are resolved.  Let a session go on at a table with default holders and without
factories, in which no request was given up and no harmful entity type was brought along.
Behind it, if the records that an instance leads to can all be held, all their references
lead to records of the types expected, and no simple path from the instance is longer than
the limit, then it is resolved when asked for, and with it all that it leads to. -/
theorem resolve_of_sound {requests : List Request}
    (hharmless : ∀ q ∈ requests, q.Expects (Harmless registry))
    (hcalm : (empty registry .initial settings).Calm requests)
    (ht : (empty registry .initial settings).session requests = t) {id : Int}
    (hsound : ∀ other, t.basis.population.LeadsTo id other → t.basis.Intact other)
    (hwithin : t.basis.population.PathsWithin settings.maxDepth id) :
    (∃ value, (t.resolve id none).1 = .ok value) ∧
      ∀ other, t.basis.population.LeadsTo id other →
        ∃ value, (t.resolve id none).2.standing other = .resolved value := by
  have hstart : (empty registry .initial settings).Wholesome registry settings :=
    ⟨plain_empty registry settings, whole_of_untouched fun _ => rfl⟩
  have hwholesome := hstart.session hharmless hcalm
  rw [ht] at hwholesome
  have hdefault : t.basis.ByDefault none := hwholesome.plain.byDefault nofun
  obtain ⟨hkept, hresolved⟩ := Basis.resolve_of_whole id hdefault nofun
    hwholesome.plain.idle.closed hwholesome.whole
  obtain ⟨value, hvalue⟩ := hresolved hsound (hwholesome.plain.settings ▸ hwithin)
  have hwhole := hkept.resolve_left (hvalue ▸ Basis.not_overran_ok value)
  refine ⟨⟨value, (resolve_none_fst t id).trans hvalue⟩, ?_⟩
  intro other hleads
  rw [resolve_snd]
  induction hleads with
  | refl => exact ⟨value, Basis.standing_of_enter_ok (Prod.ext hvalue rfl)⟩
  | @tail middle target hleads hrefers ih =>
    obtain ⟨own, hown⟩ := ih
    have hsoundMiddle := Basis.Sound.of_leadsTo hsound hleads
    exact (hwhole.closed hsoundMiddle hown hrefers).resolve_left List.not_mem_nil

end Table

/-! ## A sample -/

namespace Sample

/-- An entity type of which the instances refer to each other. -/
def node : EntityType :=
  ⟨"NODE", [⟨"links", .aggregate "LIST OF NODE" (.ref "NODE") .list 0 none, false, false⟩], [],
    false, []⟩

/-- An entity type without attributes. -/
def tag : EntityType := ⟨"TAG", [], [], false, []⟩

/-- A registry of both. -/
def registry : Registry :=
  [node, tag].foldl (fun r e => (r.register (.entity e) false).toOption.getD r) (.initial "sample")

/-- A node and the nodes that it refers to. -/
def record (id : Int) (targets : List Int) : Record :=
  ⟨some id, .simple ⟨"NODE", [.list (targets.map .reference)]⟩, none, none⟩

/-- A factory that resolves another instance first, whatever comes of that. -/
def summon (id : Int) : Factory := fun _ _ => .resolve id fun _ => .done (.ok (.value .nothing))

/-- A table at which the given requests were made. -/
def table (requests : List Request) : Table :=
  (Table.empty registry .initial .default).session requests

/-- Two nodes that refer to each other, and one that has failed. -/
def circle : List Request :=
  [.add (record 1 [2]), .add (record 2 [1]), .add (record 3 [4]), .resolve 3 none]

/-- A node that is a tag too and refers to itself. -/
def loop : Record :=
  ⟨some 1, .complex ⟨"TAG", []⟩ [⟨"NODE", [.list [.reference 1]]⟩] [], none, none⟩

/-- An entity type that has the name of a registered one, and a supertype that nobody knows. -/
def impostor : Blueprint := ⟨⟨"TAG", [], ["NOWHERE"], false, []⟩, .default⟩

/-- A node is asked for with the impostor brought along. -/
def spoiled : List Request := [.add loop, .resolve 1 (some (.blueprint impostor))]

end Sample

namespace Table

theorem resolve_of_sound_circle :
    (∃ value, ((Sample.table Sample.circle).resolve 1 none).1 = .ok value) ∧
      ∀ other, (Sample.table Sample.circle).basis.population.LeadsTo 1 other →
        ∃ value, ((Sample.table Sample.circle).resolve 1 none).2.standing other =
          .resolved value := by
  have hharmless : ∀ q ∈ Sample.circle, q.Expects (Harmless Sample.registry) := by
    simp [Sample.circle, Request.Expects, Harmless]
  have hcalm : (empty Sample.registry .initial .default).Calm Sample.circle := by
    refine ⟨id, id, id, ?_, trivial⟩
    unfold GivesUp
    decide +kernel
  refine resolve_of_sound hharmless hcalm rfl ?_ ?_
  · intro other hleads
    have hmem := Population.mem_of_leadsTo [1, 2] (by decide +kernel) (by decide) hleads
    simp only [List.mem_cons, List.not_mem_nil, or_false] at hmem
    rcases hmem with rfl | rfl
    · refine ⟨Sample.record 1 [2], _, rfl, rfl, ?_⟩
      intro l hl
      rw [List.mem_singleton.mp hl]
      exact ⟨Sample.record 2 [1], rfl, rfl⟩
    · refine ⟨Sample.record 2 [1], _, rfl, rfl, ?_⟩
      intro l hl
      rw [List.mem_singleton.mp hl]
      exact ⟨Sample.record 1 [2], rfl, rfl⟩
  · exact Population.pathsWithin_of_size_le (by decide +kernel) 1

/-- What is brought along has to be harmless: the supertypes of an impostor are asked for in
the test of a reference, and the failure to find them is kept as that of a sound instance. -/
theorem not_resolve_of_impostor :
    let t := Sample.table Sample.spoiled
    Sample.impostor.maker = .default ∧
      (empty Sample.registry .initial .default).Calm Sample.spoiled ∧
      (∀ other, t.basis.population.LeadsTo 1 other → t.basis.Intact other) ∧
      t.basis.population.PathsWithin Settings.default.maxDepth 1 ∧
      ∀ value, (t.resolve 1 none).1 ≠ .ok value := by
  refine ⟨rfl, ⟨id, ?_, trivial⟩, fun other hleads => ?_, ?_, fun value hvalue => ?_⟩
  · unfold GivesUp
    decide +kernel
  · have hmem := Population.mem_of_leadsTo [1] (by decide +kernel) (by decide) hleads
    rw [List.mem_singleton.mp hmem]
    refine ⟨Sample.loop, _, rfl, rfl, ?_⟩
    intro l hl
    rw [List.mem_singleton.mp hl]
    exact ⟨Sample.loop, rfl, rfl⟩
  · exact Population.pathsWithin_of_size_le (by decide +kernel) 1
  · have hfails : ((Sample.table Sample.spoiled).resolve 1 none).1.toBool = false := by
      decide +kernel
    rw [hvalue] at hfails
    cases hfails

end Table

end Part21
