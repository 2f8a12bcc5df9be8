import Part21.Proofs.Resolution.Failures
import Part21.Proofs.Resolution.Soundness

set_option autoImplicit false

/-!
# Outcomes

What comes of an instance by itself can be told from the records alone: the error of the
first phase, or else the first fault of its links in the order of the text, where the errors
of the instances that it refers to are faults as well, or else the instance
(`Basis.outcomeWithin`).  This says nothing of what was resolved before, and it makes sense
where references lead in no circle.  The test of a target may find that it is of another type
than is expected, and also that it is not known what is expected: an option of a select is not
registered (`Table.not_resolve_eq_outcomeWithin`).  Where a select leads to a circle of defined
types, the test comes to no end, so that is excluded.

Resolution remembers outcomes, gives up where the path is at its limit, and may come to an
instance on any path.  None of this shows at an instance that leads to no cycle and to
nothing deeper than the limit: `Table.resolve_eq_outcomeWithin`.  Of such a shallow instance
nothing is remembered but what comes of it by itself (`Basis.Remembers`).
-/

namespace Part21

/-- The first fault of links, each one tested in turn. -/
def Link.testAll (test : Link → Except Thrown Unit) : List Link → Except Thrown Unit
  | [] => .ok ()
  | l :: rest =>
    match test l with
    | .error thrown => .error thrown
    | .ok () => testAll test rest

theorem Link.testAll_congr {test other : Link → Except Thrown Unit} {links : List Link}
    (h : ∀ l ∈ links, test l = other l) : Link.testAll test links = Link.testAll other links := by
  induction links with
  | nil => rfl
  | cons l rest ih =>
    obtain ⟨hfirst, hrest⟩ := List.forall_mem_cons.mp h
    rw [Link.testAll, Link.testAll, hfirst, ih hrest]

namespace Basis

/-- The fault of a link, if the outcomes of instances are given: there is no such instance, or
it has an error, or it is not of the type expected, or that cannot be told. -/
def linkOutcome (b : Basis) (answer : Int → Except Thrown Instance) (l : Link) :
    Except Thrown Unit :=
  match b.population.find? l.target with
  | none => .error (.reason (.unresolved l.target))
  | some r =>
    match answer l.target with
    | .error thrown => .error thrown
    | .ok _ => b.checkTarget none l.target r l.expected l.place

/-- What comes of a record, if the outcomes of the instances that it refers to are given. -/
def recordOutcome (b : Basis) (answer : Int → Except Thrown Instance) (id : Int) (r : Record) :
    Except Thrown Instance :=
  match b.hold none id r with
  | .error thrown => (b.ending id r (.error thrown)).outcome
  | .ok held =>
    (b.ending id r ((Link.testAll (b.linkOutcome answer) held.links).map fun _ =>
      held.toInstance b.registry id)).outcome

/-- What comes of an instance by itself, if references are gone along so many levels deep. -/
def outcomeWithin (b : Basis) : Nat → Int → Except Thrown Instance
  | 0, _ => .error (.failure .exhausted)
  | levels + 1, id =>
    match b.population.find? id with
    | none => .error (.reason (.unresolved id))
    | some r => b.recordOutcome (outcomeWithin b levels) id r

variable {b : Basis}

theorem outcomeWithin_of_find? {levels : Nat} {id : Int} {r : Record}
    (hr : b.population.find? id = some r) :
    b.outcomeWithin (levels + 1) id = b.recordOutcome (b.outcomeWithin levels) id r := by
  rw [outcomeWithin, hr]

/-! ## The number of levels -/

/-- An instance with a record has a level of its own. -/
theorem exists_level {n : Nat} {id : Int} {r : Record} (hr : b.population.find? id = some r)
    (hshallow : b.population.Shallow n id) : ∃ m, n = m + 1 := by
  cases n with
  | zero =>
    rw [Population.Shallow, Population.contains_of_find? hr] at hshallow
    cases hshallow
  | succ m => exact ⟨m, rfl⟩

/-- Links lead to what is one level less deep. -/
theorem shallow_of_link {n : Nat} {id : Int} {r : Record} {brought : Option Blueprint}
    {held : HeldRecord} (hr : b.population.find? id = some r)
    (hheld : b.hold brought id r = .ok held) (hshallow : b.population.Shallow (n + 1) id) :
    ∀ l ∈ held.links, b.population.Shallow n l.target := by
  intro l hmem
  refine hshallow l.target ⟨r, hr, ?_⟩
  rw [← targets_hold hheld]
  exact List.mem_map_of_mem hmem

/-- More levels than an instance is deep make no difference. -/
theorem outcomeWithin_stable {n levels more : Nat} {id : Int} {r : Record}
    (hr : b.population.find? id = some r) (hshallow : b.population.Shallow n id)
    (hlevels : n ≤ levels) (hmore : n ≤ more) :
    b.outcomeWithin levels id = b.outcomeWithin more id := by
  induction n generalizing levels more id r with
  | zero =>
    obtain ⟨m, hm⟩ := exists_level hr hshallow
    cases hm
  | succ n ih =>
    obtain ⟨levels, rfl⟩ : ∃ k, levels = k + 1 := ⟨levels - 1, by omega⟩
    obtain ⟨more, rfl⟩ : ∃ k, more = k + 1 := ⟨more - 1, by omega⟩
    rw [outcomeWithin_of_find? hr, outcomeWithin_of_find? hr]
    unfold recordOutcome
    cases hheld : b.hold none id r with
    | error thrown => rfl
    | ok held =>
      dsimp only
      rw [Link.testAll_congr fun l hmem => ?_]
      unfold linkOutcome
      cases htarget : b.population.find? l.target with
      | none => rfl
      | some target =>
        dsimp only
        rw [ih htarget (shallow_of_link hr hheld hshallow l hmem) (Nat.le_of_succ_le_succ hlevels)
          (Nat.le_of_succ_le_succ hmore)]

/-! ## Tests that come to an end -/

theorem only_testAll {kind : Failure → Prop} {test : Link → Except Thrown Unit} {links : List Link}
    (h : ∀ l ∈ links, Thrown.Only kind (test l)) : Thrown.Only kind (Link.testAll test links) := by
  induction links with
  | nil => exact Thrown.anyIs_ok ()
  | cons l rest ih =>
    obtain ⟨hfirst, hrest⟩ := List.forall_mem_cons.mp h
    rw [Link.testAll]
    split
    · rename_i thrown hthrown
      exact Thrown.anyIs_error (hfirst thrown hthrown)
    · exact ih hrest

/-- What comes of an instance by itself does not rest on a search without end, if no reference that
it leads to is declared to be of a select that makes one. -/
theorem only_outcomeWithin (levels : Nat) {id : Int}
    (hsearchable : ∀ other, b.population.LeadsTo id other → b.Searchable other) :
    Thrown.Only Failure.Ends (b.outcomeWithin levels id) := by
  induction levels generalizing id with
  | zero => exact Thrown.anyIs_error nofun
  | succ levels ih =>
    unfold outcomeWithin
    split
    · exact Thrown.anyIs_error nofun
    · rename_i r hr
      have hlapses := (b.lapses_hold none id r).only
      unfold recordOutcome
      split
      · rename_i thrown hthrown
        exact only_ending id r (Thrown.anyIs_error (hlapses thrown hthrown))
      · rename_i held hheld
        refine only_ending id r (.map (only_testAll fun l hmem => ?_) _)
        have hrefers : b.population.Refers id l.target :=
          ⟨r, hr, targets_hold hheld ▸ List.mem_map_of_mem hmem⟩
        unfold linkOutcome
        split
        · exact Thrown.anyIs_error nofun
        · split
          · rename_i thrown hthrown
            have htarget := ih fun other hleads => hsearchable other (.head hrefers hleads)
            exact Thrown.anyIs_error (htarget thrown hthrown)
          · exact only_checkTarget l.target _ (hsearchable id .refl r held hr hheld l hmem) l.place

/-! ## What is remembered -/

/-- An outcome is what comes of a shallow instance by itself, unless it was given up on a path
that is too long for it. -/
def Agrees {α : Type} (b : Basis) (depth n : Nat) (outcome expected : Except Thrown α) : Prop :=
  outcome = expected ∨ (Thrown.GivesUp outcome ∧ b.settings.maxDepth < depth + n)

/-- What is remembered of shallow instances is what comes of them by themselves. -/
structure Remembers (b : Basis) (p : Progress) : Prop where
  resolved : ∀ {id value n levels}, p.standing id = .resolved value →
    b.population.Shallow n id → n ≤ levels → b.outcomeWithin levels id = .ok value
  failed : ∀ {id error n levels}, p.standing id = .failed error →
    b.population.Shallow n id → n ≤ levels →
    b.outcomeWithin levels id = .error (.resolution error)

namespace Remembers

variable {id : Int} {p q : Progress}

theorem iff_found : b.Remembers p ↔
    p.Found
      (fun id value => ∀ n levels, b.population.Shallow n id → n ≤ levels →
        b.outcomeWithin levels id = .ok value)
      (fun id error => ∀ n levels, b.population.Shallow n id → n ≤ levels →
        b.outcomeWithin levels id = .error (.resolution error)) :=
  ⟨fun h => ⟨fun hid _ _ => h.resolved hid, fun hid _ _ => h.failed hid⟩,
    fun h => ⟨fun hid => h.resolved hid _ _, fun hid => h.failed hid _ _⟩⟩

theorem begin (h : b.Remembers p) (id : Int) : b.Remembers (p.begin id) :=
  iff_found.mpr ((iff_found.mp h).begin id)

theorem finish (h : b.Remembers q) {r : Record} {outcome : Except Thrown Instance} {depth : Nat}
    (hagrees : ∀ n levels, b.population.Shallow n id → n ≤ levels →
      b.Agrees depth n (b.ending id r outcome).outcome (b.outcomeWithin levels id)) :
    b.Remembers (q.finish id (b.ending id r outcome)) := by
  refine iff_found.mpr ((iff_found.mp h).finish ?_ ?_)
  · intro value hvalue n levels hshallow hlevels
    rcases hagrees n levels hshallow hlevels with hequal | ⟨hgiven, _⟩
    · rw [← hequal, hvalue]
      rfl
    · rw [hvalue] at hgiven
      exact absurd hgiven (Thrown.not_givesUp_ok value)
  · intro error herror n levels hshallow hlevels
    have hattributed := b.ending_isAttributedTo id r outcome
    rcases hagrees n levels hshallow hlevels with hequal | ⟨hgiven, _⟩
    · rw [← hequal, herror]
      rfl
    · -- What is kept as a failure was not given up.
      rw [herror] at hgiven hattributed
      have hdeep := Thrown.givesUp_error.mp hgiven
      rw [Thrown.isGivenUp, hattributed.1] at hdeep
      cases hdeep

end Remembers

/-! ## Passes -/

/-- A step of a pass is faithful: what is remembered stays what comes of instances by
themselves, and the outcome agrees with the one expected for every depth that the targets
have. -/
def Faithful {α : Type} (b : Basis) (depth : Nat) (shallow : Nat → Prop)
    (expected : Nat → Except Thrown α) (p : Progress) (outcome : Except Thrown α)
    (q : Progress) : Prop :=
  b.Remembers p → b.Remembers q ∧
    ∀ n levels, shallow n → n ≤ levels → b.Agrees depth n outcome (expected levels)

/-- An attempt at a record of which the building went faithfully. -/
theorem faithful_attempt {depth : Nat} {id : Int} {p q : Progress} {r : Record}
    {outcome : Except Thrown Instance} (hq : b.Remembers q)
    (hagrees : ∀ n levels, b.population.Shallow n id → n ≤ levels →
      b.Agrees depth n (b.ending id r outcome).outcome (b.outcomeWithin levels id)) :
    b.Faithful depth (b.population.Shallow · id) (b.outcomeWithin · id) p
      (b.ending id r outcome).outcome (q.finish id (b.ending id r outcome)) :=
  fun _ => ⟨hq.finish hagrees, hagrees⟩

/-- On every descent, what is answered for shallow instances is what comes of them by
themselves. -/
theorem faithful_descent (b : Basis) :
    b.Descent none
      (fun path id => b.Faithful path.length (b.population.Shallow · id) (b.outcomeWithin · id))
      (fun path l => b.Faithful path.length (b.population.Shallow · l.target)
        fun levels => b.linkOutcome (b.outcomeWithin levels) l)
      (fun path links => b.Faithful path.length
        (fun n => ∀ l ∈ links, b.population.Shallow n l.target)
        fun levels => Link.testAll (b.linkOutcome (b.outcomeWithin levels)) links) where
  resolved hstanding hp :=
    ⟨hp, fun n levels hshallow hlevels => .inl (hp.resolved hstanding hshallow hlevels).symm⟩
  failed hstanding hp :=
    ⟨hp, fun n levels hshallow hlevels => .inl (hp.failed hstanding hshallow hlevels).symm⟩
  unheld {path id p r thrown} hr hopen hheld hp := by
    refine faithful_attempt (hp.begin id) ?_ hp
    intro n levels hshallow hlevels
    obtain ⟨m, rfl⟩ := exists_level hr hshallow
    obtain ⟨k, rfl⟩ : ∃ k, levels = k + 1 := ⟨levels - 1, by omega⟩
    rw [outcomeWithin_of_find? hr, recordOutcome, hheld]
    exact .inl rfl
  built {path id p q r held outcome} harrives hr hopen hheld hfollowed hpassed hp := by
    obtain ⟨hq, hlinks⟩ := hfollowed (hp.begin id)
    refine faithful_attempt hq ?_ hp
    intro n levels hshallow hlevels
    obtain ⟨m, rfl⟩ := exists_level hr hshallow
    obtain ⟨k, rfl⟩ : ∃ k, levels = k + 1 := ⟨levels - 1, by omega⟩
    rw [outcomeWithin_of_find? hr, recordOutcome, hheld]
    have hagrees := hlinks m k (shallow_of_link hr hheld hshallow) (by omega)
    rcases hagrees with hequal | ⟨hgiven, hlong⟩
    · rw [hequal]
      exact .inl rfl
    · obtain ⟨thrown, rfl, hthrown⟩ := hgiven
      rcases b.ending_error_cases id r thrown with ⟨_, _, hgiven⟩ | ⟨hkept, _⟩
      · refine .inr ⟨hgiven, ?_⟩
        rw [List.length_cons] at hlong
        omega
      · rw [hthrown] at hkept
        cases hkept
  missing hr hp := by
    refine ⟨hp, fun n levels _ _ => .inl ?_⟩
    dsimp only
    rw [linkOutcome, hr]
  deferred {path l p r} referrer harrives hr hmem hp := by
    refine ⟨⟨hp.resolved, hp.failed⟩, fun n levels hshallow _ => absurd ?_ hshallow.not_onCycle⟩
    exact harrives.isPath.leads harrives.referred l.target hmem
  refused {path l p r} referrer harrives hr hnew hlimit hp := by
    refine ⟨⟨hp.resolved, hp.failed⟩, fun n levels hshallow _ => .inr ⟨⟨_, rfl, rfl⟩, ?_⟩⟩
    obtain ⟨m, rfl⟩ := exists_level hr hshallow
    omega
  below {path l p q r outcome} harrives hr hnew hentered hp := by
    obtain ⟨hq, hagrees⟩ := hentered hp
    refine ⟨hq, ?_⟩
    intro n levels hshallow hlevels
    dsimp only
    rw [linkOutcome, hr]
    rcases hagrees n levels hshallow hlevels with
      (hequal : outcome = b.outcomeWithin levels l.target) | ⟨⟨thrown, rfl, hthrown⟩, hlong⟩
    · rw [← hequal]
      cases outcome <;> exact .inl rfl
    · exact .inr ⟨⟨thrown, rfl, hthrown⟩, hlong⟩
  nil hp := ⟨hp, fun _ _ _ _ => .inl rfl⟩
  stopped {path l rest p q thrown} hvisited hp := by
    obtain ⟨hq, hagrees⟩ := hvisited hp
    refine ⟨hq, ?_⟩
    intro n levels hshallow hlevels
    dsimp only
    rw [Link.testAll]
    rcases hagrees n levels (hshallow l List.mem_cons_self) hlevels with
      (hequal : .error thrown = b.linkOutcome (b.outcomeWithin levels) l) | hgiven
    · rw [← hequal]
      exact .inl rfl
    · exact .inr hgiven
  passed {path l rest p q s outcome} hvisited hadvances hfollowed hp := by
    obtain ⟨hq, hfirst⟩ := hvisited hp
    obtain ⟨hs, hrest⟩ := hfollowed hq
    refine ⟨hs, ?_⟩
    intro n levels hshallow hlevels
    obtain ⟨hhead, htail⟩ := List.forall_mem_cons.mp hshallow
    rcases hfirst n levels hhead hlevels with
      (hequal : .ok () = b.linkOutcome (b.outcomeWithin levels) l) | ⟨hgiven, _⟩
    · dsimp only
      rw [Link.testAll, ← hequal]
      exact hrest n levels htail hlevels
    · exact absurd hgiven (Thrown.not_givesUp_ok ())

/-- A resolution that begins while nothing is in progress answers what comes of the instance by
itself, if it is within the limit, and remembers nothing else. -/
theorem resolve_of_remembers (hdefault : b.ByDefault none) {p : Progress}
    (hclosed : ∀ other, p.standing other ≠ .inProgress) (hp : b.Remembers p) (id : Int) :
    b.Remembers (b.resolve none id p).2 ∧
      ∀ levels, b.population.Shallow b.settings.maxDepth id → b.settings.maxDepth ≤ levels →
        (b.resolve none id p).1 = b.outcomeWithin levels id := by
  cases hr : b.population.find? id with
  | none =>
    rw [resolve_of_find?_eq_none hr]
    refine ⟨hp, ?_⟩
    intro levels _ hlevels
    obtain ⟨k, rfl⟩ : ∃ k, levels = k + 1 := ⟨levels - 1, by have := b.settings.one_le; omega⟩
    rw [outcomeWithin, hr]
  | some r =>
    obtain ⟨hkept, hagrees⟩ := (faithful_descent b).resolve hdefault hclosed hr hp
    refine ⟨hkept, ?_⟩
    intro levels hshallow hlevels
    rcases hagrees _ levels hshallow hlevels with hequal | ⟨_, hlong⟩
    · exact hequal
    · rw [List.length_nil] at hlong
      omega

/-- Where a record cannot be held, entering its instance changes nothing else: nothing that it
refers to is resolved for its sake. -/
theorem enter_of_unheld (hdefault : b.ByDefault none) {id : Int} {r : Record} {thrown : Thrown}
    (hr : b.population.find? id = some r) (hheld : b.hold none id r = .error thrown)
    (buildings : Nat) (path : List Int) (p : Progress) :
    (b.enter buildings ⟨none, path⟩ id p).2 = p ∨
      (b.enter buildings ⟨none, path⟩ id p).2 =
        (p.begin id).finish id (b.ending id r (.error thrown)) := by
  cases buildings with
  | zero => exact .inl rfl
  | succ buildings =>
    cases hstanding : p.standing id with
    | unvisited =>
      rw [enter_of_unvisited hdefault buildings path hr hstanding, hheld]
      exact .inr rfl
    | inProgress | resolved value | failed error =>
      unfold enter
      rw [hr]
      dsimp only
      rw [hstanding]
      exact .inl rfl

end Basis

/-! ## Sessions -/

namespace Table

/-- Only registered entity types are brought along. -/
def Registered (registry : Registry) (expected : Option Expected) : Prop :=
  registry.Knows (expected.bind Expected.brought?)

/-- A table between two requests of a session in which only registered entity types are brought
along. -/
structure Mindful (registry : Registry) (settings : Settings) (t : Table) : Prop where
  plain : t.Plain registry settings
  remembers : t.basis.Remembers t.progress

variable {registry : Registry} {settings : Settings} {t u : Table}

theorem remembers_of_untouched {b : Basis} {p : Progress}
    (h : ∀ id, p.standing id = .unvisited) : b.Remembers p where
  resolved {id value n levels} hresolved := by
    rw [h id] at hresolved
    cases hresolved
  failed {id error n levels} hfailed := by
    rw [h id] at hfailed
    cases hfailed

namespace Mindful

theorem add {r : Record} (hadd : t.add r = .ok u) (h : t.Mindful registry settings) :
    u.Mindful registry settings :=
  ⟨(Plain.add hadd h.plain).1, remembers_of_untouched (Plain.add hadd h.plain).2⟩

theorem report (h : t.Mindful registry settings) (event : Event) :
    (t.report event).Mindful registry settings :=
  ⟨h.plain.report event, h.remembers.resolved, h.remembers.failed⟩

theorem resolve (h : t.Mindful registry settings) (id : Int) {expected : Option Expected}
    (hregistered : Registered registry expected) :
    (t.resolve id expected).2.Mindful registry settings where
  plain := h.plain.resolve id expected
  remembers := by
    have hsame : t.basis.resolve (expected.bind Expected.brought?) id t.progress =
        t.basis.resolve none id t.progress := by
      rw [Registered, ← h.plain.registry] at hregistered
      exact Basis.enter_of_knows hregistered _ [] id t.progress
    rw [resolve_snd, hsame]
    exact (Basis.resolve_of_remembers (h.plain.byDefault nofun) h.plain.idle.closed
      h.remembers id).1

theorem session (h : t.Mindful registry settings) {requests : List Request}
    (hregistered : ∀ q ∈ requests, q.Expects (Registered registry)) :
    (t.session requests).Mindful registry settings :=
  session_invariant (P := Mindful registry settings) nofun add
    (fun _ id _ hkind h => h.resolve id hkind) (fun _ event h => h.report event) hregistered h

end Mindful

/-- Where references lead in no circle, resolution is a function of the records.  Let a session
go on at a table with default holders and without factories, in which only registered entity
types were brought along.  Behind it, if an instance leads to no cycle and no path from it is
longer than the limit, and if no reference on the way is declared to be of a select that leads to
a circle of defined types, then the answer to a request for it is what comes of it by itself,
whatever was resolved, failed or was given up before; and it does not rest on a search without
end.  And wherever a pass enters an instance of which the record cannot be held, it resolves
nothing for the sake of that instance. -/
theorem resolve_eq_outcomeWithin {requests : List Request}
    (hregistered : ∀ q ∈ requests, q.Expects (Registered registry))
    (ht : (empty registry .initial settings).session requests = t) {id : Int}
    (hacyclic : ∀ other, t.basis.population.LeadsTo id other →
      ¬ t.basis.population.OnCycle other)
    (hwithin : t.basis.population.PathsWithin settings.maxDepth id)
    (hsearchable : ∀ other, t.basis.population.LeadsTo id other → t.basis.Searchable other) :
    (∀ levels, settings.maxDepth ≤ levels →
      (t.resolve id none).1 = t.basis.outcomeWithin levels id ∧
        Thrown.Only Failure.Ends (t.basis.outcomeWithin levels id)) ∧
    ∀ other r thrown, t.basis.population.find? other = some r →
      t.basis.hold none other r = .error thrown →
      ∀ brought, registry.Knows brought → ∀ buildings path p,
        (t.basis.enter buildings ⟨brought, path⟩ other p).2 = p ∨
        (t.basis.enter buildings ⟨brought, path⟩ other p).2 =
          (p.begin other).finish other (t.basis.ending other r (.error thrown)) := by
  have hstart : (empty registry .initial settings).Mindful registry settings :=
    ⟨plain_empty registry settings, remembers_of_untouched fun _ => rfl⟩
  have hmindful := hstart.session hregistered
  rw [ht] at hmindful
  have hdefault : t.basis.ByDefault none := hmindful.plain.byDefault nofun
  constructor
  · intro levels hlevels
    obtain ⟨_, hequal⟩ := Basis.resolve_of_remembers hdefault hmindful.plain.idle.closed
      hmindful.remembers id
    rw [hmindful.plain.settings] at hequal
    rw [resolve_none_fst]
    exact ⟨hequal levels (Population.shallow_of_acyclic hacyclic hwithin) hlevels,
      Basis.only_outcomeWithin levels hsearchable⟩
  · intro other r thrown hr hheld brought hknows buildings path p
    rw [← hmindful.plain.registry] at hknows
    rw [Basis.enter_of_knows hknows]
    exact Basis.enter_of_unheld hdefault hr hheld buildings path p

end Table

namespace Sample

/-- Two nodes of which one refers to the other, a node that has failed, and the second one
asked for as a node. -/
def descent : List Request :=
  [.add (record 1 [2]), .add (record 2 []), .add (record 3 [4]), .resolve 3 none,
    .resolve 2 (some (.blueprint ⟨node, .default⟩))]

end Sample

namespace Table

theorem resolve_eq_outcomeWithin_descent :
    (∀ levels, Settings.default.maxDepth ≤ levels →
      ((Sample.table Sample.descent).resolve 1 none).1 =
          (Sample.table Sample.descent).basis.outcomeWithin levels 1 ∧
        Thrown.Only Failure.Ends ((Sample.table Sample.descent).basis.outcomeWithin levels 1)) ∧
    ∀ other r thrown, (Sample.table Sample.descent).basis.population.find? other = some r →
      (Sample.table Sample.descent).basis.hold none other r = .error thrown →
      ∀ brought, Sample.registry.Knows brought → ∀ buildings path p,
        ((Sample.table Sample.descent).basis.enter buildings ⟨brought, path⟩ other p).2 = p ∨
        ((Sample.table Sample.descent).basis.enter buildings ⟨brought, path⟩ other p).2 =
          (p.begin other).finish other
            ((Sample.table Sample.descent).basis.ending other r (.error thrown)) := by
  have hshallow : (Sample.table Sample.descent).basis.population.Shallow 2 1 := by
    refine Population.shallow_succ_of_find? (r := Sample.record 1 [2]) rfl fun target hmem => ?_
    rw [List.mem_singleton.mp hmem]
    exact Population.shallow_succ_of_find? (r := Sample.record 2 []) rfl nofun
  have hregistered : ∀ q ∈ Sample.descent, q.Expects (Registered Sample.registry) := by
    have hnode : Sample.registry.IsRegistered Sample.node := ⟨"NODE", rfl⟩
    simp [Sample.descent, Request.Expects, Registered, Registry.Knows, Expected.brought?, hnode]
  have hknown : ∀ entry ∈ Sample.registry.types,
      (Sample.registry.underlying entry.2).isOk = true := by decide +kernel
  exact resolve_eq_outcomeWithin hregistered rfl
    (fun other hleads => (hshallow.of_leadsTo hleads).not_onCycle)
    (Population.pathsWithin_of_size_le (by decide +kernel) 1)
    fun _ _ _ _ _ _ l _ => Registry.searchable_of_underlying hknown l.expected

end Table

namespace Sample

/-- An entity type of which the instances are at a place. -/
def mark : EntityType := ⟨"MARK", [⟨"at", .ref "PLACE", false, false⟩], [], false, []⟩

/-- Marks and tags besides other types. -/
def marks (types : List TypeDef) : Registry :=
  (types ++ [TypeDef.entity mark, .entity tag]).foldl
    (fun r t => (r.register t false).toOption.getD r) (.initial "marks")

/-- A mark at a tag. -/
def marking (types : List TypeDef) : Table :=
  (Table.empty (marks types) .initial .default).session
    [.add ⟨some 1, .simple ⟨"MARK", [.reference 2]⟩, none, none⟩,
      .add ⟨some 2, .simple ⟨"TAG", []⟩, none, none⟩]

/-- The place is of a type that is not registered. -/
def astray : Table := marking [.select "PLACE" ["NOWHERE"]]

end Sample

namespace Table

/-- A record is held, and its only reference leads to an instance that is resolved; and there is
an error though that instance is of no other type than is expected.  What is expected cannot be
told. -/
theorem not_resolve_eq_outcomeWithin :
    (∀ other, Sample.astray.basis.population.LeadsTo 1 other →
      ¬ Sample.astray.basis.population.OnCycle other) ∧
    Sample.astray.basis.population.PathsWithin Settings.default.maxDepth 1 ∧
    ∃ r held value error, Sample.astray.basis.population.find? 1 = some r ∧
      Sample.astray.basis.hold none 1 r = .ok held ∧ held.links.map Link.target = [2] ∧
      (Sample.astray.resolve 2 none).1 = .ok value ∧
      (Sample.astray.resolve 1 none).1 = .error (.resolution error) ∧
      error.reason = .construction (.schema (.of (.unknownOption "PLACE" "NOWHERE"))) := by
  have hshallow : Sample.astray.basis.population.Shallow 2 1 := by
    refine Population.shallow_succ_of_find?
      (r := ⟨some 1, .simple ⟨"MARK", [.reference 2]⟩, none, none⟩) rfl fun target hmem => ?_
    rw [List.mem_singleton.mp hmem]
    exact Population.shallow_succ_of_find?
      (r := ⟨some 2, .simple ⟨"TAG", []⟩, none, none⟩) rfl nofun
  exact ⟨fun other hleads => (hshallow.of_leadsTo hleads).not_onCycle,
    Population.pathsWithin_of_size_le (by decide +kernel) 1,
    _, _, _, _, rfl, rfl, rfl, rfl, rfl, rfl⟩

/-- Where the place leads to a defined type that is defined by itself, the search for what is
expected comes to no end. -/
example : ∃ error,
    ((Sample.marking [.defined "A" (.ref "A"), .select "PLACE" ["A"]]).resolve 1 none).1 =
        .error (.resolution error) ∧
      error.reason = .construction (.schema (.of .endless)) :=
  ⟨_, rfl, rfl⟩

end Table

end Part21
