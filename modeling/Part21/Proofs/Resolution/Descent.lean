import Part21.Proofs.Resolution.Lifecycle
import Part21.Proofs.Resolution.References

set_option autoImplicit false

/-!
# Descents

Where records are held by the default holder, a pass descends along the links of records.  At
any time the instances in progress are those on its path, the path is a simple path of
references, and so there is always room for another building (`Basis.Arrives`).

What holds of every step of a descent holds of the descent as a whole: a `Course` says of
the steps how a property of entering an instance, one of visiting a link and one of
following a row of links hang together, and `Course.enter` draws the conclusion.  A `Descent`
says the same of instances that no factory has a say in, where less need be known of each
step.  The statements about passes in other modules are instances of one or the other.
-/

namespace Part21

namespace Build

variable {α σ : Type}

/-- Visit links in turn, up to the first that cannot be followed. -/
def visitAll (visited : Int → TypeDef → Text → σ → Except Thrown Unit × σ) :
    List Link → σ → Except Thrown Unit × σ
  | [], s => (.ok (), s)
  | l :: rest, s =>
    match visited l.target l.expected l.place s with
    | (.error thrown, s) => (.error thrown, s)
    | (.ok (), s) => visitAll visited rest s

/-- Running what follows links first comes down to visiting them. -/
theorem run_after (visited : Int → TypeDef → Text → σ → Except Thrown Unit × σ)
    (resolved : Int → σ → Except Thrown Instance × σ) (links : List Link) (next : Build α) (s : σ) :
    (after links next).run visited resolved s =
      match visitAll visited links s with
      | (.error thrown, s) => (.error thrown, s)
      | (.ok (), s) => next.run visited resolved s := by
  induction links generalizing s with
  | nil => rfl
  | cons l rest ih =>
    rw [after, run, visitAll]
    rcases visited l.target l.expected l.place s with ⟨answer, s⟩
    cases answer with
    | error thrown => rfl
    | ok done => exact ih s

/-- The same of what only follows links. -/
theorem run_after_done (visited : Int → TypeDef → Text → σ → Except Thrown Unit × σ)
    (resolved : Int → σ → Except Thrown Instance × σ) (links : List Link)
    (outcome : Except Thrown α) (s : σ) :
    (after links (.done outcome)).run visited resolved s =
      ((visitAll visited links s).1.bind fun _ => outcome, (visitAll visited links s).2) := by
  rw [run_after]
  rcases visitAll visited links s with ⟨answer, s⟩
  cases answer <;> rfl

end Build

/-! ## Giving up -/

namespace Thrown

/-- A building that ends so is given up: its recursion goes too deep, or it is called off. -/
def isGivenUp : Thrown → Bool
  | .resolution error => error.reason.isTooDeep
  | .failure original => original.isExhausted
  | .interrupt _ => true

/-- The outcome of something that was given up. -/
def GivesUp {α : Type} (outcome : Except Thrown α) : Prop :=
  ∃ thrown, outcome = .error thrown ∧ thrown.isGivenUp = true

instance {α : Type} (outcome : Except Thrown α) : Decidable (GivesUp outcome) :=
  match outcome with
  | .ok _ => isFalse fun ⟨_, h, _⟩ => nomatch h
  | .error thrown =>
    decidable_of_iff (thrown.isGivenUp = true)
      ⟨fun h => ⟨thrown, rfl, h⟩, fun ⟨_, h, hthrown⟩ => Except.error.inj h ▸ hthrown⟩

theorem not_givesUp_ok {α : Type} (value : α) : ¬ GivesUp (.ok value) :=
  fun ⟨_, h, _⟩ => nomatch h

theorem givesUp_error {α : Type} {thrown : Thrown} :
    GivesUp (.error thrown : Except Thrown α) ↔ thrown.isGivenUp = true :=
  ⟨fun ⟨_, h, hthrown⟩ => Except.error.inj h ▸ hthrown, fun h => ⟨thrown, rfl, h⟩⟩

end Thrown

theorem ResolutionError.reason_attributed (e : ResolutionError) (id : Int)
    (offset line : Option Nat) : (e.attributed id offset line).reason = e.reason := by
  unfold attributed
  split <;> rfl

namespace Basis

/-- The failure of outside code, or of a question to the schema, has a reason of its own. -/
theorem ending_failure (b : Basis) (id : Int) (r : Record) (original : Failure) :
    b.ending id r (.error (.failure original)) =
      .ofError
        ⟨if original.isExhausted then .tooDeep b.settings.maxDepth else .construction original,
          ⟨some id, [id], ⟨r.offset, r.line, none⟩⟩, [], some original⟩ := rfl

theorem Ending.ofError_cases (error : ResolutionError) :
    (error.reason.isTooDeep = true ∧ (Ending.ofError error).standing = .unvisited ∧
      Thrown.GivesUp (Ending.ofError error).outcome) ∨
    (error.reason.isTooDeep = false ∧ Ending.ofError error = .failed error) := by
  unfold Ending.ofError
  cases hdeep : error.reason.isTooDeep with
  | true => exact .inl ⟨rfl, rfl, _, rfl, hdeep⟩
  | false => exact .inr ⟨rfl, rfl⟩

/-- An attempt that ends by an error is given up with its building, or it has failed. -/
theorem ending_error_cases (b : Basis) (id : Int) (r : Record) (thrown : Thrown) :
    (thrown.isGivenUp = true ∧ (b.ending id r (.error thrown)).standing = .unvisited ∧
      Thrown.GivesUp (b.ending id r (.error thrown)).outcome) ∨
    (thrown.isGivenUp = false ∧ ∃ error, b.ending id r (.error thrown) = .failed error) := by
  cases thrown with
  | resolution error =>
    have hcases := Ending.ofError_cases (error.attributed id r.offset r.line)
    rw [error.reason_attributed] at hcases
    exact hcases.imp_right fun ⟨hdeep, hending⟩ => ⟨hdeep, _, hending⟩
  | failure original =>
    rw [ending_failure]
    cases hexhausted : original.isExhausted with
    | true => exact .inl ⟨hexhausted, rfl, _, rfl, rfl⟩
    | false => exact .inr ⟨hexhausted, _, rfl⟩
  | interrupt message => exact .inl ⟨rfl, rfl, _, rfl, rfl⟩

/-- An attempt of which the building ends by an error is not completed. -/
theorem ending_error_ne_completed (b : Basis) (id : Int) (r : Record) (thrown : Thrown)
    (value : Instance) : b.ending id r (.error thrown) ≠ .completed value := by
  intro hcompleted
  rcases b.ending_error_cases id r thrown with ⟨_, hopen, _⟩ | ⟨_, error, hfailed⟩
  · rw [hcompleted] at hopen
    cases hopen
  · rw [hcompleted] at hfailed
    cases hfailed

end Basis

namespace Basis

/-! ## Where a pass stands -/

/-- A pass with the given path comes to an instance: what is in progress is on the path, the
path is one of references, its last instance first, and the last one refers to the instance. -/
structure Arrives (b : Basis) (path : List Int) (id : Int) (p : Progress) : Prop where
  open_iff : ∀ other, p.standing other = .inProgress ↔ other ∈ path
  isPath : b.population.IsSimplePath path.reverse
  referred : ∀ referrer ∈ path.head?, b.population.Refers referrer id

/-- A link was followed: its target has a record, which is of the type expected, and the
target is under construction or resolved. -/
structure Passed (b : Basis) (brought : Option Blueprint) (path : List Int) (q : Progress)
    (l : Link) : Prop where
  checked : ∃ r, b.population.find? l.target = some r ∧
    b.checkTarget brought l.target r l.expected l.place = .ok ()
  reached : l.target ∈ path ∨ ∃ value, q.standing l.target = .resolved value

variable {b : Basis} {brought : Option Blueprint}

/-- A pass begins at any instance while nothing is in progress. -/
theorem arrives_nil {p : Progress} (hclosed : ∀ id, p.standing id ≠ .inProgress) (id : Int) :
    b.Arrives [] id p where
  open_iff other := iff_of_false (hclosed other) List.not_mem_nil
  isPath := b.population.isSimplePath_nil
  referred referrer hhead := absurd hhead (Option.not_mem_none referrer)

namespace Arrives

variable {path : List Int} {id : Int} {p q : Progress}

theorem not_mem_of_unvisited (h : b.Arrives path id p) (hopen : p.standing id = .unvisited) :
    id ∉ path := by
  intro hmem
  rw [(h.open_iff id).mpr hmem] at hopen
  cases hopen

theorem isPath_cons (h : b.Arrives path id p) {r : Record}
    (hr : b.population.find? id = some r) (hnew : id ∉ path) :
    b.population.IsSimplePath (id :: path).reverse :=
  h.isPath.extend h.referred (Population.contains_of_find? hr) hnew

/-- The pass goes on to what the instance refers to. -/
theorem begin (h : b.Arrives path id p) {r : Record} (hr : b.population.find? id = some r)
    (hopen : p.standing id = .unvisited) {target : Int}
    (hrefers : b.population.Refers id target) : b.Arrives (id :: path) target (p.begin id) where
  open_iff other := by
    rw [List.mem_cons, ← h.open_iff other, Progress.standing_begin]
    split <;> rename_i hid <;> simp [hid]
  isPath := h.isPath_cons hr (h.not_mem_of_unvisited hopen)
  referred referrer hhead := by
    rw [← Option.mem_some.mp hhead]
    exact hrefers

theorem advance (h : b.Arrives path id p) (hadvances : p.Advances b.population q) {target : Int}
    (hrefers : ∀ referrer ∈ path.head?, b.population.Refers referrer target) :
    b.Arrives path target q :=
  ⟨fun other => (hadvances.open_iff other).trans (h.open_iff other), h.isPath, hrefers⟩

end Arrives

/-! ## What is left behind -/

theorem outcome_eq_ok {ending : Ending} {value : Instance} (h : ending.outcome = .ok value) :
    ending = .completed value := by
  cases ending <;> cases h
  rfl

/-- An instance that is answered stands as resolved. -/
theorem standing_of_enter_ok {buildings : Nat} {pass : Pass} {id : Int} {p q : Progress}
    {value : Instance} (h : b.enter buildings pass id p = (.ok value, q)) :
    q.standing id = .resolved value := by
  cases buildings with
  | zero => cases h
  | succ buildings =>
    unfold enter at h
    split at h
    · cases h
    · split at h
      · rename_i hresolved
        cases h
        exact hresolved
      · cases h
      · cases h
      · dsimp only at h
        obtain ⟨houtcome, hq⟩ := Prod.mk.inj h
        rw [← hq, Progress.standing_finish_self, outcome_eq_ok houtcome]
        rfl

theorem Passed.keeps {path : List Int} {p q : Progress} {l : Link}
    (h : b.Passed brought path p l) (hkeeps : p.Keeps q) : b.Passed brought path q l where
  checked := h.checked
  reached := h.reached.imp_right fun ⟨value, hvalue⟩ => ⟨value, hkeeps.resolved hvalue⟩

theorem passed_of_visit_ok {buildings : Nat} {path : List Int} {referrer : Int} {l : Link}
    {p q : Progress}
    (h : b.visit (b.enter buildings) ⟨brought, path⟩ referrer l.target l.expected l.place p =
      (.ok (), q)) :
    b.Passed brought path q l := by
  unfold visit at h
  split at h
  · cases h
  · rename_i r hr
    split at h
    · rename_i hmem
      exact ⟨⟨r, hr, (Prod.mk.inj h).1⟩, .inl (List.contains_iff_mem.mp hmem)⟩
    · split at h
      · split at h
        · cases h
        · rename_i value s hentered
          obtain ⟨hchecked, rfl⟩ := Prod.mk.inj h
          exact ⟨⟨r, hr, hchecked⟩, .inr ⟨value, standing_of_enter_ok hentered⟩⟩
      · cases h

/-- Visiting links advances. -/
theorem visitAll_advances (b : Basis) (buildings : Nat) (pass : Pass) (referrer : Int)
    (links : List Link) (p : Progress) :
    p.Advances b.population
      (Build.visitAll (b.visit (b.enter buildings) pass referrer) links p).2 := by
  induction links generalizing p with
  | nil => exact .refl _ p
  | cons l rest ih =>
    have hvisited := b.visit_advances (b.enter_advances buildings) pass referrer l.target
      l.expected l.place p
    unfold Build.visitAll
    split
    · rename_i thrown q hq
      rwa [hq] at hvisited
    · rename_i q hq
      rw [hq] at hvisited
      exact hvisited.trans (ih q)

/-- Links that were visited to the last one were all followed. -/
theorem passed_of_visitAll_ok {buildings : Nat} {path : List Int} {referrer : Int}
    {links : List Link} {p : Progress}
    (h : (Build.visitAll (b.visit (b.enter buildings) ⟨brought, path⟩ referrer) links p).1 =
      .ok ()) :
    ∀ l ∈ links, b.Passed brought path
      (Build.visitAll (b.visit (b.enter buildings) ⟨brought, path⟩ referrer) links p).2 l := by
  induction links generalizing p with
  | nil => nofun
  | cons l rest ih =>
    unfold Build.visitAll at h ⊢
    split at h
    · cases h
    · rename_i q hq
      have hadvances := b.visitAll_advances buildings ⟨brought, path⟩ referrer rest q
      exact List.forall_mem_cons.mpr
        ⟨(passed_of_visit_ok hq).keeps (.of_moves hadvances.moves), ih h⟩

/-! ## Holders by default -/

/-- Where an instance is built that is entered behind a path. -/
def siteOf (b : Basis) (path : List Int) (id : Int) (p : Progress) : Site :=
  ⟨id, (id :: path).length, p.history, b.registry, b.settings⟩

/-- Where a record is held by the default holder and something is made of it at once, an instance
that is entered for the first time is held, and then its links are visited. -/
theorem enter_of_heldByDefault {r : Record} (hholder : b.HeldByDefault brought r)
    (buildings : Nat) (path : List Int) {id : Int} {p : Progress}
    (hr : b.population.find? id = some r) (hopen : p.standing id = .unvisited)
    {made : HeldRecord → Except Thrown Instance}
    (hmade : ∀ held, b.made brought (b.siteOf path id p) r held = .done (made held)) :
    b.enter (buildings + 1) ⟨brought, path⟩ id p =
      match b.hold brought id r with
      | .error thrown =>
        ((b.ending id r (.error thrown)).outcome,
          (p.begin id).finish id (b.ending id r (.error thrown)))
      | .ok held =>
        let visited := Build.visitAll (b.visit (b.enter buildings) ⟨brought, id :: path⟩ id)
          held.links (p.begin id)
        let ending := b.ending id r (visited.1.bind fun _ => made held)
        (ending.outcome, visited.2.finish id ending) := by
  unfold siteOf at hmade
  unfold enter
  rw [hr]
  dsimp only
  rw [hopen]
  dsimp only
  rw [build_eq_made hholder rfl rfl]
  dsimp only
  cases b.hold brought id r with
  | error thrown => rfl
  | ok held =>
    dsimp only
    rw [hmade, Build.run_after_done]

/-- Three properties that hang together along a pass: of entering an instance that has a record,
of visiting a link from the last instance on the path, and of following a row of such links. -/
structure Course (b : Basis) (brought : Option Blueprint)
    (Entered : List Int → Int → Progress → Except Thrown Instance → Progress → Prop)
    (Visited : List Int → Link → Progress → Except Thrown Unit → Progress → Prop)
    (Followed : List Int → List Link → Progress → Except Thrown Unit → Progress → Prop) :
    Prop where
  /-- the instance is resolved already -/
  resolved {path : List Int} {id : Int} {p : Progress} {value : Instance}
    (harrives : b.Arrives path id p) (hstanding : p.standing id = .resolved value) :
    Entered path id p (.ok value) p
  /-- the instance has failed already -/
  failed {path : List Int} {id : Int} {p : Progress} {error : ResolutionError}
    (harrives : b.Arrives path id p) (hstanding : p.standing id = .failed error) :
    Entered path id p (.error (.resolution error)) p
  /-- its parameters are not what its type takes -/
  unheld {path : List Int} {id : Int} {p : Progress} {r : Record} {thrown : Thrown}
    (harrives : b.Arrives path id p) (hr : b.population.find? id = some r)
    (hopen : p.standing id = .unvisited) (hheld : b.hold brought id r = .error thrown) :
    Entered path id p (b.ending id r (.error thrown)).outcome
      ((p.begin id).finish id (b.ending id r (.error thrown)))
  /-- its links are followed, and something is made of it at once -/
  built {path : List Int} {id : Int} {p q : Progress} {r : Record} {held : HeldRecord}
    {outcome : Except Thrown Unit} {made : Except Thrown Instance} (harrives : b.Arrives path id p)
    (hr : b.population.find? id = some r) (hopen : p.standing id = .unvisited)
    (hheld : b.hold brought id r = .ok held)
    (hadvances : (p.begin id).Advances b.population q)
    (hfollowed : Followed (id :: path) held.links (p.begin id) outcome q)
    (hpassed : outcome = .ok () → ∀ l ∈ held.links, b.Passed brought (id :: path) q l)
    (hmade : b.made brought (b.siteOf path id p) r held = .done made) :
    Entered path id p (b.ending id r (outcome.bind fun _ => made)).outcome
      (q.finish id (b.ending id r (outcome.bind fun _ => made)))
  /-- there is no such instance -/
  missing {path : List Int} {l : Link} {p : Progress}
    (hr : b.population.find? l.target = none) :
    Visited path l p (.error (.reason (.unresolved l.target))) p
  /-- the instance is under construction, so the link is left to be followed later -/
  deferred {path : List Int} {l : Link} {p : Progress} {r : Record} (referrer : Int)
    (harrives : b.Arrives path l.target p) (hr : b.population.find? l.target = some r)
    (hmem : l.target ∈ path) :
    Visited path l p (b.checkTarget brought l.target r l.expected l.place)
      (p.report (.cycleDeferred l.target referrer))
  /-- the path is at its limit -/
  refused {path : List Int} {l : Link} {p : Progress} {r : Record} (referrer : Int)
    (harrives : b.Arrives path l.target p) (hr : b.population.find? l.target = some r)
    (hnew : l.target ∉ path) (hlimit : b.settings.maxDepth ≤ path.length) :
    Visited path l p (.error (.reason (.tooDeep b.settings.maxDepth)))
      (p.note (.refused referrer l.target))
  /-- the instance is entered, and its record has to be of the type expected -/
  below {path : List Int} {l : Link} {p q : Progress} {r : Record}
    {outcome : Except Thrown Instance} (harrives : b.Arrives path l.target p)
    (hr : b.population.find? l.target = some r) (hnew : l.target ∉ path)
    (hentered : Entered path l.target p outcome q) :
    Visited path l p
      (outcome.bind fun _ => b.checkTarget brought l.target r l.expected l.place) q
  nil {path : List Int} {p : Progress} : Followed path [] p (.ok ()) p
  /-- a link cannot be followed -/
  stopped {path : List Int} {l : Link} {rest : List Link} {p q : Progress} {thrown : Thrown}
    (hvisited : Visited path l p (.error thrown) q) :
    Followed path (l :: rest) p (.error thrown) q
  /-- a link is followed, and then the others -/
  passed {path : List Int} {l : Link} {rest : List Link} {p q s : Progress}
    {outcome : Except Thrown Unit} (hvisited : Visited path l p (.ok ()) q)
    (hadvances : q.Advances b.population s) (hfollowed : Followed path rest q outcome s) :
    Followed path (l :: rest) p outcome s

/-- There is nothing to descend into where there is no record. -/
theorem resolve_of_find?_eq_none {id : Int} (hr : b.population.find? id = none) (p : Progress) :
    b.resolve brought id p = (.error (.reason (.unresolved id)), p) := by
  unfold resolve nesting enter
  rw [hr]

namespace Course

variable {Entered : List Int → Int → Progress → Except Thrown Instance → Progress → Prop}
  {Visited : List Int → Link → Progress → Except Thrown Unit → Progress → Prop}
  {Followed : List Int → List Link → Progress → Except Thrown Unit → Progress → Prop}

theorem visit (c : b.Course brought Entered Visited Followed) {buildings : Nat} {path : List Int}
    (hentered : ∀ {id p r}, b.Arrives path id p → b.population.find? id = some r → id ∉ path →
      Entered path id p (b.enter buildings ⟨brought, path⟩ id p).1
        (b.enter buildings ⟨brought, path⟩ id p).2)
    (referrer : Int) {l : Link} {p : Progress} (harrives : b.Arrives path l.target p) :
    Visited path l p
      (b.visit (b.enter buildings) ⟨brought, path⟩ referrer l.target l.expected l.place p).1
      (b.visit (b.enter buildings) ⟨brought, path⟩ referrer l.target l.expected l.place p).2 := by
  unfold Basis.visit
  split
  · rename_i hr
    exact c.missing hr
  · rename_i r hr
    dsimp only
    split
    · rename_i hmem
      exact c.deferred referrer harrives hr (List.contains_iff_mem.mp hmem)
    · rename_i hmem
      have hnew : l.target ∉ path := fun h => hmem (List.contains_iff_mem.mpr h)
      split
      · have hbelow := c.below harrives hr hnew (hentered harrives hr hnew)
        split <;> rename_i hresult <;> rw [hresult] at hbelow <;> exact hbelow
      · rename_i hlimit
        exact c.refused referrer harrives hr hnew (Nat.le_of_not_lt hlimit)

theorem follow (c : b.Course brought Entered Visited Followed) {buildings : Nat} {path : List Int}
    (hentered : ∀ {id p r}, b.Arrives path id p → b.population.find? id = some r → id ∉ path →
      Entered path id p (b.enter buildings ⟨brought, path⟩ id p).1
        (b.enter buildings ⟨brought, path⟩ id p).2)
    (referrer : Int) {links : List Link} {p : Progress}
    (harrives : ∀ l ∈ links, b.Arrives path l.target p) :
    Followed path links p
      (Build.visitAll (b.visit (b.enter buildings) ⟨brought, path⟩ referrer) links p).1
      (Build.visitAll (b.visit (b.enter buildings) ⟨brought, path⟩ referrer) links p).2 := by
  induction links generalizing p with
  | nil => exact c.nil
  | cons l rest ih =>
    obtain ⟨hfirst, hrest⟩ := List.forall_mem_cons.mp harrives
    have hvisited := c.visit hentered referrer hfirst
    have hadvances := b.visit_advances (b.enter_advances buildings) ⟨brought, path⟩ referrer
      l.target l.expected l.place p
    unfold Build.visitAll
    split
    · rename_i thrown q hq
      rw [hq] at hvisited
      exact c.stopped hvisited
    · rename_i q hq
      rw [hq] at hvisited hadvances
      exact c.passed hvisited (b.visitAll_advances buildings ⟨brought, path⟩ referrer rest q)
        (ih fun l hmem => (hrest l hmem).advance hadvances (hrest l hmem).referred)

/-- What holds of the steps of a pass holds of it as a whole. -/
theorem enter (c : b.Course brought Entered Visited Followed)
    (hholder : ∀ r, b.HeldByDefault brought r)
    (hfactory : ∀ r, ∀ make ∈ b.factory? brought r, make.AtOnce) {buildings : Nat}
    {path : List Int} {id : Int} {p : Progress} {r : Record} (harrives : b.Arrives path id p)
    (hr : b.population.find? id = some r) (hnew : id ∉ path)
    (hroom : b.population.size < buildings + path.length) :
    Entered path id p (b.enter buildings ⟨brought, path⟩ id p).1
      (b.enter buildings ⟨brought, path⟩ id p).2 := by
  induction buildings generalizing path id p r with
  | zero =>
    have hlength := (harrives.isPath_cons hr hnew).length_le
    rw [List.length_reverse, List.length_cons] at hlength
    omega
  | succ buildings ih =>
    cases hstanding : p.standing id with
    | inProgress => exact absurd ((harrives.open_iff id).mp hstanding) hnew
    | resolved value =>
      unfold Basis.enter
      rw [hr]
      dsimp only
      rw [hstanding]
      exact c.resolved harrives hstanding
    | failed error =>
      unfold Basis.enter
      rw [hr]
      dsimp only
      rw [hstanding]
      exact c.failed harrives hstanding
    | unvisited =>
      obtain ⟨made, hmade⟩ := Classical.axiomOfChoice
        (made_eq_done (hfactory r) (b.siteOf path id p))
      rw [enter_of_heldByDefault (hholder r) buildings path hr hstanding hmade]
      cases hheld : b.hold brought id r with
      | error thrown => exact c.unheld harrives hr hstanding hheld
      | ok held =>
        refine c.built harrives hr hstanding hheld (b.visitAll_advances ..) (c.follow ?_ id ?_)
          passed_of_visitAll_ok (hmade held)
        · intro target q s hthere hs hfresh
          exact ih hthere hs hfresh (by rw [List.length_cons]; omega)
        · intro l hmem
          refine harrives.begin hr hstanding ⟨r, hr, ?_⟩
          rw [← targets_hold hheld]
          exact List.mem_map_of_mem hmem

/-- The same of a resolution that begins while nothing is in progress. -/
theorem resolve (c : b.Course brought Entered Visited Followed)
    (hholder : ∀ r, b.HeldByDefault brought r)
    (hfactory : ∀ r, ∀ make ∈ b.factory? brought r, make.AtOnce) {id : Int} {p : Progress}
    {r : Record} (hclosed : ∀ other, p.standing other ≠ .inProgress) (hr : b.population.find? id = some r) :
    Entered [] id p (b.resolve brought id p).1 (b.resolve brought id p).2 :=
  c.enter hholder hfactory (arrives_nil hclosed id) hr List.not_mem_nil (Nat.lt_succ_self _)

end Course

/-! ## Buildings by default -/

/-- Where instances are built by default, an instance that is entered for the first time is
held, and then its links are visited. -/
theorem enter_of_unvisited (hdefault : b.ByDefault brought) (buildings : Nat) (path : List Int)
    {id : Int} {p : Progress} {r : Record} (hr : b.population.find? id = some r)
    (hopen : p.standing id = .unvisited) :
    b.enter (buildings + 1) ⟨brought, path⟩ id p =
      match b.hold brought id r with
      | .error thrown =>
        ((b.ending id r (.error thrown)).outcome,
          (p.begin id).finish id (b.ending id r (.error thrown)))
      | .ok held =>
        let visited := Build.visitAll (b.visit (b.enter buildings) ⟨brought, id :: path⟩ id)
          held.links (p.begin id)
        let ending := b.ending id r (visited.1.map fun _ => held.toInstance b.registry id)
        (ending.outcome, visited.2.finish id ending) := by
  rw [enter_of_heldByDefault (hdefault.heldByDefault r) buildings path hr hopen
    (hdefault.made_eq (b.siteOf path id p) r)]
  rfl

/-- Three properties that hang together along a descent: of entering an instance that has a
record, of visiting a link from the last instance on the path, and of following a row of
such links. -/
structure Descent (b : Basis) (brought : Option Blueprint)
    (Entered : List Int → Int → Progress → Except Thrown Instance → Progress → Prop)
    (Visited : List Int → Link → Progress → Except Thrown Unit → Progress → Prop)
    (Followed : List Int → List Link → Progress → Except Thrown Unit → Progress → Prop) :
    Prop where
  /-- the instance is resolved already -/
  resolved {path : List Int} {id : Int} {p : Progress} {value : Instance}
    (hstanding : p.standing id = .resolved value) : Entered path id p (.ok value) p
  /-- the instance has failed already -/
  failed {path : List Int} {id : Int} {p : Progress} {error : ResolutionError}
    (hstanding : p.standing id = .failed error) :
    Entered path id p (.error (.resolution error)) p
  /-- its parameters are not what its type takes -/
  unheld {path : List Int} {id : Int} {p : Progress} {r : Record} {thrown : Thrown}
    (hr : b.population.find? id = some r) (hopen : p.standing id = .unvisited)
    (hheld : b.hold brought id r = .error thrown) :
    Entered path id p (b.ending id r (.error thrown)).outcome
      ((p.begin id).finish id (b.ending id r (.error thrown)))
  /-- its links are followed -/
  built {path : List Int} {id : Int} {p q : Progress} {r : Record} {held : HeldRecord}
    {outcome : Except Thrown Unit} (harrives : b.Arrives path id p)
    (hr : b.population.find? id = some r) (hopen : p.standing id = .unvisited)
    (hheld : b.hold brought id r = .ok held)
    (hfollowed : Followed (id :: path) held.links (p.begin id) outcome q)
    (hpassed : outcome = .ok () → ∀ l ∈ held.links, b.Passed brought (id :: path) q l) :
    Entered path id p
      (b.ending id r (outcome.map fun _ => held.toInstance b.registry id)).outcome
      (q.finish id (b.ending id r (outcome.map fun _ => held.toInstance b.registry id)))
  /-- there is no such instance -/
  missing {path : List Int} {l : Link} {p : Progress}
    (hr : b.population.find? l.target = none) :
    Visited path l p (.error (.reason (.unresolved l.target))) p
  /-- the instance is under construction, so the link is left to be followed later -/
  deferred {path : List Int} {l : Link} {p : Progress} {r : Record} (referrer : Int)
    (harrives : b.Arrives path l.target p) (hr : b.population.find? l.target = some r)
    (hmem : l.target ∈ path) :
    Visited path l p (b.checkTarget brought l.target r l.expected l.place)
      (p.report (.cycleDeferred l.target referrer))
  /-- the path is at its limit -/
  refused {path : List Int} {l : Link} {p : Progress} {r : Record} (referrer : Int)
    (harrives : b.Arrives path l.target p) (hr : b.population.find? l.target = some r)
    (hnew : l.target ∉ path) (hlimit : b.settings.maxDepth ≤ path.length) :
    Visited path l p (.error (.reason (.tooDeep b.settings.maxDepth)))
      (p.note (.refused referrer l.target))
  /-- the instance is entered, and its record has to be of the type expected -/
  below {path : List Int} {l : Link} {p q : Progress} {r : Record}
    {outcome : Except Thrown Instance} (harrives : b.Arrives path l.target p)
    (hr : b.population.find? l.target = some r) (hnew : l.target ∉ path)
    (hentered : Entered path l.target p outcome q) :
    Visited path l p
      (outcome.bind fun _ => b.checkTarget brought l.target r l.expected l.place) q
  nil {path : List Int} {p : Progress} : Followed path [] p (.ok ()) p
  /-- a link cannot be followed -/
  stopped {path : List Int} {l : Link} {rest : List Link} {p q : Progress} {thrown : Thrown}
    (hvisited : Visited path l p (.error thrown) q) :
    Followed path (l :: rest) p (.error thrown) q
  /-- a link is followed, and then the others -/
  passed {path : List Int} {l : Link} {rest : List Link} {p q s : Progress}
    {outcome : Except Thrown Unit} (hvisited : Visited path l p (.ok ()) q)
    (hadvances : q.Advances b.population s) (hfollowed : Followed path rest q outcome s) :
    Followed path (l :: rest) p outcome s

namespace Descent

variable {Entered : List Int → Int → Progress → Except Thrown Instance → Progress → Prop}
  {Visited : List Int → Link → Progress → Except Thrown Unit → Progress → Prop}
  {Followed : List Int → List Link → Progress → Except Thrown Unit → Progress → Prop}

/-- A descent is a pass on which no factory has a say. -/
theorem course (d : b.Descent brought Entered Visited Followed) (hdefault : b.ByDefault brought) :
    b.Course brought Entered Visited Followed where
  resolved _ := d.resolved
  failed _ := d.failed
  unheld _ := d.unheld
  built {path id p q r held outcome made} harrives hr hopen hheld _ hfollowed hpassed hmade := by
    obtain rfl := Build.done.inj ((hdefault.made_eq _ r held).symm.trans hmade)
    exact d.built harrives hr hopen hheld hfollowed hpassed
  missing := d.missing
  deferred := d.deferred
  refused := d.refused
  below := d.below
  nil := d.nil
  stopped := d.stopped
  passed := d.passed

/-- What holds of the steps of a descent holds of a resolution that begins while nothing is in
progress. -/
theorem resolve (d : b.Descent brought Entered Visited Followed) (hdefault : b.ByDefault brought)
    {id : Int} {p : Progress} {r : Record} (hclosed : ∀ other, p.standing other ≠ .inProgress)
    (hr : b.population.find? id = some r) :
    Entered [] id p (b.resolve brought id p).1 (b.resolve brought id p).2 :=
  (d.course hdefault).resolve hdefault.heldByDefault
    (fun r make hmake => by cases (hdefault.factory?_eq_none r).symm.trans hmake) hclosed hr

end Descent

end Basis

/-- An instance that is the answer stands as resolved. -/
theorem Table.standing_of_resolve_ok {t : Table} {id : Int} {expected : Option Expected}
    {value : Instance} (h : (t.resolve id expected).1 = .ok value) :
    (t.resolve id expected).2.standing id = .resolved value := by
  rw [resolve_snd]
  exact Basis.standing_of_enter_ok (Prod.ext (resolve_fst_eq_ok h) rfl)

/-! ## Sessions by default -/

namespace Table

/-- A table between two requests of a session at which instances are built by default: as
long as it takes records, no instance has been visited. -/
structure Plain (registry : Registry) (settings : Settings) (t : Table) : Prop where
  registry : t.basis.registry = registry
  makers : t.basis.makers = .initial
  settings : t.basis.settings = settings
  idle : t.Idle
  untouched : t.isSealed = false → ∀ id, t.standing id = .unvisited

variable {registry : Registry} {settings : Settings} {t u : Table}

theorem plain_empty (registry : Registry) (settings : Settings) :
    (empty registry .initial settings).Plain registry settings :=
  ⟨rfl, rfl, rfl, idle_empty registry .initial settings, fun _ _ => rfl⟩

namespace Plain

/-- A record is added while no instance has been visited. -/
theorem add {r : Record} (hadd : t.add r = .ok u) (h : t.Plain registry settings) :
    u.Plain registry settings ∧ ∀ id, u.standing id = .unvisited := by
  have hidle := Idle.add hadd h.idle
  obtain ⟨hopen, population, _, rfl⟩ := add_eq_ok hadd
  exact ⟨⟨h.registry, h.makers, h.settings, hidle, h.untouched⟩, h.untouched hopen⟩

theorem resolve (h : t.Plain registry settings) (id : Int) (expected : Option Expected) :
    (t.resolve id expected).2.Plain registry settings := by
  refine ⟨?_, ?_, ?_, h.idle.resolve id expected, ?_⟩
  · rw [basis_resolve]
    exact h.registry
  · rw [basis_resolve]
    exact h.makers
  · rw [basis_resolve]
    exact h.settings
  · rw [resolve_snd]
    nofun

theorem report (h : t.Plain registry settings) (event : Event) :
    (t.report event).Plain registry settings :=
  ⟨h.registry, h.makers, h.settings, h.idle.report event, h.untouched⟩

/-- Nothing but what is brought along can have a way of its own in which it is built. -/
theorem byDefault (h : t.Plain registry settings) {brought : Option Blueprint}
    (hbrought : ∀ own, brought = some own → own.maker = .default) : t.basis.ByDefault brought :=
  ⟨fun key => by rw [h.makers]; rfl, hbrought⟩

theorem byDefault_none (h : t.Plain registry settings) : t.basis.ByDefault none :=
  h.byDefault fun _ hown => by cases hown

end Plain

end Table

end Part21
