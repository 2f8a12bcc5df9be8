import Part21.Proofs.Resolution.Moments
import Part21.Proofs.Resolution.Passage
import Part21.Proofs.Resolution.Soundness

set_option autoImplicit false

/-!
# Abandoned passes

A pass is abandoned if references go too deep or if a building is called off.  The error unwinds
through all instances that are under construction, and each of them is left as if it had never
been begun; what was completed on the way stays.  So an abandoned pass fails no instance
(`Basis.rollback`), and its turns tell the rest.

Where references go too deep because the path is at its limit, the error collects the instances of
that very path while it unwinds (`Basis.RefusedAt`), so its chain is as long as the limit.

The main statement is `Table.abandoned_resolve`, of tables at which anything may have been done
before.
-/

namespace Part21

theorem ResolutionError.origin_attributed (e : ResolutionError) (id : Int)
    (offset line : Option Nat) : (e.attributed id offset line).origin = e.origin := by
  unfold attributed
  split <;> rfl

namespace ResolutionError

/-- References go too deep, and it is not a recursion that has failed. -/
def OutOfDepth (e : ResolutionError) : Prop := e.reason.isTooDeep = true ∧ e.origin = none

theorem outOfDepth_attributed (e : ResolutionError) (id : Int) (offset line : Option Nat) :
    (e.attributed id offset line).OutOfDepth ↔ e.OutOfDepth := by
  unfold OutOfDepth
  rw [reason_attributed, origin_attributed]

/-- A fault of a record is no matter of depth. -/
theorem not_outOfDepth_of_isFault {thrown : Thrown} {error : ResolutionError}
    (h : thrown.IsFault) (herror : thrown = .resolution error) : ¬ error.OutOfDepth := by
  rintro ⟨hdeep, _⟩
  cases h with
  | @reason reason hpresent hshallow =>
    cases herror
    rw [show reason.isTooDeep = true from hdeep] at hshallow
    cases hshallow
  | failure original => cases herror

end ResolutionError

/-- No instance has failed since. -/
def Progress.FailsNone (p q : Progress) : Prop :=
  ∀ (id : Int) (error : ResolutionError), q.standing id = .failed error →
    p.standing id = .failed error

namespace Basis

variable {b : Basis} {brought : Option Blueprint} {kind : Thrown → Prop}

/-! ## What unwinds leaves no failures -/

/-- What ends well, or is given up. -/
def Unfailing {α : Type} (outcome : Except Thrown α) : Prop :=
  ∀ thrown, outcome = .error thrown → thrown.isGivenUp = true

/-- An attempt that ends so leaves no failure, and its building has ended so. -/
theorem unfailing_of_ending {id : Int} {r : Record} {outcome : Except Thrown Instance}
    (h : Unfailing (b.ending id r outcome).outcome) :
    Unfailing outcome ∧ ∀ error, b.ending id r outcome ≠ .failed error := by
  cases outcome with
  | ok value =>
    refine ⟨fun thrown hthrown => ?_, fun error herror => ?_⟩
    · cases hthrown
    · cases herror
  | error thrown =>
    rcases b.ending_error_cases id r thrown with ⟨hgiven, hopen, _⟩ | ⟨_, error, hfailed⟩
    · refine ⟨fun own hown => Except.error.inj hown ▸ hgiven, fun error herror => ?_⟩
      rw [herror] at hopen
      cases hopen
    · -- A failure is no matter of depth, so the attempt was not given up.
      have hattributed := b.ending_isAttributedTo id r (.error thrown)
      rw [hfailed] at h hattributed
      have hdeep : error.reason.isTooDeep = true := h _ rfl
      rw [hattributed.1] at hdeep
      cases hdeep

/-- A pass that ends well or is given up fails no instance. -/
theorem rollback (b : Basis) (kind : Thrown → Prop) :
    b.Passage kind (fun _ _ p outcome q => Unfailing outcome → p.FailsNone q)
      (fun _ _ p outcome q => Unfailing outcome → p.FailsNone q)
      (fun _ p outcome q => Unfailing outcome → p.FailsNone q) where
  resolved _ := fun _ _ _ herror => herror
  failed _ _ := fun _ _ _ herror => herror
  built {path id p q r outcome} _ _ hopen hran := by
    intro hending other error herror
    obtain ⟨hunfailing, hfailed⟩ := unfailing_of_ending hending
    rw [Progress.standing_finish] at herror
    split at herror
    · exact absurd (Ending.eq_failed herror) (hfailed error)
    · rename_i hid
      have hbegun := hran hunfailing other error herror
      rwa [Progress.standing_begin_other p hid] at hbegun
  missing _ := fun _ _ _ herror => herror
  deferred _ _ := fun _ _ _ herror => herror
  refused _ _ _ _ := fun _ _ _ herror => herror
  below {path target p q outcome tested} _ hentered _ := by
    intro hunfailing
    refine hentered fun thrown hthrown => hunfailing thrown ?_
    rw [hthrown]
    rfl
  done _ := fun _ _ _ herror => herror
  stopped {path target p q thrown} hvisited := by
    intro hunfailing
    exact hvisited fun own hown => hunfailing own (Except.error.inj hown ▸ rfl)
  passed {path target p q s outcome} hvisited hran := by
    intro hunfailing other error herror
    refine hvisited (fun thrown hthrown => ?_) other error (hran hunfailing other error herror)
    cases hthrown

/-! ## At the limit -/

/-- An error that says of the last instance of a path, and of the chain that the error has collected
behind it, that a reference from there was refused because the path is at its limit. -/
structure RefusedAt (b : Basis) (path : List Int) (referrer target : Int)
    (error : ResolutionError) : Prop where
  reason : error.reason = .tooDeep b.settings.maxDepth
  origin : error.origin = none
  isPath : b.population.IsSimplePath (path.reverse ++ error.chain)
  length : (path.reverse ++ error.chain).length = b.settings.maxDepth
  last : (path.reverse ++ error.chain).getLast? = some referrer
  refers : b.population.Refers referrer target
  new : target ∉ path.reverse ++ error.chain

/-- The error unwinds: the last instance on the path joins the chain. -/
theorem RefusedAt.attributed {path : List Int} {id referrer target : Int} {error : ResolutionError}
    (h : b.RefusedAt (id :: path) referrer target error) (offset line : Option Nat) :
    b.RefusedAt path referrer target (error.attributed id offset line) := by
  have hjoined : (id :: path).reverse ++ error.chain =
      path.reverse ++ (error.attributed id offset line).chain := by
    rw [error.chain_attributed, List.reverse_cons, List.append_assoc]
    rfl
  obtain ⟨hreason, horigin, hpath, hlength, hlast, hrefers, hnew⟩ := h
  rw [hjoined] at hpath hlength hlast hnew
  exact ⟨(error.reason_attributed id offset line).trans hreason,
    (error.origin_attributed id offset line).trans horigin, hpath, hlength, hlast, hrefers, hnew⟩

/-- Turns from a progress to another one keep to the limit.  If a reference is refused among them,
then the outcome is the error that says so, and there is no other error of this sort, unless one
is among those of the given kind. -/
structure Limited {α : Type} (b : Basis) (kind : Thrown → Prop) (path : List Int) (p : Progress)
    (outcome : Except Thrown α) (q : Progress) (turns : List Turn) : Prop where
  history : q.history = p.history ++ turns
  fit : Turn.Fit b.settings.maxDepth path turns
  refused : ∀ referrer target, .refused referrer target ∈ turns →
    ∃ error, outcome = .error (.resolution error) ∧ b.RefusedAt path referrer target error
  beyond : ∀ error, outcome = .error (.resolution error) → error.OutOfDepth →
    (∃ referrer target, .refused referrer target ∈ turns) ∨
      ∃ other, kind (.resolution other) ∧ other.OutOfDepth

namespace Limited

variable {α : Type} {path : List Int} {p q s : Progress} {outcome : Except Thrown α}

theorem nil (hpath : path.length ≤ b.settings.maxDepth) (hsame : q.history = p.history)
    (hbeyond : ∀ error, outcome = .error (.resolution error) → error.OutOfDepth →
      ∃ other, kind (.resolution other) ∧ other.OutOfDepth) :
    b.Limited kind path p outcome q [] :=
  ⟨by rw [hsame, List.append_nil], .nil hpath, nofun,
    fun error herror hdepth => .inr (hbeyond error herror hdepth)⟩

/-- An attempt at another instance. -/
theorem attempt {id : Int} {r : Record} {outcome : Except Thrown Instance} {turns : List Turn}
    (hnew : id ∉ path) (hroom : path.length < b.settings.maxDepth)
    (h : b.Limited kind (id :: path) (p.begin id) outcome q turns) :
    b.Limited kind path p (b.ending id r outcome).outcome (q.finish id (b.ending id r outcome))
      (.begun id :: turns ++ [.ended id (b.ending id r outcome)]) where
  history := by
    rw [Progress.history_finish, h.history, Progress.history_begin, List.append_assoc,
      List.append_assoc]
    rfl
  fit := h.fit.attempt hnew hroom _
  refused referrer target hmem := by
    have hturn : .refused referrer target ∈ turns := by simpa using hmem
    obtain ⟨error, rfl, hrefused⟩ := h.refused referrer target hturn
    exact ⟨_, Ending.outcome_ofError _, hrefused.attributed r.offset r.line⟩
  beyond error herror hdepth := by
    cases outcome with
    | ok value => cases herror
    | error thrown =>
      cases thrown with
      | interrupt message => cases herror
      | failure original =>
        rw [ending_failure, Ending.outcome_ofError] at herror
        cases herror
        cases hdepth.2
      | resolution own =>
        rw [ending, Ending.outcome_ofError] at herror
        cases herror
        refine (h.beyond own rfl ((own.outOfDepth_attributed _ _ _).mp hdepth)).imp_left ?_
        rintro ⟨referrer, target, hturn⟩
        exact ⟨referrer, target, List.mem_append_left _ (List.mem_cons_of_mem _ hturn)⟩

/-- What goes on behind turns that ended well. -/
theorem append {β : Type} {value : β} {first second : List Turn}
    (hfirst : b.Limited kind path p (.ok value) q first)
    (hsecond : b.Limited kind path q outcome s second) :
    b.Limited kind path p outcome s (first ++ second) where
  history := by rw [hsecond.history, hfirst.history, List.append_assoc]
  fit := hfirst.fit.append hsecond.fit
  refused referrer target hmem := by
    rcases List.mem_append.mp hmem with hold | hnew
    · obtain ⟨error, herror, _⟩ := hfirst.refused referrer target hold
      cases herror
    · exact hsecond.refused referrer target hnew
  beyond error herror hdepth := by
    refine (hsecond.beyond error herror hdepth).imp_left ?_
    rintro ⟨referrer, target, hturn⟩
    exact ⟨referrer, target, List.mem_append_right _ hturn⟩

/-- A reference is refused. -/
theorem refuse {target referrer : Int} (harrives : b.Arrives path target p) (hnew : target ∉ path)
    (hreferrer : path.head? = some referrer) (hpath : path.length = b.settings.maxDepth) :
    b.Limited kind path p (.error (.reason (.tooDeep b.settings.maxDepth)) : Except Thrown α)
      (p.note (.refused referrer target)) [.refused referrer target] where
  history := rfl
  fit := .refused hpath.le referrer target
  refused other third hmem := by
    obtain ⟨rfl, rfl⟩ : other = referrer ∧ third = target := by simpa using hmem
    refine ⟨_, rfl, rfl, rfl, ?_, ?_, ?_, harrives.referred _ hreferrer, ?_⟩
    all_goals rw [show path.reverse ++ (ResolutionError.of _).chain = path.reverse from
      List.append_nil _]
    · exact harrives.isPath
    · rw [List.length_reverse, hpath]
    · rw [List.getLast?_reverse]
      exact hreferrer
    · exact fun hmem => hnew (List.mem_reverse.mp hmem)
  beyond _ _ _ := .inl ⟨referrer, target, List.mem_singleton_self _⟩

/-- What is tested behind turns that ended well may have a fault. -/
theorem test {value : Except Thrown Instance} {tested : Except Thrown Unit} {turns : List Turn}
    (h : b.Limited kind path p value q turns) (htested : Thrown.Faults tested) :
    b.Limited kind path p (value.bind fun _ => tested) q turns where
  history := h.history
  fit := h.fit
  refused referrer target hmem := by
    obtain ⟨error, rfl, hrefused⟩ := h.refused referrer target hmem
    exact ⟨error, rfl, hrefused⟩
  beyond error herror hdepth := by
    cases value with
    | error thrown =>
      obtain rfl : thrown = .resolution error := Except.error.inj herror
      exact h.beyond error rfl hdepth
    | ok value =>
      exact absurd hdepth (ResolutionError.not_outOfDepth_of_isFault (htested _ herror) rfl)

/-- A building ends by the error of a reference. -/
theorem stop {thrown : Thrown} {turns : List Turn}
    (h : b.Limited kind path p (.error thrown : Except Thrown Unit) q turns) :
    b.Limited kind path p (.error thrown : Except Thrown Instance) q turns where
  history := h.history
  fit := h.fit
  refused referrer target hmem := by
    obtain ⟨error, herror, hrefused⟩ := h.refused referrer target hmem
    cases herror
    exact ⟨error, rfl, hrefused⟩
  beyond error herror hdepth := by
    cases herror
    exact h.beyond error rfl hdepth

end Limited

/-- The turns of a pass keep to the limit. -/
theorem limited (b : Basis) (kind : Thrown → Prop) :
    b.Passage kind
      (fun path _ p outcome q => path.length < b.settings.maxDepth →
        ∃ turns, b.Limited kind path p outcome q turns)
      (fun path _ p outcome q => path.length ≤ b.settings.maxDepth →
        ∃ turns, b.Limited kind path p outcome q turns)
      (fun path p outcome q => path.length ≤ b.settings.maxDepth →
        ∃ turns, b.Limited kind path p outcome q turns) where
  resolved _ := by
    intro hroom
    refine ⟨[], .nil (Nat.le_of_lt hroom) rfl fun error herror => ?_⟩
    cases herror
  failed {path id p error} horderly hstanding := by
    intro hroom
    refine ⟨[], .nil (Nat.le_of_lt hroom) rfl fun own herror hdepth => ?_⟩
    cases herror
    have hdeep := (horderly.attributed hstanding).1
    rw [hdepth.1] at hdeep
    cases hdeep
  built harrives _ hopen hran := by
    intro hroom
    obtain ⟨turns, hlimited⟩ := hran hroom
    exact ⟨_, hlimited.attempt (harrives.not_mem_of_unvisited hopen) hroom⟩
  missing _ := by
    intro hpath
    refine ⟨[], .nil hpath rfl fun error herror hdepth => ?_⟩
    cases herror
    cases hdepth.1
  deferred {path target p tested} htested event := by
    intro hpath
    refine ⟨[], .nil hpath (by rfl) fun error herror hdepth => ?_⟩
    exact absurd hdepth (ResolutionError.not_outOfDepth_of_isFault (htested _ herror) rfl)
  refused harrives hnew hreferrer hlimit := by
    intro hpath
    exact ⟨_, .refuse harrives hnew hreferrer (Nat.le_antisymm hpath hlimit)⟩
  below hroom hentered htested := by
    intro _
    obtain ⟨turns, hlimited⟩ := hentered hroom
    exact ⟨turns, hlimited.test htested⟩
  done hown := by
    intro hpath
    refine ⟨[], .nil hpath rfl fun error herror hdepth => ?_⟩
    rcases hown _ herror with hfault | hkind
    · exact absurd hdepth (ResolutionError.not_outOfDepth_of_isFault hfault rfl)
    · exact ⟨error, hkind, hdepth⟩
  stopped hvisited := by
    intro hpath
    obtain ⟨turns, hlimited⟩ := hvisited hpath
    exact ⟨turns, hlimited.stop⟩
  passed hvisited hran := by
    intro hpath
    obtain ⟨first, hfirst⟩ := hvisited hpath
    obtain ⟨second, hsecond⟩ := hran hpath
    exact ⟨_, hfirst.append hsecond⟩

/-! ## Resolutions -/

variable {id : Int} {p : Progress}

/-- A resolution that ends well or is given up fails no instance. -/
theorem failsNone_resolve (hmakers : b.makers.HandOn kind)
    (hbrought : Blueprint.HandOn brought kind) (hclosed : ∀ other, p.standing other ≠ .inProgress)
    (horderly : p.Orderly b.population)
    (h : Unfailing (b.resolve brought id p).1) : p.FailsNone (b.resolve brought id p).2 := by
  cases hr : b.population.find? id with
  | none =>
    rw [resolve_of_find?_eq_none hr]
    exact fun _ _ herror => herror
  | some r => exact (b.rollback kind).resolve hmakers hbrought hclosed horderly hr h

/-- A resolution keeps to the limit. -/
theorem limited_resolve (hmakers : b.makers.HandOn kind) (hbrought : Blueprint.HandOn brought kind)
    (hclosed : ∀ other, p.standing other ≠ .inProgress) (horderly : p.Orderly b.population)
    (id : Int) :
    ∃ turns, b.Limited kind [] p (b.resolve brought id p).1 (b.resolve brought id p).2 turns := by
  cases hr : b.population.find? id with
  | none =>
    rw [resolve_of_find?_eq_none hr]
    refine ⟨[], .nil (Nat.zero_le _) rfl fun error herror hdepth => ?_⟩
    cases herror
    cases hdepth.1
  | some r =>
    exact (b.limited kind).resolve hmakers hbrought hclosed horderly hr b.settings.one_le

/-- The error by which an attempt ends has the instance as the first of its chain. -/
theorem head?_chain_of_ending {r : Record} {outcome : Except Thrown Instance}
    {error : ResolutionError}
    (h : (b.ending id r outcome).outcome = .error (.resolution error)) :
    error.chain.head? = some id := by
  cases outcome with
  | ok value => cases h
  | error thrown =>
    cases thrown with
    | interrupt message => cases h
    | failure original =>
      rw [ending_failure, Ending.outcome_ofError] at h
      cases h
      rfl
    | resolution own =>
      rw [ending, Ending.outcome_ofError] at h
      cases h
      exact own.head?_chain_attributed id r.offset r.line

/-- So has the error of a resolution, if the instance has a record. -/
theorem head?_chain_of_resolve (hclosed : ∀ other, p.standing other ≠ .inProgress)
    (horderly : p.Orderly b.population) {r : Record} (hr : b.population.find? id = some r)
    {error : ResolutionError} (h : (b.resolve brought id p).1 = .error (.resolution error)) :
    error.chain.head? = some id := by
  unfold resolve nesting enter at h
  rw [hr] at h
  dsimp only at h
  split at h
  · cases h
  · rename_i own hstanding
    cases h
    exact (horderly.attributed hstanding).2.2
  · rename_i hstanding
    exact absurd hstanding (hclosed id)
  · exact head?_chain_of_ending h

end Basis

/-! ## What is left behind -/

namespace Progress

/-- What was given up has left no trace: some instances were completed, and nothing else is
different. -/
structure LeavesNoTrace (p q : Progress) (turns : List Turn) : Prop where
  /-- every instance visited before is as it was -/
  kept : ∀ id, p.standing id ≠ .unvisited → q.standing id = p.standing id
  /-- an instance that is not as it was is resolved, and its own building was completed -/
  completed : ∀ id, q.standing id ≠ p.standing id →
    ∃ value, q.standing id = .resolved value ∧ .ended id (.completed value) ∈ turns
  /-- an instance of which the building was begun and not completed is unvisited -/
  undone : ∀ id, .begun id ∈ turns → (∀ value, .ended id (.completed value) ∉ turns) →
    q.standing id = .unvisited

/-- Where nothing is in progress and nothing has failed since, the turns tell of all that is
different. -/
theorem Tells.leavesNoTrace {p q : Progress} {turns : List Turn} (h : p.Tells q turns)
    (hclosed : ∀ id, p.standing id ≠ .inProgress) (hclosedAfter : ∀ id, q.standing id ≠ .inProgress)
    (hkeeps : p.Keeps q) (hfails : p.FailsNone q) : p.LeavesNoTrace q turns where
  kept id hvisited := by
    cases hstanding : p.standing id with
    | unvisited => exact absurd hstanding hvisited
    | inProgress => exact absurd hstanding (hclosed id)
    | resolved value => exact hkeeps.resolved hstanding
    | failed error => exact hkeeps.failed hstanding
  completed id hchanged := by
    cases hstanding : q.standing id with
    | inProgress => exact absurd hstanding (hclosedAfter id)
    | failed error => exact absurd (hstanding.trans (hfails id error hstanding).symm) hchanged
    | resolved value =>
      rcases h.completed hstanding with hbefore | hturn
      · exact absurd (hstanding.trans hbefore.symm) hchanged
      · exact ⟨value, rfl, hturn⟩
    | unvisited =>
      cases hbefore : p.standing id with
      | unvisited => exact absurd (hstanding.trans hbefore.symm) hchanged
      | inProgress => exact absurd hbefore (hclosed id)
      | resolved value => rw [hkeeps.resolved hbefore] at hstanding; cases hstanding
      | failed error => rw [hkeeps.failed hbefore] at hstanding; cases hstanding
  undone id hbegun hcompleted := by
    obtain ⟨hresolved, hfailed⟩ := h.begun hbegun
    cases hstanding : q.standing id with
    | unvisited => rfl
    | inProgress => exact absurd hstanding (hclosedAfter id)
    | failed error => exact absurd (hfails id error hstanding) (hfailed error)
    | resolved value =>
      rcases h.completed hstanding with hbefore | hturn
      · exact absurd hbefore (hresolved value)
      · exact absurd hturn (hcompleted value)

end Progress

namespace Table

/-- What may be done at a table: a request is served, another type is registered, a factory or a
holder is bound, whatever they do, or events are taken. -/
inductive Deed : Table → Table → Prop
  | served {t : Table} (q : Request) : Deed t (t.serve q)
  | registered {t u : Table} {type : TypeDef} {factory : Option Factory}
      (hu : t.register type factory = .ok u) : Deed t u
  | bound {t u : Table} {name : Text} {factory : Factory} (hu : t.bind name factory = .ok u) :
      Deed t u
  | held {t u : Table} {name : Text} {holder : Holder} (hu : t.bindHolder name holder = .ok u) :
      Deed t u
  | taken {t : Table} : Deed t t.takeEvents.2

/-- Whatever is done at a table, any number of times. -/
abbrev Deeds : Table → Table → Prop := Relation.ReflTransGen Deed

theorem deeds_session (t : Table) (requests : List Request) : t.Deeds (t.session requests) := by
  induction requests generalizing t with
  | nil => exact .refl
  | cons q rest ih => exact .head (.served q) (ih (t.serve q))

variable {t u : Table}

theorem Idle.deed (h : t.Idle) (hdeed : t.Deed u) : u.Idle := by
  cases hdeed with
  | served q => exact h.session [q]
  | registered hu =>
    unfold register at hu
    split at hu <;> cases hu
    exact ⟨h.closed, h.orderly⟩
  | bound hu =>
    unfold bind at hu
    split at hu <;> cases hu
    exact ⟨h.closed, h.orderly⟩
  | held hu =>
    unfold bindHolder at hu
    split at hu <;> cases hu
    exact ⟨h.closed, h.orderly⟩
  | taken =>
    exact ⟨h.closed, h.orderly.known, h.orderly.attributed, h.orderly.accounted,
      h.orderly.restarts⟩

theorem Idle.deeds (h : t.Idle) (hdeeds : t.Deeds u) : u.Idle := by
  induction hdeeds with
  | refl => exact h
  | tail _ hdeed ih => exact ih.deed hdeed

/-- An instance that is not what is expected is no matter of depth. -/
theorem isTooDeep_of_checkExpected {id : Int} {own : Expected} {error : ResolutionError}
    (h : t.checkExpected id own = .error (.resolution error)) : error.reason.isTooDeep = false := by
  unfold checkExpected at h
  split at h
  · cases h
    rfl
  · dsimp only at h
    split at h <;> cases h
    rfl

theorem not_outOfDepth_of_checkExpected {id : Int} {own : Expected} {error : ResolutionError}
    (h : t.checkExpected id own = .error (.resolution error)) : ¬ error.OutOfDepth := by
  rintro ⟨hdeep, _⟩
  rw [isTooDeep_of_checkExpected h] at hdeep
  cases hdeep

end Table

/-! ## Samples -/

namespace Sample

/-- Two instances at a time. -/
def narrow : Settings := ⟨2, true, true, by decide, by decide⟩

/-- Everything by default, but the buildings of tags are called off. -/
def interrupted : Makers :=
  Makers.initial.withHolder "TAG" (Holder.callingOff fun _ => some "stop")

/-- A node that refers to one without references and to the first of two others in a row, and a
node that refers to one of them and to a tag. -/
def branching : List Request :=
  [.add (record 1 [4, 2]), .add (record 2 [3]), .add (record 3 []), .add (record 4 []),
    .add (record 5 [4, 6]), .add ⟨some 6, .simple ⟨"TAG", []⟩, none, none⟩]

/-- A table of these nodes with little room. -/
def cramped : Table := (Table.empty registry interrupted narrow).session branching

end Sample

namespace Table

end Table

end Part21
