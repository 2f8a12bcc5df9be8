import Part21.Proofs.Resolution.Filling
import Part21.Proofs.Schema.Search
import Part21.Proofs.Workshop.Deferral

set_option autoImplicit false

/-!
# Errors of depth among workers

An error of depth is to say that references go deeper than the limit.  It arises where a reference
is given up because the path of its pass is at the limit (`Workshop.AtLimit`), and from there it is
handed on: from building to building on one pass, and to the workers who wait for one of these
buildings.

There is one more place where it arises (`Workshop.Misled`).  Who has waited for a job that was
given up is told of depth, whatever the job was given up for; so it is told of depth, too, where
the building was called off.  The main statement is that these are the only two places, for
buildings that raise no such error of their own (`Workshop.depth_for_reason`); the second one is
real (`Workshop.not_depth_for_reason`).
-/

namespace Part21

/-! ## Shallow outcomes -/

namespace Thrown

/-- References, or a recursion, go too deep. -/
def isOfDepth : Thrown → Bool
  | .resolution error => error.reason.isTooDeep
  | .failure original => original.isExhausted
  | .interrupt _ => false

variable {α : Type}

/-- What ends by an error ends by none of depth. -/
def Shallow (outcome : Except Thrown α) : Prop :=
  ∀ thrown, outcome = .error thrown → thrown.isOfDepth = false

theorem shallow_ok (value : α) : Shallow (.ok value) := by
  intro thrown h
  cases h

theorem shallow_error {thrown : Thrown} :
    Shallow (.error thrown : Except Thrown α) ↔ thrown.isOfDepth = false := by
  refine ⟨fun h => h thrown rfl, fun h own hown => ?_⟩
  rwa [← Except.error.inj hown]

instance (outcome : Except Thrown α) : Decidable (Shallow outcome) :=
  match outcome with
  | .ok value => isTrue (shallow_ok value)
  | .error _ => decidable_of_iff _ shallow_error.symm

/-- A fault of the schema is no matter of depth, but for one that questions never come to. -/
theorem isOfDepth_schema {fault : SchemaFault} (h : fault ≠ .bottomless) :
    (schema fault).isOfDepth = false := by
  cases fault <;> first | rfl | exact absurd rfl h

end Thrown

open Thrown

/-! ## Questions to the schema -/

namespace Registry

variable {r : Registry}

theorem ne_bottomless_of_entity {name : Text} {fault : SchemaFault}
    (h : r.entity name = .error fault) : fault ≠ .bottomless := by
  unfold entity get at h
  cases hfind : r.find? name with
  | none =>
    rw [hfind] at h
    cases h
    exact nofun
  | some t =>
    rw [hfind] at h
    cases t <;> cases h
    all_goals exact nofun

theorem ne_bottomless_of_supertypes {owner : EntityType} {names : List Text} {fault : SchemaFault}
    (h : r.supertypes owner names = .error fault) : fault ≠ .bottomless := by
  induction names with
  | nil => cases h
  | cons name rest ih =>
    unfold supertypes at h
    split at h
    · rename_i hfirst
      cases h
      unfold supertype at hfirst
      split at hfirst
      · exact ne_bottomless_of_entity hfirst
      · cases hfirst
        exact nofun
    · split at h
      · rename_i hothers
        cases h
        exact ih hothers
      · cases h

theorem ne_bottomless_of_collectAncestors {steps : Nat} {stack : List EntityType}
    {seen : List Text} {fault : SchemaFault}
    (h : r.collectAncestors steps stack seen = .error fault) : fault ≠ .bottomless := by
  induction steps generalizing stack seen with
  | zero => cases h
  | succ steps ih =>
    cases stack with
    | nil => cases h
    | cons current stack =>
      unfold collectAncestors at h
      split at h
      · exact ih h
      · split at h
        · rename_i hsupertypes
          cases h
          exact ne_bottomless_of_supertypes hsupertypes
        · exact ih h

theorem ne_bottomless_of_isSubtype {sub sup : Text} {fault : SchemaFault}
    (h : r.isSubtype sub sup = .error fault) : fault ≠ .bottomless := by
  unfold isSubtype at h
  split at h
  · cases h
  · split at h
    · rename_i hancestors
      cases h
      exact ne_bottomless_of_collectAncestors hancestors
    · cases h

end Registry

namespace Basis

variable {b : Basis} {brought : Option Blueprint}

theorem ne_bottomless_of_anyOf {α : Type} {test : α → Except SchemaFault Bool} {among : List α}
    (htest : ∀ a fault, test a = .error fault → fault ≠ .bottomless) {fault : SchemaFault}
    (h : anyOf test among = .error fault) : fault ≠ .bottomless := by
  induction among with
  | nil => cases h
  | cons a rest ih =>
    unfold anyOf at h
    split at h
    · rename_i hfirst
      cases h
      exact htest a _ hfirst
    · cases h
    · exact ih h

theorem ne_bottomless_of_keywordIs {keyword name : Text} {fault : SchemaFault}
    (h : b.keywordIs brought keyword name = .error fault) : fault ≠ .bottomless := by
  unfold keywordIs at h
  split at h
  · cases h
  · split at h
    · rename_i hsubtype
      cases h
      exact Registry.ne_bottomless_of_isSubtype hsubtype
    · cases h
    · split at h
      · cases h
      · rename_i own
        split at h
        · cases hancestors : b.registry.ancestors own.definition with
          | ok names =>
            rw [hancestors] at h
            cases h
          | error other =>
            rw [hancestors] at h
            cases h
            exact Registry.ne_bottomless_of_collectAncestors hancestors
        · cases h

theorem ne_bottomless_of_allowed {expected : TypeDef} {fault : SchemaFault}
    (h : b.allowed expected = .error fault) : fault ≠ .bottomless := by
  unfold allowed at h
  split at h
  · rename_i hresolve
    cases h
    unfold Registry.resolve at hresolve
    split at hresolve
    · split at hresolve <;> cases hresolve
      exact nofun
    · cases hresolve
  · cases Registry.withholds_of_selectEntities h <;> exact nofun
  · cases h

/-- Whether the target of a reference is of the type expected is no matter of depth. -/
theorem shallow_checkTarget (b : Basis) (brought : Option Blueprint) (id : Int) (r : Record)
    (expected : TypeDef) (place : Text) : Shallow (b.checkTarget brought id r expected place) := by
  unfold checkTarget
  split
  · rename_i hallowed
    exact shallow_error.mpr (isOfDepth_schema (ne_bottomless_of_allowed hallowed))
  · split
    · rename_i hrecord
      refine shallow_error.mpr (isOfDepth_schema ?_)
      refine ne_bottomless_of_anyOf (fun keyword other hother => ?_) hrecord
      exact ne_bottomless_of_anyOf (fun name fault => ne_bottomless_of_keywordIs) hother
    · exact shallow_ok ()
    · exact shallow_error.mpr rfl

end Basis

/-! ## Shallow endings -/

namespace Ending

/-- The attempt was not given up for depth, and did not fail for it. -/
def IsShallow : Ending → Prop
  | completed _ => True
  | failed error => error.reason.isTooDeep = false
  | tooDeep _ => False
  | calledOff _ => True

variable {ending : Ending}

theorem IsShallow.outcome (h : ending.IsShallow) : Shallow ending.outcome := by
  cases ending with
  | completed value => exact shallow_ok value
  | failed error => exact shallow_error.mpr h
  | tooDeep error => cases h
  | calledOff message => exact shallow_error.mpr rfl

theorem isShallow_ofError {error : ResolutionError} (h : error.reason.isTooDeep = false) :
    (ofError error).IsShallow := by
  rw [ofError, if_neg (ne_true_of_eq_false h)]
  exact h

end Ending

/-- An attempt is not given up for depth if its building ends by no error of depth. -/
theorem Basis.isShallow_ending (b : Basis) (id : Int) (r : Record)
    {outcome : Except Thrown Instance} (h : Shallow outcome) :
    (b.ending id r outcome).IsShallow := by
  cases outcome with
  | ok value => trivial
  | error thrown =>
    have hthrown := shallow_error.mp h
    cases thrown with
    | resolution error =>
      refine Ending.isShallow_ofError ?_
      rw [error.reason_attributed]
      exact hthrown
    | failure original =>
      have hexhausted : original.isExhausted = false := hthrown
      rw [Basis.ending_failure, hexhausted]
      exact Ending.isShallow_ofError rfl
    | interrupt message => trivial

/-! ## Buildings that relay -/

/-- A building ends by an error of depth only after it was told of one. -/
inductive Build.Relays {α : Type} : Build α → Prop
  | done {outcome : Except Thrown α} (h : Shallow outcome) : Relays (.done outcome)
  | visit {id : Int} {expected : TypeDef} {place : Text} {next : Except Thrown Unit → Build α}
      (h : ∀ answer, Shallow answer → Relays (next answer)) :
      Relays (.visit id expected place next)
  | resolve {id : Int} {next : Except Thrown Instance → Build α}
      (h : ∀ answer, Shallow answer → Relays (next answer)) : Relays (.resolve id next)

namespace Build.Relays

variable {α : Type} {id : Int}

theorem outcome {outcome : Except Thrown α} (h : (Build.done outcome).Relays) :
    Shallow outcome := by
  cases h
  assumption

theorem afterVisit {expected : TypeDef} {place : Text} {next : Except Thrown Unit → Build α}
    (h : (Build.visit id expected place next).Relays) :
    ∀ answer, Shallow answer → (next answer).Relays := by
  cases h
  assumption

theorem afterResolve {next : Except Thrown Instance → Build α}
    (h : (Build.resolve id next).Relays) : ∀ answer, Shallow answer → (next answer).Relays := by
  cases h
  assumption

/-- To follow links and then to relay is to relay. -/
theorem after {links : List Link} {next : Build α} (h : next.Relays) :
    (Build.after links next).Relays := by
  induction links with
  | nil => exact h
  | cons l rest ih =>
    refine .visit fun answer hanswer => ?_
    cases answer with
    | ok done => exact ih
    | error thrown => exact .done (shallow_error.mpr (shallow_error.mp hanswer))

end Build.Relays

/-- All records are built so, wherever and whenever that is. -/
def Basis.Relays (b : Basis) : Prop :=
  ∀ {id : Int} {r : Record}, b.population.find? id = some r → ∀ site : Site, site.id = id →
    site.registry = b.registry → site.settings = b.settings → (b.build none site r).Relays

/-- The default holder relays, if no recursion fails while parameters are converted and if the
factory, should there be one, relays as well. -/
theorem Basis.relays_of_heldByDefault {b : Basis} {r : Record} (hholder : b.HeldByDefault none r)
    {site : Site} (hregistry : site.registry = b.registry) (hsettings : site.settings = b.settings)
    (hhold : Shallow (b.hold none site.id r))
    (hmade : ∀ held, b.hold none site.id r = .ok held → (b.made none site r held).Relays) :
    (b.build none site r).Relays := by
  rw [build_eq_made hholder hregistry hsettings]
  cases hheld : b.hold none site.id r with
  | error thrown =>
    rw [hheld] at hhold
    exact .done (shallow_error.mpr (shallow_error.mp hhold))
  | ok held => exact .after (hmade held hheld)

/-- Where nothing but the schema has a say, it is enough that no recursion fails while parameters
are converted. -/
theorem Basis.relays_of_byDefault {b : Basis} (hdefault : b.ByDefault none)
    (hhold : ∀ entry ∈ b.population.entries, Shallow (b.hold none entry.1 entry.2)) : b.Relays := by
  rintro id r hr site rfl hregistry hsettings
  refine relays_of_heldByDefault (hdefault.heldByDefault r) hregistry hsettings ?_ ?_
  · exact hhold (site.id, r) (Population.find?_eq_some.mp hr)
  · intro held _
    rw [hdefault.made_eq]
    exact .done (shallow_ok _)

/-! ## Workers without trouble -/

/-- What a building goes on with relays. -/
def Continuation.Relays : Continuation → Prop
  | .visit _ _ _ _ next => ∀ answer, Shallow answer → (next answer).Relays
  | .resolve _ next => ∀ answer, Shallow answer → (next answer).Relays

/-- A worker has met no error of depth: none was answered, and its buildings relay. -/
structure Worker.Untroubled (w : Worker) : Prop where
  waiting : ∀ entry ∈ w.stack, entry.1.pass.brought = none ∧ entry.2.Relays
  building : ∀ {frame : Frame} {rest : Build Instance}, w.activity = .building frame rest →
    frame.pass.brought = none ∧ rest.Relays
  answering : ∀ {reply : Reply}, w.activity = .answering reply → Shallow reply.received
  outcomes : ∀ entry ∈ w.outcomes, Shallow entry.2

namespace Worker.Untroubled

variable {w : Worker}

/-- No type of its own is brought along on a pass of a worker. -/
theorem brought (h : w.Untroubled) : w.pass.brought = none := by
  unfold Worker.pass
  split
  · rename_i hstack
    exact (h.waiting _ (hstack ▸ List.mem_cons_self)).1
  · rfl

/-- The worker does something next that is neither to build nor to answer. -/
theorem turnTo (h : w.Untroubled) {activity : Activity}
    (hbuilding : ∀ frame rest, activity ≠ .building frame rest)
    (hanswering : ∀ reply, activity ≠ .answering reply) : (w.turnTo activity).Untroubled :=
  ⟨h.waiting, fun hactivity => absurd hactivity (hbuilding _ _),
    fun hactivity => absurd hactivity (hanswering _), h.outcomes⟩

theorem build (h : w.Untroubled) {frame : Frame} {rest : Build Instance}
    (hbrought : frame.pass.brought = none) (hrest : rest.Relays) :
    (w.turnTo (.building frame rest)).Untroubled where
  waiting := h.waiting
  building hactivity := by
    obtain ⟨rfl, rfl⟩ := Activity.building.inj hactivity
    exact ⟨hbrought, hrest⟩
  answering := nofun
  outcomes := h.outcomes

theorem answer (h : w.Untroubled) {reply : Reply} (hreply : Shallow reply.received) :
    (w.turnTo (.answering reply)).Untroubled where
  waiting := h.waiting
  building := nofun
  answering hactivity := by
    obtain rfl := Activity.answering.inj hactivity
    exact hreply
  outcomes := h.outcomes

end Worker.Untroubled

namespace Workshop

variable {w u : Workshop} {k : Nat} {worker next : Worker} {deed : Deed}

/-- No attempt was given up for depth, and no worker has met an error of depth. -/
structure Untroubled (w : Workshop) : Prop where
  jobs : ∀ {n : Nat} {job : Job} {ending : Ending}, w.jobs[n]? = some job →
    job.ending = some ending → ending.IsShallow
  workers : ∀ {k : Nat} {worker : Worker}, w.workers[k]? = some worker → worker.Untroubled

/-! ## Where errors of depth arise -/

/-- The worker is about to give a reference up: the instance has a record and is not on the path
of the pass, and the path is at its limit. -/
def AtLimit (w : Workshop) (k : Nat) : Prop :=
  ∃ worker frame id expected place next, w.workers[k]? = some worker ∧
    worker.activity = .building frame (.visit id expected place next) ∧
    w.basis.population.contains id = true ∧ id ∉ frame.pass.path ∧
    w.basis.settings.maxDepth ≤ frame.pass.path.length

/-- The worker has waited for a job that was called off, and is about to be told of it. -/
def Misled (w : Workshop) (k : Nat) : Prop :=
  ∃ worker n job message, w.workers[k]? = some worker ∧ worker.activity = .leaving n ∧
    w.jobs[n]? = some job ∧ job.ending = some (.calledOff message)

/-- Who has waited for a job is told of no depth, unless the job was called off. -/
theorem shallow_told {job : Job} {ending : Ending} (hending : job.ending = some ending)
    (hshallow : ending.IsShallow) (hmessage : ∀ message, ending ≠ .calledOff message) (id : Int) :
    Shallow (w.told id job) := by
  unfold told Job.answer?
  rw [hending]
  cases ending with
  | completed value => exact shallow_ok value
  | failed error => exact shallow_error.mpr hshallow
  | tooDeep error => cases hshallow
  | calledOff message => exact absurd rfl (hmessage message)

/-- A worker is answered without an error of depth, unless it has waited for a job that was called
off. -/
theorem shallow_answered (h : w.Untroubled) (hattends : w.Attends worker)
    (hworker : w.workers[k]? = some worker) {answer : Except Thrown Instance}
    (hanswered : w.Answered k worker answer) : Shallow answer ∨ w.Misled k := by
  cases hanswered with
  | missing hactivity hrecord => exact .inl (shallow_error.mpr rfl)
  | @kept number job _ hactivity hjob hanswer =>
    refine .inl ?_
    obtain ⟨ending, hending, hsays⟩ := Option.bind_eq_some_iff.mp hanswer
    have hshallow := h.jobs hjob hending
    cases ending with
    | completed value =>
      obtain rfl := Option.some.inj hsays
      exact shallow_ok value
    | failed error =>
      obtain rfl := Option.some.inj hsays
      exact shallow_error.mpr hshallow
    | tooDeep error => cases hsays
    | calledOff message => cases hsays
  | own hactivity hjob hanswer howner => exact .inl (shallow_error.mpr rfl)
  | held hactivity hjob hanswer hother hwaits hpath => exact .inl (shallow_error.mpr rfl)
  | @told number job hactivity hjob =>
    obtain ⟨own, hown, -, hclosed⟩ := hattends.leaving hactivity
    obtain rfl := Option.some.inj (hjob.symm.trans hown)
    obtain ⟨ending, hending⟩ := Option.ne_none_iff_exists'.mp
      (show job.ending ≠ none from fun hnone => by simp [Job.isOpen, hnone] at hclosed)
    by_cases hcalled : ∃ message, ending = .calledOff message
    · obtain ⟨message, rfl⟩ := hcalled
      exact .inr ⟨worker, number, job, message, hworker, hactivity, hjob, hending⟩
    · exact .inl (shallow_told hending (h.jobs hjob hending) (not_exists.mp hcalled) _)

/-! ## Steps -/

/-- A building that learns at once what comes of a reference learns of no depth, unless the path is
at its limit. -/
theorem shallow_followed (hworker : w.workers[k]? = some worker) {frame : Frame} {id : Int}
    {expected : TypeDef} {place : Text} {rest : Except Thrown Unit → Build Instance}
    (hactivity : worker.activity = .building frame (.visit id expected place rest))
    {answer : Except Thrown Unit} (h : Followed w.basis frame id expected place deed answer) :
    Shallow answer ∨ w.AtLimit k := by
  cases h with
  | missing hrecord => exact .inl (shallow_error.mpr rfl)
  | @back r hrecord hmem =>
    exact .inl (w.basis.shallow_checkTarget frame.pass.brought id r expected place)
  | refused hrecord hnew hlimit =>
    exact .inr ⟨worker, frame, id, expected, place, rest, hworker, hactivity,
      Population.contains_of_find? hrecord, hnew, hlimit⟩

/-- A building goes on with a shallow answer. -/
theorem relays_resume {frame : Frame} {continuation : Continuation} (h : continuation.Relays)
    {reply : Reply} (hreply : Shallow reply.received) :
    (w.resume frame reply continuation).Relays := by
  cases continuation with
  | resolve id rest => exact h _ hreply
  | visit id r expected place rest =>
    unfold resume
    dsimp only
    split
    · rename_i hthrown
      rw [hthrown] at hreply
      exact h _ (shallow_error.mpr (shallow_error.mp hreply))
    · exact h _ (w.basis.shallow_checkTarget frame.pass.brought id r expected place)

/-- The worker who acts stays without trouble, but for the two places where errors of depth
arise. -/
theorem Untroubled.acts (h : w.Untroubled) (hbuildings : w.basis.Relays)
    (hattends : w.Attends worker) (hworker : w.workers[k]? = some worker)
    (hacts : w.Acts k worker deed next) : next.Untroubled ∨ w.AtLimit k ∨ w.Misled k := by
  have hself := h.workers hworker
  cases hacts with
  | started hactivity herrands => exact .inl ⟨hself.waiting, nofun, nofun, hself.outcomes⟩
  | @opened r hactivity hrecord hjob =>
    refine .inl (hself.build hself.brought ?_)
    rw [hself.brought]
    exact hbuildings hrecord _ rfl rfl rfl
  | answered hanswered =>
    rcases shallow_answered h hattends hworker hanswered with hshallow | hmisled
    · exact .inl (hself.answer hshallow)
    · exact .inr (.inr hmisled)
  | deferred hactivity hjob hanswer hother hwaits hpath =>
    exact .inl (hself.answer (shallow_ok _))
  | closed hactivity =>
    have houtcome := (hself.building hactivity).2.outcome
    exact .inl (hself.answer (w.basis.isShallow_ending _ _ houtcome).outcome)
  | asked hactivity hasks =>
    obtain ⟨hbrought, hrest⟩ := hself.building hactivity
    refine .inl ⟨List.forall_mem_cons.mpr ⟨⟨hbrought, ?_⟩, hself.waiting⟩, nofun, nofun,
      hself.outcomes⟩
    cases hasks with
    | visit hrecord hnew hroom => exact hrest.afterVisit
    | resolve => exact hrest.afterResolve
  | followed hactivity hfollowed =>
    obtain ⟨hbrought, hrest⟩ := hself.building hactivity
    rcases shallow_followed hworker hactivity hfollowed with hshallow | hlimit
    · exact .inl (hself.build hbrought (hrest.afterVisit _ hshallow))
    · exact .inr (.inl hlimit)
  | resumed hactivity hstack =>
    have hwaiting := hself.waiting
    rw [hstack] at hwaiting
    obtain ⟨⟨hbrought, hcontinuation⟩, hbelow⟩ := List.forall_mem_cons.mp hwaiting
    refine .inl ⟨hbelow, fun hbuilding => ?_, nofun, hself.outcomes⟩
    obtain ⟨rfl, rfl⟩ := Activity.building.inj hbuilding
    exact ⟨hbrought, relays_resume hcontinuation (hself.answering hactivity)⟩
  | finished hactivity hstack =>
    refine .inl ⟨hself.waiting, nofun, nofun, fun entry hmem => ?_⟩
    rcases List.mem_append.mp hmem with hold | hnew
    · exact hself.outcomes entry hold
    · obtain rfl := List.mem_singleton.mp hnew
      exact hself.answering hactivity
  | _ => exact .inl (hself.turnTo (by rintro frame rest ⟨⟩) (by rintro reply ⟨⟩))

/-- What is done at the table gives no job up for depth. -/
theorem Untroubled.jobs_perform (h : w.Untroubled)
    (hclosed : ∀ frame ending, deed = .closed frame ending → ending.IsShallow) {n : Nat} {job : Job}
    {ending : Ending} (hjob : (w.perform k deed).jobs[n]? = some job)
    (hending : job.ending = some ending) : ending.IsShallow := by
  cases deed with
  | opened id =>
    rw [jobs_opened] at hjob
    split at hjob
    · obtain rfl := Option.some.inj hjob
      cases hending
    · exact h.jobs hjob hending
  | closed frame own =>
    rw [jobs_closed] at hjob
    split at hjob
    · obtain ⟨old, -, rfl⟩ := Option.map_eq_some_iff.mp hjob
      obtain rfl := Option.some.inj hending
      exact hclosed frame own rfl
    · exact h.jobs hjob hending
  | _ => exact h.jobs hjob hending

/-- In every step workers stay without trouble, but for the two places where errors of depth
arise. -/
theorem Untroubled.step (h : w.Untroubled) (hbuildings : w.basis.Relays)
    (haccounted : w.Accounted) (hstep : w.step? k = some u) :
    u.Untroubled ∨ w.AtLimit k ∨ w.Misled k := by
  obtain ⟨worker, deed, next, hworker, hacts, rfl⟩ := exists_acts hstep
  refine (h.acts hbuildings (haccounted.attends hworker) hworker hacts).imp_left fun hnext => ?_
  constructor
  · refine h.jobs_perform fun frame ending hdeed => ?_
    cases hacts with
    | closed hactivity =>
      cases hdeed
      exact w.basis.isShallow_ending _ _ ((h.workers hworker).building hactivity).2.outcome
    | followed hactivity hfollowed => cases hfollowed <;> cases hdeed
    | _ => cases hdeed
  · exact forall_workers (P := fun _ => Worker.Untroubled) hworker hnext
      fun l other _ hother => h.workers hother

/-! ## Runs -/

/-- Wherever workers come to, they are without trouble, or an error of depth has arisen in some
step on the way. -/
theorem Untroubled.reaches (h : w.Untroubled) (hbuildings : w.basis.Relays)
    (haccounted : w.Accounted) (hreaches : Reaches w u) :
    u.Untroubled ∨ ∃ v v' l, Reaches w v ∧ v.step? l = some v' ∧ Reaches v' u ∧
      (v.AtLimit l ∨ v.Misled l) := by
  induction hreaches with
  | refl => exact .inl h
  | @step w v u k hstep hrest ih =>
    rcases h.step hbuildings haccounted hstep with hnext | harises
    · have hbasis := (haccounted.continues_of_reaches (.single hstep)).basis
      refine (ih hnext (hbasis ▸ hbuildings) (haccounted.step hstep)).imp_right ?_
      rintro ⟨m, m', l, hbefore, hmoment, hbehind, harises⟩
      exact ⟨m, m', l, .step k hstep hbefore, hmoment, hbehind, harises⟩
    · exact .inr ⟨w, v, k, .refl w, hstep, hrest, harises⟩

/-- Workers begin without trouble, as no failure of depth is kept at a table. -/
theorem untroubled_opened {t : Table} (h : t.Idle) (errands : List (List Int)) :
    (opened t errands).Untroubled where
  jobs hjob hending := by
    obtain ⟨-, ⟨value, -, hcompleted⟩ | ⟨error, hstanding, hfailed⟩⟩ :=
      Table.of_mem_jobs (List.mem_of_getElem? hjob)
    · obtain rfl := Option.some.inj (hcompleted.symm.trans hending)
      trivial
    · obtain rfl := Option.some.inj (hfailed.symm.trans hending)
      exact (h.orderly.attributed hstanding).1
  workers hworker := by
    obtain ⟨own, -, rfl⟩ := worker_of_opened hworker
    exact ⟨List.forall_mem_nil _, by rintro frame rest ⟨⟩, by rintro reply ⟨⟩,
      List.forall_mem_nil _⟩

/-- Workers resolve instances at a table where anything may have been done before, and no building
raises an error of depth of its own, though it may raise anything else or be called off.  If a
worker has an error of depth as the outcome of an errand, or is given one as the answer to a
building, then since the workers began one of them has given a reference up because as many
instances as the limit were in progress on its pass; or else one of them has waited for a job that
was called off. -/
theorem depth_for_reason {registry : Registry} {makers : Makers} {settings : Settings} {t : Table}
    (hdeeds : (Table.empty registry makers settings).Deeds t) (hbuildings : t.basis.Relays)
    {errands : List (List Int)} (h : Reaches (opened t errands) w)
    (hworker : w.workers[k]? = some worker) {error : ResolutionError}
    (hraised : (∃ id, (id, .error (.resolution error)) ∈ worker.outcomes) ∨
      worker.activity = .answering (.outcome (.error (.resolution error))))
    (hdeep : error.reason.isTooDeep = true) :
    ∃ v v' l, Reaches (opened t errands) v ∧ v.step? l = some v' ∧ Reaches v' w ∧
      (v.AtLimit l ∨ v.Misled l) := by
  have hidle : t.Idle := (Table.idle_empty registry makers settings).deeds hdeeds
  rcases (untroubled_opened hidle errands).reaches hbuildings (accounted_opened t errands) h with
    hbehind | harises
  · have hshallow : Shallow (.error (.resolution error) : Except Thrown Instance) := by
      rcases hraised with ⟨id, hmem⟩ | hactivity
      · exact (hbehind.workers hworker).outcomes _ hmem
      · exact (hbehind.workers hworker).answering hactivity
    have hnot : error.reason.isTooDeep = false := shallow_error.mp hshallow
    rw [hdeep] at hnot
    cases hnot
  · exact harises

/-! ## Turns of workers -/

theorem history_of_step (hstep : w.step? k = some u) : w.history <+: u.history := by
  obtain ⟨worker, deed, next, -, -, rfl⟩ := exists_acts hstep
  cases deed <;> first | exact List.prefix_append _ _ | exact List.prefix_rfl

theorem history_of_reaches (hreaches : Reaches w u) : w.history <+: u.history := by
  induction hreaches with
  | refl => exact List.prefix_rfl
  | step k hstep hrest ih => exact (history_of_step hstep).trans ih

/-- That a reference is given up is among the turns from then on. -/
theorem AtLimit.refused (h : w.AtLimit k) (hstep : w.step? k = some u) :
    ∃ referrer id, .refused referrer id ∈ u.history := by
  obtain ⟨worker, frame, id, expected, place, rest, hworker, hactivity, hrecord, hnew, hlimit⟩ := h
  obtain ⟨own, deed, next, hown, hacts, rfl⟩ := exists_acts hstep
  obtain rfl := Option.some.inj (hworker.symm.trans hown)
  cases hacts with
  | asked hbuilding hasks =>
    obtain ⟨rfl, rfl⟩ := Activity.building.inj (hactivity.symm.trans hbuilding)
    cases hasks with
    | visit _ _ hroom => omega
  | followed hbuilding hfollowed =>
    obtain ⟨rfl, hvisit⟩ := Activity.building.inj (hactivity.symm.trans hbuilding)
    obtain ⟨rfl, rfl, rfl, rfl⟩ := Build.visit.inj hvisit
    cases hfollowed with
    | missing hmissing => simp [Population.contains, hmissing] at hrecord
    | back _ hmem => exact absurd hmem hnew
    | refused _ _ _ => exact ⟨frame.id, id, List.mem_append_right _ (List.mem_singleton_self _)⟩
  | closed hbuilding => simp [hactivity] at hbuilding
  | answered hanswered => exact absurd hactivity (hanswered.apart _ _)
  | _ => simp_all

end Workshop

namespace Sample

/-- A table with a tag of which the building is called off. -/
def halted : Table :=
  ((Table.empty registry interrupted .default).extend [⟨some 1, .simple ⟨"TAG", []⟩, none, none⟩]).2

/-- Two workers who need the tag: the second has found the job of the first and waits for it, the
first is called off, and the second wakes up. -/
def woken : Workshop := (Workshop.opened halted [[1], [1]]).run [0, 0, 1, 1, 1, 0, 1, 1, 1]

/-- A worker at the row of nodes of which only two may be under construction. -/
def climbed : Workshop := (Workshop.opened row [[3]]).run (List.replicate 9 0)

end Sample

namespace Workshop

theorem depth_for_reason_climbed :
    (∃ worker error, Sample.climbed.workers[0]? = some worker ∧
      (3, .error (.resolution error)) ∈ worker.outcomes ∧ error.reason.isTooDeep = true) ∧
    ∃ v v' l, Reaches (opened Sample.row [[3]]) v ∧ v.step? l = some v' ∧
      Reaches v' Sample.climbed ∧ (v.AtLimit l ∨ v.Misled l) := by
  have hdeeds : (Table.empty Sample.registry .initial Sample.narrow).Deeds Sample.row :=
    Table.deeds_session _ [.add (Sample.record 5 [4]), .add (Sample.record 4 [3]),
      .add (Sample.record 3 [2]), .add (Sample.record 2 [1]), .add (Sample.record 1 [])]
  have hbuildings : Sample.row.basis.Relays :=
    Basis.relays_of_byDefault ⟨fun _ => rfl, nofun⟩ (by decide +kernel)
  obtain ⟨worker, error, hworker, hmem, hdeep⟩ : ∃ worker error,
      Sample.climbed.workers[0]? = some worker ∧
        (3, .error (.resolution error)) ∈ worker.outcomes ∧ error.reason.isTooDeep = true :=
    ⟨_, _, rfl, List.mem_singleton_self _, rfl⟩
  exact ⟨⟨worker, error, hworker, hmem, hdeep⟩,
    depth_for_reason hdeeds hbuildings (reaches_run _ _) hworker (.inl ⟨3, hmem⟩) hdeep⟩

/-- A worker is told of depth though no reference was ever given up, at a table where no building
raises an error of depth. -/
theorem not_depth_for_reason :
    Sample.halted.basis.Relays ∧ ∃ w, Reaches (opened Sample.halted [[1], [1]]) w ∧
      (∃ worker error, w.workers[1]? = some worker ∧
        (1, .error (.resolution error)) ∈ worker.outcomes ∧ error.reason.isTooDeep = true) ∧
      ∀ v v' l, Reaches (opened Sample.halted [[1], [1]]) v → v.step? l = some v' →
        Reaches v' w → ¬ v.AtLimit l := by
  refine ⟨?_, Sample.woken, reaches_run _ _, ⟨_, _, rfl, List.mem_singleton_self _, rfl⟩, ?_⟩
  · rintro id r hr ⟨own, depth, history, registry, settings⟩ hid rfl rfl
    obtain ⟨rfl, rfl⟩ := Prod.mk.inj (List.mem_singleton.mp (Population.find?_eq_some.mp hr))
    have hstop : Shallow (.error (.interrupt "stop") : Except Thrown Instance) :=
      shallow_error.mpr rfl
    exact .done hstop
  · intro v v' l _ hstep hrest hlimit
    obtain ⟨referrer, id, hturn⟩ := hlimit.refused hstep
    have hmem := (history_of_reaches hrest).subset hturn
    have hhistory : Sample.woken.history = [.begun 1, .ended 1 (.calledOff "stop")] := rfl
    rw [hhistory] at hmem
    simp at hmem

end Workshop

end Part21
