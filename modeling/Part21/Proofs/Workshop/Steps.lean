import Part21.Resolution.Workshop

set_option autoImplicit false

/-!
# Steps of workers

In every step one worker acts.  `Workshop.Acts` lists the ways to act, each with what has to be
so for it, what the worker does at the table and what becomes of the worker;
`Workshop.exists_acts` says that there are no others.  Statements about all steps are proved
from this list, so that no other proof looks into the definition of a step.

Two kinds are listed by themselves, as they come about in several ways: a worker is answered
(`Workshop.Answered`), and a building learns at once what comes of a reference
(`Workshop.Followed`).
-/

namespace Part21

/-! ## Workers -/

namespace Worker

/-- The buildings that a worker has under way, the last one first. -/
def frames (w : Worker) : List Frame :=
  match w.activity with
  | .building frame _ => frame :: w.stack.map Prod.fst
  | _ => w.stack.map Prod.fst

variable {w : Worker} {activity : Activity}

@[simp] theorem activity_turnTo : (w.turnTo activity).activity = activity := rfl

@[simp] theorem stack_turnTo : (w.turnTo activity).stack = w.stack := rfl

@[simp] theorem errand_turnTo : (w.turnTo activity).errand = w.errand := rfl

@[simp] theorem errands_turnTo : (w.turnTo activity).errands = w.errands := rfl

@[simp] theorem outcomes_turnTo : (w.turnTo activity).outcomes = w.outcomes := rfl

theorem frames_of_building {frame : Frame} {rest : Build Instance}
    (h : w.activity = .building frame rest) : w.frames = frame :: w.stack.map Prod.fst := by
  simp [frames, h]

theorem frames_of_apart (h : ∀ frame rest, w.activity ≠ .building frame rest) :
    w.frames = w.stack.map Prod.fst := by
  unfold frames
  split
  · exact absurd ‹_› (h _ _)
  · rfl

/-- Who is known to wait for an instance asks for it. -/
theorem waitsFor?_eq_some {id : Int} (h : w.waitsFor? = some id) :
    w.target = id ∧ ∀ frame rest, w.activity ≠ .building frame rest := by
  unfold waitsFor? at h
  split at h
  · exact ⟨Option.some.inj h, by simp [*]⟩
  · exact ⟨Option.some.inj h, by simp [*]⟩
  · cases h

end Worker

namespace Workshop

/-! ## Ways to act -/

/-- The instance that a worker asks for is answered for. -/
inductive Answered (w : Workshop) (k : Nat) (worker : Worker) : Except Thrown Instance → Prop
  /-- there is no such instance -/
  | missing (hactivity : worker.activity = .asking)
      (hrecord : w.basis.population.find? worker.target = none) :
      Answered w k worker (.error (.reason (.unresolved worker.target)))
  /-- the job that was found has an answer -/
  | kept {number : Nat} {job : Job} {answer : Except Thrown Instance}
      (hactivity : worker.activity = .joining number) (hjob : w.jobs[number]? = some job)
      (hanswer : job.answer? = some answer) : Answered w k worker answer
  /-- the worker has the instance in hand, on another pass -/
  | own {number : Nat} {job : Job} (hactivity : worker.activity = .joining number)
      (hjob : w.jobs[number]? = some job) (hanswer : job.answer? = none)
      (howner : job.owner = k) :
      Answered w k worker (.error (.resolution (Basis.alreadyInProgress worker.target)))
  /-- one who waits for the worker has the instance in hand, and no reference led to it -/
  | held {number : Nat} {job : Job} (hactivity : worker.activity = .joining number)
      (hjob : w.jobs[number]? = some job) (hanswer : job.answer? = none)
      (hother : job.owner ≠ k) (hwaits : w.waitsOn job.owner k = true)
      (hpath : worker.pass.path = []) :
      Answered w k worker (.error (.resolution (heldByWaiting worker.target)))
  /-- the worker has waited -/
  | told {number : Nat} {job : Job} (hactivity : worker.activity = .leaving number)
      (hjob : w.jobs[number]? = some job) : Answered w k worker (w.told worker.target job)

/-- A building learns at once what comes of a reference. -/
inductive Followed (b : Basis) (frame : Frame) (id : Int) (expected : TypeDef) (place : Text) :
    Deed → Except Thrown Unit → Prop
  /-- there is no such instance -/
  | missing (hrecord : b.population.find? id = none) :
      Followed b frame id expected place .nothing (.error (.reason (.unresolved id)))
  /-- it leads back to an instance on the path -/
  | back {r : Record} (hrecord : b.population.find? id = some r) (hmem : id ∈ frame.pass.path) :
      Followed b frame id expected place (.deferred ⟨frame.id, id, none⟩)
        (b.checkTarget frame.pass.brought id r expected place)
  /-- the path is at its limit -/
  | refused {r : Record} (hrecord : b.population.find? id = some r) (hnew : id ∉ frame.pass.path)
      (hlimit : b.settings.maxDepth ≤ frame.pass.path.length) :
      Followed b frame id expected place (.refused frame.id id)
        (.error (.reason (.tooDeep b.settings.maxDepth)))

/-- A building asks for an instance, and what it goes on with then. -/
inductive Asks (b : Basis) (frame : Frame) : Build Instance → Continuation → Prop
  | visit {id : Int} {r : Record} {expected : TypeDef} {place : Text}
      {next : Except Thrown Unit → Build Instance} (hrecord : b.population.find? id = some r)
      (hnew : id ∉ frame.pass.path) (hroom : frame.pass.path.length < b.settings.maxDepth) :
      Asks b frame (.visit id expected place next) (.visit id r expected place next)
  | resolve {id : Int} {next : Except Thrown Instance → Build Instance} :
      Asks b frame (.resolve id next) (.resolve id next)

/-- The building that a worker begins for the instance that it asks for. -/
def begun (w : Workshop) (worker : Worker) (r : Record) : Frame :=
  ⟨worker.target, r, w.jobs.length, ⟨worker.pass.brought, worker.target :: worker.pass.path⟩⟩

/-- Where an instance is built that is begun now. -/
def siteOf (w : Workshop) (frame : Frame) : Site :=
  ⟨frame.id, frame.pass.path.length, w.history, w.basis.registry, w.basis.settings⟩

/-- The ways to act: what a worker does at the table, and what becomes of the worker. -/
inductive Acts (w : Workshop) (k : Nat) (worker : Worker) : Deed → Worker → Prop
  /-- it takes up an errand -/
  | started {id : Int} {rest : List Int} (hactivity : worker.activity = .ready)
      (herrands : worker.errands = id :: rest) :
      Acts w k worker .nothing { worker with errands := rest, errand := id, activity := .asking }
  /-- it finds a job for the instance -/
  | found {r : Record} {number : Nat} (hactivity : worker.activity = .asking)
      (hrecord : w.basis.population.find? worker.target = some r)
      (hjob : w.jobOf worker.target = some number) :
      Acts w k worker .nothing (worker.turnTo (.joining number))
  /-- it begins to build the instance -/
  | opened {r : Record} (hactivity : worker.activity = .asking)
      (hrecord : w.basis.population.find? worker.target = some r)
      (hjob : w.jobOf worker.target = none) :
      Acts w k worker (.opened worker.target)
        (worker.turnTo (.building (w.begun worker r)
          (w.basis.build worker.pass.brought (w.siteOf (w.begun worker r)) r)))
  /-- it is answered -/
  | answered {answer : Except Thrown Instance} (h : w.Answered k worker answer) :
      Acts w k worker .nothing (worker.turnTo (.answering (.outcome answer)))
  /-- it leaves a reference, as one who waits for it has the instance in hand -/
  | deferred {number : Nat} {job : Job} {referrer : Int} {path : List Int}
      (hactivity : worker.activity = .joining number) (hjob : w.jobs[number]? = some job)
      (hanswer : job.answer? = none) (hother : job.owner ≠ k)
      (hwaits : w.waitsOn job.owner k = true) (hpath : worker.pass.path = referrer :: path) :
      Acts w k worker (.deferred ⟨referrer, worker.target, some job.owner⟩)
        (worker.turnTo (.answering .deferred))
  /-- it begins to wait -/
  | joined {number : Nat} {job : Job} (hactivity : worker.activity = .joining number)
      (hjob : w.jobs[number]? = some job) (hanswer : job.answer? = none)
      (hother : job.owner ≠ k) (hfree : w.waitsOn job.owner k = false) :
      Acts w k worker .nothing (worker.turnTo (.waiting number))
  /-- it is woken -/
  | woken {number : Nat} {job : Job} (hactivity : worker.activity = .waiting number)
      (hjob : w.jobs[number]? = some job) (hclosed : job.isOpen = false) :
      Acts w k worker .nothing (worker.turnTo (.leaving number))
  /-- its building has come to an end -/
  | closed {frame : Frame} {outcome : Except Thrown Instance}
      (hactivity : worker.activity = .building frame (.done outcome)) :
      Acts w k worker (.closed frame (w.basis.ending frame.id frame.record outcome))
        (worker.turnTo
          (.answering (.outcome (w.basis.ending frame.id frame.record outcome).outcome)))
  /-- its building asks for an instance -/
  | asked {frame : Frame} {rest : Build Instance} {continuation : Continuation}
      (hactivity : worker.activity = .building frame rest)
      (h : Asks w.basis frame rest continuation) :
      Acts w k worker .nothing (worker.ask frame continuation)
  /-- its building learns at once what comes of a reference -/
  | followed {frame : Frame} {id : Int} {expected : TypeDef} {place : Text}
      {next : Except Thrown Unit → Build Instance} {deed : Deed} {answer : Except Thrown Unit}
      (hactivity : worker.activity = .building frame (.visit id expected place next))
      (h : Followed w.basis frame id expected place deed answer) :
      Acts w k worker deed (worker.turnTo (.building frame (next answer)))
  /-- it goes on with the building that asked -/
  | resumed {frame : Frame} {continuation : Continuation} {below : List (Frame × Continuation)}
      {reply : Reply} (hactivity : worker.activity = .answering reply)
      (hstack : worker.stack = (frame, continuation) :: below) :
      Acts w k worker .nothing
        { worker with
          stack := below
          activity := .building frame (w.resume frame reply continuation) }
  /-- its errand is done -/
  | finished {reply : Reply} (hactivity : worker.activity = .answering reply)
      (hstack : worker.stack = []) :
      Acts w k worker .nothing
        { worker with
          activity := .ready
          outcomes := worker.outcomes ++ [(worker.errand, reply.received)] }

variable {w u : Workshop} {k : Nat} {worker next : Worker} {deed : Deed}

theorem acts_of_lookUp (hactivity : worker.activity = .asking)
    (h : w.lookUp worker = (deed, next)) : w.Acts k worker deed next := by
  unfold lookUp at h
  dsimp only at h
  split at h
  · obtain ⟨rfl, rfl⟩ := Prod.mk.inj h
    exact .answered (.missing hactivity ‹_›)
  · split at h
    · obtain ⟨rfl, rfl⟩ := Prod.mk.inj h
      exact .found hactivity ‹_› ‹_›
    · obtain ⟨rfl, rfl⟩ := Prod.mk.inj h
      exact .opened hactivity ‹_› ‹_›

theorem acts_of_join {number : Nat} {job : Job} (hactivity : worker.activity = .joining number)
    (hjob : w.jobs[number]? = some job) (h : w.join k worker number job = (deed, next)) :
    w.Acts k worker deed next := by
  unfold join at h
  dsimp only at h
  split at h
  · obtain ⟨rfl, rfl⟩ := Prod.mk.inj h
    exact .answered (.kept hactivity hjob ‹_›)
  · split at h
    · obtain ⟨rfl, rfl⟩ := Prod.mk.inj h
      exact .answered (.own hactivity hjob ‹_› ‹_›)
    · split at h
      · split at h
        · obtain ⟨rfl, rfl⟩ := Prod.mk.inj h
          exact .answered (.held hactivity hjob ‹_› ‹_› ‹_› ‹_›)
        · obtain ⟨rfl, rfl⟩ := Prod.mk.inj h
          exact .deferred hactivity hjob ‹_› ‹_› ‹_› ‹_›
      · obtain ⟨rfl, rfl⟩ := Prod.mk.inj h
        exact .joined hactivity hjob ‹_› ‹_› (eq_false_of_ne_true ‹_›)

theorem acts_of_proceed {frame : Frame} {rest : Build Instance}
    (hactivity : worker.activity = .building frame rest)
    (h : w.proceed worker frame rest = (deed, next)) : w.Acts k worker deed next := by
  unfold proceed at h
  dsimp only at h
  split at h
  · obtain ⟨rfl, rfl⟩ := Prod.mk.inj h
    exact .closed hactivity
  · obtain ⟨rfl, rfl⟩ := Prod.mk.inj h
    exact .asked hactivity .resolve
  · split at h
    · obtain ⟨rfl, rfl⟩ := Prod.mk.inj h
      exact .followed hactivity (.missing ‹_›)
    · split at h
      · obtain ⟨rfl, rfl⟩ := Prod.mk.inj h
        exact .followed hactivity (.back ‹_› (List.contains_iff_mem.mp ‹_›))
      · rename_i hnew
        have hnew' := mt List.contains_iff_mem.mpr hnew
        split at h
        · obtain ⟨rfl, rfl⟩ := Prod.mk.inj h
          exact .asked hactivity (.visit ‹_› hnew' ‹_›)
        · obtain ⟨rfl, rfl⟩ := Prod.mk.inj h
          exact .followed hactivity (.refused ‹_› hnew' (Nat.le_of_not_lt ‹_›))

theorem acts_of_act? (h : w.act? k worker = some (deed, next)) : w.Acts k worker deed next := by
  unfold act? at h
  split at h
  · rename_i hactivity
    split at h
    · cases h
    · obtain ⟨rfl, rfl⟩ := Prod.mk.inj (Option.some.inj h)
      exact .started hactivity ‹_›
  · exact acts_of_lookUp ‹_› (Option.some.inj h)
  · obtain ⟨job, hjob, hjoin⟩ := Option.map_eq_some_iff.mp h
    exact acts_of_join ‹_› hjob hjoin
  · split at h
    · cases h
    · split at h
      · cases h
      · obtain ⟨rfl, rfl⟩ := Prod.mk.inj (Option.some.inj h)
        exact .woken ‹_› ‹_› (eq_false_of_ne_true ‹_›)
  · obtain ⟨job, hjob, htold⟩ := Option.map_eq_some_iff.mp h
    obtain ⟨rfl, rfl⟩ := Prod.mk.inj htold
    exact .answered (.told ‹_› hjob)
  · exact acts_of_proceed ‹_› (Option.some.inj h)
  · rename_i reply hactivity
    obtain ⟨rfl, rfl⟩ := Prod.mk.inj (Option.some.inj h)
    unfold answer
    split
    · exact .resumed hactivity ‹_›
    · exact .finished hactivity ‹_›

/-- In every step, a worker acts in one of the ways listed. -/
theorem exists_acts (h : w.step? k = some u) :
    ∃ worker deed next, w.workers[k]? = some worker ∧ w.Acts k worker deed next ∧
      u = (w.perform k deed).setWorker k next := by
  unfold step? at h
  obtain ⟨worker, hworker, hact⟩ := Option.bind_eq_some_iff.mp h
  obtain ⟨⟨deed, next⟩, hdeed, rfl⟩ := Option.map_eq_some_iff.mp hact
  exact ⟨worker, deed, next, hworker, acts_of_act? hdeed, rfl⟩

/-! ## What changes in a step -/

@[simp] theorem basis_setWorker : (w.setWorker k worker).basis = w.basis := rfl

@[simp] theorem jobs_setWorker : (w.setWorker k worker).jobs = w.jobs := rfl

@[simp] theorem jobOf_setWorker : (w.setWorker k worker).jobOf = w.jobOf := rfl

@[simp] theorem deferrals_setWorker : (w.setWorker k worker).deferrals = w.deferrals := rfl

@[simp] theorem basis_perform : (w.perform k deed).basis = w.basis := by
  cases deed <;> rfl

@[simp] theorem workers_perform : (w.perform k deed).workers = w.workers := by
  cases deed <;> rfl

/-- Only the worker who acts changes. -/
theorem getElem?_setWorker (hworker : w.workers[k]? = some worker) (l : Nat) :
    ((w.perform k deed).setWorker k next).workers[l]? =
      if l = k then some next else w.workers[l]? := by
  have hlt : k < w.workers.length := (List.getElem?_eq_some_iff.mp hworker).1
  simp only [setWorker, workers_perform, List.getElem?_set, eq_comm (a := k)]
  split <;> simp_all

/-- What comes of an act for the jobs and for the buildings of the worker: a building is begun
with a new job, or one is closed, or nothing changes. -/
inductive Affects (w : Workshop) (before after : List Frame) : Deed → Prop
  | opened {frame : Frame} (hnew : w.jobOf frame.id = none)
      (hrecord : w.basis.population.find? frame.id = some frame.record)
      (hjob : frame.job = w.jobs.length) (hafter : after = frame :: before) :
      Affects w before after (.opened frame.id)
  | closed {frame : Frame} {ending : Ending} (hbefore : before = frame :: after) :
      Affects w before after (.closed frame ending)
  | quiet {deed : Deed} (hjobs : ∀ k, (w.perform k deed).jobs = w.jobs)
      (hjobOf : ∀ k, (w.perform k deed).jobOf = w.jobOf) (hframes : after = before) :
      Affects w before after deed

theorem affects_nothing {before after : List Frame} (h : after = before) :
    w.Affects before after .nothing := .quiet (fun _ => rfl) (fun _ => rfl) h

theorem Answered.apart {answer : Except Thrown Instance} (h : w.Answered k worker answer) :
    ∀ frame rest, worker.activity ≠ .building frame rest := by
  cases h <;> simp [*]

theorem Acts.affects (h : w.Acts k worker deed next) :
    w.Affects worker.frames next.frames deed := by
  cases h with
  | @opened r hactivity hrecord hjob =>
    have hframe : w.Affects worker.frames (w.begun worker r :: worker.frames)
        (.opened (w.begun worker r).id) := .opened hjob hrecord rfl rfl
    rwa [Worker.frames_of_apart (by simp [hactivity])] at hframe ⊢
  | closed hactivity =>
    apply Affects.closed
    simp [Worker.frames, hactivity]
  | answered h =>
    apply affects_nothing
    rw [Worker.frames_of_apart h.apart]
    rfl
  | deferred hactivity hjob hanswer hother hwaits hpath =>
    exact .quiet (fun _ => rfl) (fun _ => rfl) (by simp [Worker.frames, hactivity])
  | followed hactivity h =>
    have hframes (rest : Build Instance) :
        (worker.turnTo (.building _ rest)).frames = worker.frames :=
      (Worker.frames_of_building hactivity).symm
    cases h <;> exact .quiet (fun _ => rfl) (fun _ => rfl) (hframes _)
  | asked hactivity h =>
    apply affects_nothing
    simp [Worker.frames, Worker.ask, hactivity]
  | resumed hactivity hstack =>
    apply affects_nothing
    simp [Worker.frames, hactivity, hstack]
  | _ =>
    apply affects_nothing
    simp_all [Worker.frames]

/-! ## Runs -/

/-- What every step preserves, holds wherever workers come to. -/
theorem Reaches.invariant {P : Workshop → Prop}
    (hstep : ∀ {w u : Workshop} {k : Nat}, P w → w.step? k = some u → P u) (h : Reaches w u)
    (hw : P w) : P u := by
  induction h with
  | refl => exact hw
  | step k next rest ih => exact ih (hstep hw next)

theorem Reaches.trans {v : Workshop} (h : Reaches w u) (hbehind : Reaches u v) : Reaches w v := by
  induction h with
  | refl => exact hbehind
  | step k next rest ih => exact .step k next (ih hbehind)

theorem Reaches.single (h : w.step? k = some u) : Reaches w u := .step k h (.refl u)

/-- A schedule leads to what workers can come to. -/
theorem reaches_run (w : Workshop) (schedule : List Nat) : Reaches w (w.run schedule) := by
  induction schedule generalizing w with
  | nil => exact .refl w
  | cons k rest ih =>
    cases hstep : w.step? k with
    | none => simpa [run, hstep] using ih w
    | some u => exact .step k hstep (by simpa [run, hstep] using ih u)

end Workshop

end Part21
