import Part21.Resolution.Table

set_option autoImplicit false

/-!
# Several workers at one table

Workers resolve instances at the same time and share what they find out.  The
first that needs an instance opens a job for it; others that need it meanwhile
wait until the job is closed.  A worker that would wait for one that waits, in
turn, for it leaves the reference to be followed later instead, so no circle of
waiting workers comes about.

A worker goes on in steps that nothing interrupts: it looks an instance up and
perhaps opens a job, it decides whether to wait for a job, it wakes up, it stops
being known as one that waits, it closes its job, or it does something of its
own.  Which worker takes the next step is free; a schedule is one way to choose.

A job that is given up is forgotten, so that the instance may be begun again.
One who had found it before still sees it as it was when it was open.

Sections 5 and B.8 of `SPEC_FULL.md`: `resolve_all` with several workers, where
`EntityTable._resolve` claims an id under the lock, `_await_slot` waits or defers, and
`_memo_result` tells one who waited what came of it.
-/

namespace Part21

/-! ## Jobs -/

/-- What a job that ended so has to say.  One that was given up has nothing to say. -/
def Ending.answer? : Ending → Option (Except Thrown Instance)
  | .completed value => some (.ok value)
  | .failed error => some (.error (.resolution error))
  | .tooDeep _ => none
  | .calledOff _ => none

/-- The building of an instance by one worker.  Those who wait for it are woken when it
has ended. -/
structure Job where
  id : Int
  owner : Nat
  ending : Option Ending

namespace Job

/-- The building has not ended. -/
def isOpen (j : Job) : Bool := j.ending.isNone

/-- What the job has to say: nothing before its end, and nothing if it was given up. -/
def answer? (j : Job) : Option (Except Thrown Instance) := j.ending.bind Ending.answer?

/-- The building ended without a result that is kept. -/
def isGivenUp (j : Job) : Bool := !j.isOpen && j.answer?.isNone

/-- The standing of the instance of a job that is not forgotten. -/
def standing (j : Job) : Standing :=
  match j.ending with
  | none => .inProgress
  | some ending => ending.standing

end Job

/-! ## Workers -/

/-- What a building goes on with once the instance it asked for is there. -/
inductive Continuation where
  /-- it follows a reference to a record, which has to be of the expected type -/
  | visit (target : Int) (record : Record) (expected : TypeDef) (place : Text)
    (next : Except Thrown Unit → Build Instance)
  | resolve (target : Int) (next : Except Thrown Instance → Build Instance)

/-- The instance that was asked for. -/
def Continuation.target : Continuation → Int
  | .visit target _ _ _ _ => target
  | .resolve target _ => target

/-- A building under way: the instance and its record, the number of the job, and
the pass on which it is built, with the instance itself on the path. -/
structure Frame where
  id : Int
  record : Record
  job : Nat
  pass : Pass

/-- The answer to a worker who asked for an instance. -/
inductive Reply where
  | outcome (answer : Except Thrown Instance)
  /-- the reference is to be followed later -/
  | deferred

/-- What is taken for the instance that was asked for. -/
def Reply.received : Reply → Except Thrown Instance
  | .outcome answer => answer
  | .deferred => .ok (.value .nothing)

/-- What a worker is about to do. -/
inductive Activity where
  /-- take up the next errand -/
  | ready
  /-- look up the instance that is asked for -/
  | asking
  /-- decide whether to wait for a job that was found -/
  | joining (job : Nat)
  /-- wait for a job -/
  | waiting (job : Nat)
  /-- stop being known as one who waits, as the job has ended -/
  | leaving (job : Nat)
  /-- go on with a building -/
  | building (frame : Frame) (rest : Build Instance)
  /-- hand an answer to the building that asked, or to the errand -/
  | answering (reply : Reply)

/-- A worker: the instances still to be resolved, the one it is resolving now, the
buildings that wait for an answer, the last one first, what it is about to do, and
the outcomes so far. -/
structure Worker where
  errands : List Int
  errand : Int
  stack : List (Frame × Continuation)
  activity : Activity
  outcomes : List (Int × Except Thrown Instance)

namespace Worker

/-- A worker who has not begun. -/
def fresh (errands : List Int) : Worker := ⟨errands, 0, [], .ready, []⟩

/-- The worker has nothing left to do. -/
def isDone (w : Worker) : Bool :=
  match w.activity with
  | .ready => w.errands.isEmpty
  | _ => false

/-- The instance that the worker asks for: for the building that waits for an answer, or for
the errand. -/
def target (w : Worker) : Int :=
  match w.stack with
  | [] => w.errand
  | (_, continuation) :: _ => continuation.target

/-- The pass on which the worker asks.  Only a reference is followed on the pass of a building;
anything else is asked for on a pass of its own. -/
def pass (w : Worker) : Pass :=
  match w.stack with
  | (frame, .visit _ _ _ _ _) :: _ => frame.pass
  | _ => ⟨none, []⟩

/-- The instance that the worker is known to wait for. -/
def waitsFor? (w : Worker) : Option Int :=
  match w.activity with
  | .waiting _ | .leaving _ => some w.target
  | _ => none

/-- The worker does something next. -/
def turnTo (w : Worker) (activity : Activity) : Worker := { w with activity := activity }

/-- The worker asks for an instance that a building needs. -/
def ask (w : Worker) (frame : Frame) (continuation : Continuation) : Worker :=
  { w with stack := (frame, continuation) :: w.stack, activity := .asking }

end Worker

/-! ## Tables with workers -/

/-- A reference that was left to be followed later, with the worker who has the instance in
hand if it is not on the path itself. -/
structure Deferral where
  referrer : Int
  id : Int
  owner : Option Nat

/-- Workers at one table: the job of each instance that is known, by its number
among all jobs, what has happened so far, and the references left to be followed
later. -/
structure Workshop where
  basis : Basis
  jobOf : Int → Option Nat
  jobs : List Job
  workers : List Worker
  history : List Turn
  deferrals : List Deferral

/-- The job of an instance that stands so, if it has been done. -/
def Standing.job? (id : Int) : Standing → Option Job
  | .resolved value => some ⟨id, 0, some (.completed value)⟩
  | .failed error => some ⟨id, 0, some (.failed error)⟩
  | .unvisited => none
  | .inProgress => none

/-- The jobs that have been done at a table. -/
def Table.jobs (t : Table) : List Job :=
  t.basis.population.ids.filterMap fun id => (t.standing id).job? id

namespace Workshop

/-- Workers with the given errands, at a table at which nothing is in progress. -/
def opened (t : Table) (errands : List (List Int)) : Workshop :=
  ⟨t.basis, fun id => t.jobs.findIdx? fun job => job.id = id, t.jobs, errands.map Worker.fresh,
    t.progress.history, []⟩

/-- The job of an instance, if it is known. -/
def job? (w : Workshop) (id : Int) : Option Job := (w.jobOf id).bind fun n => w.jobs[n]?

/-- The standing of an instance. -/
def standing (w : Workshop) (id : Int) : Standing :=
  match w.job? id with
  | none => .unvisited
  | some job => job.standing

/-- All workers have nothing left to do. -/
def isDone (w : Workshop) : Bool := w.workers.all Worker.isDone

/-! ## Waiting -/

/-- The worker is the one sought, or is known to wait for an instance that a worker
of whom this is true has in hand; at most so many workers are asked. -/
def waitsOnWithin (w : Workshop) (sought : Nat) : Nat → Nat → Bool
  | 0, _ => false
  | asked + 1, worker =>
    if worker = sought then true
    else
      match (w.workers[worker]?).bind Worker.waitsFor? with
      | none => false
      | some id =>
        match w.job? id with
        | none => false
        | some job => job.answer?.isNone && waitsOnWithin w sought asked job.owner

/-- The worker is the one sought, or waits for that one, directly or through
others. -/
def waitsOn (w : Workshop) (worker sought : Nat) : Bool :=
  w.waitsOnWithin sought (w.workers.length + 1) worker

/-- The instance is held by a worker who waits for the one who asks. -/
def heldByWaiting (id : Int) : ResolutionError :=
  ⟨.other ("#" ++ Text.ofInt id ++ " is held by a thread waiting on this one"),
    ⟨some id, [id], .unknown⟩, [], none⟩

/-- What those are told who waited for a job.  If it was given up, they are told that
references go too deep. -/
def told (w : Workshop) (id : Int) (job : Job) : Except Thrown Instance :=
  job.answer?.getD
    (.error (.resolution
      ⟨.tooDeep w.basis.settings.maxDepth, ⟨some id, [id], .unknown⟩, [], none⟩))

/-! ## Steps -/

/-- What a worker does at the table in a step. -/
inductive Deed where
  | nothing
  /-- open a job for an instance -/
  | opened (id : Int)
  /-- close the job of a building -/
  | closed (frame : Frame) (ending : Ending)
  /-- give a reference up, as the path is at its limit -/
  | refused (referrer id : Int)
  /-- leave a reference to be followed later -/
  | deferred (deferral : Deferral)

/-- The table behind what a worker does. -/
def perform (w : Workshop) (k : Nat) : Deed → Workshop
  | .nothing => w
  | .opened id =>
    { w with
      jobOf := fun other => if other = id then some w.jobs.length else w.jobOf other
      jobs := w.jobs ++ [⟨id, k, none⟩]
      history := w.history ++ [.begun id] }
  | .closed frame ending =>
    { w with
      jobOf := fun other =>
        if other = frame.id ∧ ending.answer?.isNone then none else w.jobOf other
      jobs := w.jobs.modify frame.job fun job => { job with ending := some ending }
      history := w.history ++ [.ended frame.id ending] }
  | .refused referrer id => { w with history := w.history ++ [.refused referrer id] }
  | .deferred deferral => { w with deferrals := w.deferrals ++ [deferral] }

/-- Look up the instance that a worker asks for, and open a job for it if there is none. -/
def lookUp (w : Workshop) (worker : Worker) : Deed × Worker :=
  let id := worker.target
  match w.basis.population.find? id with
  | none => (.nothing, worker.turnTo (.answering (.outcome (.error (.reason (.unresolved id))))))
  | some r =>
    match w.jobOf id with
    | some number => (.nothing, worker.turnTo (.joining number))
    | none =>
      let inner : Pass := ⟨worker.pass.brought, id :: worker.pass.path⟩
      let site : Site := ⟨id, inner.path.length, w.history, w.basis.registry, w.basis.settings⟩
      (.opened id,
        worker.turnTo
          (.building ⟨id, r, w.jobs.length, inner⟩ (w.basis.build inner.brought site r)))

/-- Decide whether to wait for a job.  If its worker waits for the one who decides, the reference
that leads to it is left to be followed later. -/
def join (w : Workshop) (k : Nat) (worker : Worker) (number : Nat) (job : Job) : Deed × Worker :=
  match job.answer? with
  | some outcome => (.nothing, worker.turnTo (.answering (.outcome outcome)))
  | none =>
    let id := worker.target
    if job.owner = k then
      (.nothing,
        worker.turnTo (.answering (.outcome (.error (.resolution (Basis.alreadyInProgress id))))))
    else if w.waitsOn job.owner k then
      match worker.pass.path with
      | [] =>
        (.nothing, worker.turnTo (.answering (.outcome (.error (.resolution (heldByWaiting id))))))
      | referrer :: _ =>
        (.deferred ⟨referrer, id, some job.owner⟩, worker.turnTo (.answering .deferred))
    else (.nothing, worker.turnTo (.waiting number))

/-- Go one step on with a building. -/
def proceed (w : Workshop) (worker : Worker) (frame : Frame) : Build Instance → Deed × Worker
  | .done outcome =>
    let ending := w.basis.ending frame.id frame.record outcome
    (.closed frame ending, worker.turnTo (.answering (.outcome ending.outcome)))
  | .resolve id next => (.nothing, worker.ask frame (.resolve id next))
  | .visit id expected place next =>
    match w.basis.population.find? id with
    | none =>
      (.nothing, worker.turnTo (.building frame (next (.error (.reason (.unresolved id))))))
    | some r =>
      if frame.pass.path.contains id then
        (.deferred ⟨frame.id, id, none⟩,
          worker.turnTo
            (.building frame (next (w.basis.checkTarget frame.pass.brought id r expected place))))
      else if frame.pass.path.length < w.basis.settings.maxDepth then
        (.nothing, worker.ask frame (.visit id r expected place next))
      else
        (.refused frame.id id,
          worker.turnTo
            (.building frame (next (.error (.reason (.tooDeep w.basis.settings.maxDepth))))))

/-- What a building goes on with after an answer. -/
def resume (w : Workshop) (frame : Frame) (reply : Reply) : Continuation → Build Instance
  | .resolve _ next => next reply.received
  | .visit id r expected place next =>
    match reply.received with
    | .error thrown => next (.error thrown)
    | .ok _ => next (w.basis.checkTarget frame.pass.brought id r expected place)

/-- Hand an answer to the building that asked last, or to the errand. -/
def answer (w : Workshop) (worker : Worker) (reply : Reply) : Worker :=
  match worker.stack with
  | (frame, continuation) :: below =>
    { worker with
      stack := below
      activity := .building frame (w.resume frame reply continuation) }
  | [] =>
    { worker with
      activity := .ready
      outcomes := worker.outcomes ++ [(worker.errand, reply.received)] }

/-- What a worker does in its next step, and the worker behind it.  A worker who is done or who
waits for an open job does nothing. -/
def act? (w : Workshop) (k : Nat) (worker : Worker) : Option (Deed × Worker) :=
  match worker.activity with
  | .ready =>
    match worker.errands with
    | [] => none
    | id :: rest => some (.nothing, { worker with errands := rest, errand := id, activity := .asking })
  | .asking => some (w.lookUp worker)
  | .joining number => (w.jobs[number]?).map fun job => w.join k worker number job
  | .waiting number =>
    match w.jobs[number]? with
    | none => none
    | some job => if job.isOpen then none else some (.nothing, worker.turnTo (.leaving number))
  | .leaving number =>
    (w.jobs[number]?).map fun job =>
      (.nothing, worker.turnTo (.answering (.outcome (w.told worker.target job))))
  | .building frame rest => some (w.proceed worker frame rest)
  | .answering reply => some (.nothing, w.answer worker reply)

/-- Put a worker in the place of what it was. -/
def setWorker (w : Workshop) (k : Nat) (worker : Worker) : Workshop :=
  { w with workers := w.workers.set k worker }

/-- The next step of a worker, if the worker has one. -/
def step? (w : Workshop) (k : Nat) : Option Workshop :=
  (w.workers[k]?).bind fun worker =>
    (w.act? k worker).map fun act => (w.perform k act.1).setWorker k act.2

/-- Let workers take steps as a schedule says; one who has none is passed over. -/
def run (w : Workshop) : List Nat → Workshop
  | [] => w
  | k :: schedule => run ((w.step? k).getD w) schedule

/-- What workers can come to from where they are, whoever takes the next step. -/
inductive Reaches : Workshop → Workshop → Prop
  | refl (w : Workshop) : Reaches w w
  | step {w u v : Workshop} (k : Nat) (next : w.step? k = some u) (rest : Reaches u v) :
      Reaches w v

end Workshop

end Part21
