import Part21.Proofs.Resolution.Soundness
import Part21.Proofs.Workshop.Waiting

set_option autoImplicit false

/-!
# What is known stays known

An instance that was resolved or has failed keeps its job for good, whatever workers do.  Who
asks for it from then on looks it up and takes the answer of the job, in two steps of its own,
and an errand for it is done in four; what others do in between makes no difference
(`Workshop.run_eq_of_steps`).
-/

namespace Part21

/-- What is answered for an instance that stands so. -/
def Standing.answer? : Standing → Option (Except Thrown Instance)
  | .resolved value => some (.ok value)
  | .failed error => some (.error (.resolution error))
  | .unvisited => none
  | .inProgress => none

namespace Workshop

variable {w u : Workshop} {k l : Nat} {worker next : Worker} {id : Int} {job : Job}
  {answer : Except Thrown Instance}

/-- The standing of an instance tells what its job says. -/
theorem answer?_standing (w : Workshop) (id : Int) :
    (w.standing id).answer? = (w.job? id).bind Job.answer? := by
  unfold standing
  cases w.job? id with
  | none => rfl
  | some job =>
    obtain ⟨id, owner, ending⟩ := job
    cases ending with
    | none => rfl
    | some ending => cases ending <;> rfl

/-! ## Runs -/

/-- A step of one worker leaves the others alone. -/
theorem worker_of_step (hstep : w.step? l = some u) (hother : k ≠ l) :
    u.workers[k]? = w.workers[k]? := by
  obtain ⟨worker, deed, next, hworker, -, rfl⟩ := exists_acts hstep
  rw [getElem?_setWorker hworker, if_neg hother]

/-- If the next steps of a worker are known, whatever others do in between, then so is the worker
behind any schedule with that many steps of it. -/
theorem run_eq_of_steps {f : Nat → Worker} {steps : Nat}
    (hsteps : ∀ i < steps, ∀ {v : Workshop}, Reaches w v → v.workers[k]? = some (f i) →
      ∃ v', v.step? k = some v' ∧ v'.workers[k]? = some (f (i + 1)))
    (hworker : w.workers[k]? = some (f 0)) {schedule : List Nat}
    (hcount : schedule.count k = steps) : (w.run schedule).workers[k]? = some (f steps) := by
  have hrun : ∀ (schedule : List Nat) (i : Nat) {v : Workshop}, Reaches w v →
      v.workers[k]? = some (f i) → i + schedule.count k = steps →
      (v.run schedule).workers[k]? = some (f steps) := by
    intro schedule
    induction schedule with
    | nil =>
      intro i v _ hv hi
      obtain rfl : i = steps := by simpa using hi
      exact hv
    | cons l rest ih =>
      intro i v hreaches hv hi
      by_cases hsame : l = k
      · subst l
        rw [List.count_cons_self] at hi
        obtain ⟨v', hstep, hnext⟩ := hsteps i (by omega) hreaches hv
        rw [run, hstep]
        exact ih (i + 1) (hreaches.trans (.single hstep)) hnext (by omega)
      · rw [List.count_cons_of_ne hsame] at hi
        rw [run]
        cases hstep : v.step? l with
        | none => exact ih i hreaches hv hi
        | some v' =>
          refine ih i (hreaches.trans (.single hstep)) ?_ hi
          rwa [Option.getD_some, worker_of_step hstep (Ne.symm hsame)]
  exact hrun schedule 0 (.refl w) hworker (by omega)

theorem step?_of_act? {deed : Deed} (hworker : w.workers[k]? = some worker)
    (hact : w.act? k worker = some (deed, next)) :
    ∃ u, w.step? k = some u ∧ u.workers[k]? = some next := by
  refine ⟨(w.perform k deed).setWorker k next, ?_, ?_⟩
  · rw [step?, hworker, Option.bind_some, hact, Option.map_some]
  · rw [getElem?_setWorker hworker, if_pos rfl]

/-! ## Asking for what is known -/

/-- Who asks for an instance that has an answer finds its job. -/
theorem act?_of_asking (haccounted : w.Accounted) (hactivity : worker.activity = .asking)
    (htarget : worker.target = id) {n : Nat} (hknown : w.jobOf id = some n) :
    w.act? k worker = some (.nothing, worker.turnTo (.joining n)) := by
  obtain ⟨job, hjob, rfl, -⟩ := haccounted.known hknown
  obtain ⟨r, hr⟩ := Option.isSome_iff_exists.mp (haccounted.recorded hjob)
  simp [act?, hactivity, lookUp, htarget, hr, hknown]

/-- Who has found a job takes its answer. -/
theorem act?_of_joining {n : Nat} (hactivity : worker.activity = .joining n)
    (hjob : w.jobs[n]? = some job) (hanswer : job.answer? = some answer) :
    w.act? k worker = some (.nothing, worker.turnTo (.answering (.outcome answer))) := by
  simp [act?, hactivity, hjob, join, hanswer]

/-- Who asks for an instance that has an answer, has this answer two steps later. -/
theorem run_of_asking (haccounted : w.Accounted)
    (hanswer : (w.standing id).answer? = some answer) (hworker : w.workers[k]? = some worker)
    (hactivity : worker.activity = .asking) (htarget : worker.target = id) {schedule : List Nat}
    (hcount : schedule.count k = 2) :
    (w.run schedule).workers[k]? = some (worker.turnTo (.answering (.outcome answer))) := by
  rw [answer?_standing] at hanswer
  obtain ⟨job, hjob, hsays⟩ := Option.bind_eq_some_iff.mp hanswer
  obtain ⟨n, hknown, hn, -, -⟩ := haccounted.exists_of_job? hjob
  let answered : Worker := worker.turnTo (.answering (.outcome answer))
  let states : List Worker := [worker, worker.turnTo (.joining n)]
  refine run_eq_of_steps (f := fun i => states.getD i answered) ?_ hworker hcount
  intro i hi v hreaches hv
  have hcontinues := haccounted.continues_of_reaches hreaches
  rcases i with _ | _ | i
  · exact step?_of_act? hv
      (act?_of_asking (haccounted.reaches hreaches) hactivity htarget
        (hcontinues.kept hknown hn hsays))
  · exact step?_of_act? hv
      (act?_of_joining Worker.activity_turnTo
        (hcontinues.closed hn (Job.isOpen_of_answer? hsays)) hsays)
  · omega

/-- An errand for an instance that has an answer is done with this answer four steps later. -/
theorem run_of_errand (haccounted : w.Accounted)
    (hanswer : (w.standing id).answer? = some answer) (hworker : w.workers[k]? = some worker)
    (hactivity : worker.activity = .ready) {rest : List Int} (herrands : worker.errands = id :: rest)
    {schedule : List Nat} (hcount : schedule.count k = 4) :
    (w.run schedule).workers[k]? =
      some { worker with
        errands := rest, errand := id, outcomes := worker.outcomes ++ [(id, answer)] } := by
  have hstack := (haccounted.attends hworker).stack_eq_nil hactivity
  rw [answer?_standing] at hanswer
  obtain ⟨job, hjob, hsays⟩ := Option.bind_eq_some_iff.mp hanswer
  obtain ⟨n, hknown, hn, -, -⟩ := haccounted.exists_of_job? hjob
  let started : Worker := { worker with errands := rest, errand := id, activity := .asking }
  let finished : Worker := { worker with
    errands := rest, errand := id, outcomes := worker.outcomes ++ [(id, answer)] }
  let states : List Worker := [worker, started, started.turnTo (.joining n),
    started.turnTo (.answering (.outcome answer))]
  refine run_eq_of_steps (f := fun i => states.getD i finished) ?_ hworker hcount
  intro i hi v hreaches hv
  have hcontinues := haccounted.continues_of_reaches hreaches
  rcases i with _ | _ | _ | _ | i
  · have hact : v.act? k worker = some (.nothing, started) := by
      simp [act?, hactivity, herrands, started]
    exact step?_of_act? hv hact
  · refine step?_of_act? hv (act?_of_asking (haccounted.reaches hreaches) rfl ?_
      (hcontinues.kept hknown hn hsays))
    simp [states, Worker.target, started, hstack]
  · exact step?_of_act? hv
      (act?_of_joining Worker.activity_turnTo
        (hcontinues.closed hn (Job.isOpen_of_answer? hsays)) hsays)
  · have hact : v.act? k (started.turnTo (.answering (.outcome answer))) =
        some (.nothing, finished) := by
      simp [act?, Workshop.answer, started, finished, Worker.turnTo, Reply.received, hstack,
        hactivity]
    exact step?_of_act? hv hact
  · omega

/-! ## Workers at a table -/

end Workshop

namespace Sample

/-- Workers at the nodes that refer to each other and the one that has failed: each builds one of
the two, and the first waits for the second. -/
def busy : Workshop :=
  (Workshop.opened (table circle) [[1], [2], [3]]).run [0, 0, 1, 1, 0, 0, 0]

end Sample

namespace Workshop

end Workshop

end Part21
