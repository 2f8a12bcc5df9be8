import Mathlib.Data.List.Nodup
import Part21.Proofs.Resolution.Lifecycle
import Part21.Proofs.Resolution.References
import Part21.Proofs.Workshop.Steps

set_option autoImplicit false

/-!
# Jobs of workers

A job is open as long as its owner has the building under way, and it is known under its
instance as long as it was not given up.  So there is one open job for each building, and no two
of them are for the same instance (`Workshop.Accounted`).

Whatever workers do, a job that was closed stays as it is, and one that has an answer stays known
(`Workshop.Continues`).
-/

namespace Part21

/-! ## Single jobs -/

namespace Job

variable {j : Job}

theorem answer?_of_isOpen (h : j.isOpen = true) : j.answer? = none := by
  rw [answer?, Option.isNone_iff_eq_none.mp h]
  rfl

theorem isOpen_of_answer? {answer : Except Thrown Instance} (h : j.answer? = some answer) :
    j.isOpen = false := by
  by_contra hopen
  rw [answer?_of_isOpen (eq_true_of_ne_false hopen)] at h
  cases h

theorem isGivenUp_of_isOpen (h : j.isOpen = true) : j.isGivenUp = false := by
  simp [isGivenUp, h]

theorem isGivenUp_of_answer? {answer : Except Thrown Instance} (h : j.answer? = some answer) :
    j.isGivenUp = false := by
  simp [isGivenUp, h]

/-- A job that says nothing is open, or it was given up. -/
theorem isOpen_or_isGivenUp (h : j.answer? = none) : j.isOpen = true ∨ j.isGivenUp = true := by
  simp only [isGivenUp, h]
  cases j.isOpen <;> simp

end Job

/-- What has been done has a result. -/
theorem Standing.job?_eq_some {standing : Standing} {id : Int} {job : Job}
    (h : standing.job? id = some job) : job.id = id ∧
      ((∃ value, standing = .resolved value ∧ job.ending = some (.completed value)) ∨
        ∃ error, standing = .failed error ∧ job.ending = some (.failed error)) := by
  cases standing with
  | resolved value =>
    obtain rfl := Option.some.inj h
    exact ⟨rfl, .inl ⟨value, rfl, rfl⟩⟩
  | failed error =>
    obtain rfl := Option.some.inj h
    exact ⟨rfl, .inr ⟨error, rfl, rfl⟩⟩
  | unvisited | inProgress => cases h

namespace Table

variable {t : Table} {job : Job}

/-- The jobs at a table are those of instances that it has resolved or that have failed. -/
theorem of_mem_jobs (h : job ∈ t.jobs) :
    job.id ∈ t.basis.population.ids ∧
      ((∃ value, t.standing job.id = .resolved value ∧ job.ending = some (.completed value)) ∨
        ∃ error, t.standing job.id = .failed error ∧ job.ending = some (.failed error)) := by
  obtain ⟨id, hid, hjob⟩ := List.mem_filterMap.mp h
  obtain ⟨rfl, hending⟩ := Standing.job?_eq_some hjob
  exact ⟨hid, hending⟩

/-- Every job at a table has an answer. -/
theorem answer?_of_mem_jobs (h : job ∈ t.jobs) : ∃ answer, job.answer? = some answer := by
  obtain ⟨-, ⟨value, -, hending⟩ | ⟨error, -, hending⟩⟩ := of_mem_jobs h
  · exact ⟨.ok value, by simp [Job.answer?, hending, Ending.answer?]⟩
  · exact ⟨.error (.resolution error), by simp [Job.answer?, hending, Ending.answer?]⟩

/-- No two jobs at a table are for the same instance. -/
theorem pairwise_jobs (t : Table) : t.jobs.Pairwise fun a b => a.id ≠ b.id := by
  refine List.Pairwise.filterMap _ ?_ t.basis.population.distinct
  intro id other hne job hjob later hlater
  rw [(Standing.job?_eq_some hjob).1, (Standing.job?_eq_some hlater).1]
  exact hne

end Table

namespace Workshop

/-! ## The table behind an act -/

variable {w u v : Workshop} {k : Nat} {worker next : Worker} {deed : Deed}

theorem jobs_opened (w : Workshop) (k : Nat) (id : Int) (n : Nat) :
    (w.perform k (.opened id)).jobs[n]? =
      if n = w.jobs.length then some ⟨id, k, none⟩ else w.jobs[n]? := by
  simp only [perform, List.getElem?_append]
  split <;> split <;> simp_all
  omega

theorem jobs_closed (w : Workshop) (k : Nat) (frame : Frame) (ending : Ending) (n : Nat) :
    (w.perform k (.closed frame ending)).jobs[n]? =
      if n = frame.job then (w.jobs[n]?).map fun job => { job with ending := some ending }
      else w.jobs[n]? := by
  simp only [perform, List.getElem?_modify, eq_comm (a := frame.job)]
  split <;> cases w.jobs[n]? <;> simp

/-! ## The files -/

/-- The jobs that were not given up are filed under their instances, which have records. -/
structure Filed (w : Workshop) : Prop where
  /-- what is known was not given up -/
  known : ∀ {id : Int} {n : Nat}, w.jobOf id = some n →
    ∃ job, w.jobs[n]? = some job ∧ job.id = id ∧ job.isGivenUp = false
  /-- what was not given up is known -/
  current : ∀ {n : Nat} {job : Job}, w.jobs[n]? = some job → job.isGivenUp = false →
    w.jobOf job.id = some n
  recorded : ∀ {n : Nat} {job : Job}, w.jobs[n]? = some job →
    w.basis.population.contains job.id = true

namespace Filed

variable {id : Int} {n : Nat} {job : Job} {frame : Frame} {ending : Ending}

theorem lt_of_known (h : w.Filed) (hknown : w.jobOf id = some n) : n < w.jobs.length := by
  obtain ⟨job, hjob, -⟩ := h.known hknown
  exact (List.getElem?_eq_some_iff.mp hjob).1

/-- There is at most one job for an instance that was not given up. -/
theorem unique (h : w.Filed) {m : Nat} {other : Job} (hjob : w.jobs[n]? = some job)
    (hnot : job.isGivenUp = false) (hother : w.jobs[m]? = some other)
    (hnot' : other.isGivenUp = false) (hsame : job.id = other.id) : n = m := by
  have hcurrent := h.current hjob hnot
  rw [hsame, h.current hother hnot'] at hcurrent
  exact (Option.some.inj hcurrent).symm

/-- The job of an instance is known, if it was not given up. -/
theorem job?_eq_some (h : w.Filed) (hjob : w.jobs[n]? = some job) (hnot : job.isGivenUp = false) :
    w.job? job.id = some job := by
  rw [job?, h.current hjob hnot]
  exact hjob

theorem exists_of_job? (h : w.Filed) (hjob : w.job? id = some job) :
    ∃ n, w.jobOf id = some n ∧ w.jobs[n]? = some job ∧ job.id = id ∧ job.isGivenUp = false := by
  obtain ⟨n, hknown, hn⟩ := Option.bind_eq_some_iff.mp hjob
  obtain ⟨own, hown, hid, hnot⟩ := h.known hknown
  obtain rfl := Option.some.inj (hn.symm.trans hown)
  exact ⟨n, hknown, hn, hid, hnot⟩

theorem opened (h : w.Filed) (hnew : w.jobOf id = none)
    (hrecord : w.basis.population.contains id = true) : (w.perform k (.opened id)).Filed where
  known {own n} hknown := by
    rw [jobs_opened]
    simp only [perform] at hknown
    split at hknown
    · obtain rfl := Option.some.inj hknown
      exact ⟨⟨id, k, none⟩, if_pos rfl, by simp [*], rfl⟩
    · rw [if_neg (Nat.ne_of_lt (h.lt_of_known hknown))]
      exact h.known hknown
  current {n job} hjob hnot := by
    rw [jobs_opened] at hjob
    split at hjob
    · subst n
      obtain rfl := Option.some.inj hjob
      simp [perform]
    · have hcurrent := h.current hjob hnot
      have hne : job.id ≠ id := by
        rintro rfl
        rw [hnew] at hcurrent
        cases hcurrent
      simpa [perform, hne] using hcurrent
  recorded {n job} hjob := by
    rw [jobs_opened] at hjob
    split at hjob
    · obtain rfl := Option.some.inj hjob
      exact hrecord
    · exact h.recorded hjob

theorem closed (h : w.Filed) (hopen : w.jobs[frame.job]? = some ⟨frame.id, k, none⟩) :
    (w.perform k (.closed frame ending)).Filed where
  known {own n} hknown := by
    simp only [perform] at hknown
    split at hknown
    · cases hknown
    · rename_i hkept
      obtain ⟨job, hjob, rfl, hnot⟩ := h.known hknown
      rw [jobs_closed, hjob]
      split
      · subst n
        obtain rfl := Option.some.inj (hopen.symm.trans hjob)
        refine ⟨⟨frame.id, k, some ending⟩, rfl, rfl, ?_⟩
        simpa [Job.isGivenUp, Job.answer?, Job.isOpen, Option.isSome_iff_ne_none] using hkept
      · exact ⟨job, rfl, rfl, hnot⟩
  current {n job} hjob hnot := by
    have hcurrent := h.current hopen rfl
    rw [jobs_closed] at hjob
    split at hjob
    · subst n
      rw [hopen] at hjob
      obtain rfl := Option.some.inj hjob
      have hkept : ending.answer? ≠ none := by
        intro hnone
        simp [Job.isGivenUp, Job.answer?, Job.isOpen, hnone] at hnot
      simpa [perform, hkept] using hcurrent
    · rename_i hother
      have hne : job.id ≠ frame.id := fun hsame => hother (h.unique hjob hnot hopen rfl hsame)
      simpa [perform, hne] using h.current hjob hnot
  recorded {n job} hjob := by
    rw [jobs_closed] at hjob
    split at hjob
    · obtain ⟨old, hold, rfl⟩ := Option.map_eq_some_iff.mp hjob
      have hrecorded := h.recorded hold
      exact hrecorded
    · exact h.recorded hjob

theorem quiet (h : w.Filed) (hjobs : (w.perform k deed).jobs = w.jobs)
    (hjobOf : (w.perform k deed).jobOf = w.jobOf) : (w.perform k deed).Filed where
  known hknown := by
    rw [hjobOf] at hknown
    rw [hjobs]
    exact h.known hknown
  current hjob hnot := by
    rw [hjobs] at hjob
    rw [hjobOf]
    exact h.current hjob hnot
  recorded hjob := by
    rw [hjobs] at hjob
    rw [basis_perform]
    exact h.recorded hjob

theorem setWorker (h : w.Filed) (k : Nat) (worker : Worker) : (w.setWorker k worker).Filed :=
  ⟨h.known, h.current, h.recorded⟩

end Filed

/-! ## The staff -/

/-- A worker has an open job for each building under way. -/
structure Holds (w : Workshop) (k : Nat) (worker : Worker) : Prop where
  owned : ∀ frame ∈ worker.frames, w.jobs[frame.job]? = some ⟨frame.id, k, none⟩
  distinct : (worker.frames.map Frame.job).Nodup

/-- The open jobs are those of the buildings under way, one for each. -/
structure Staffed (w : Workshop) : Prop where
  /-- the owner of an open job has the building under way -/
  held : ∀ {n : Nat} {job : Job}, w.jobs[n]? = some job → job.isOpen = true →
    ∃ worker, w.workers[job.owner]? = some worker ∧ n ∈ worker.frames.map Frame.job
  holds : ∀ {k : Nat} {worker : Worker}, w.workers[k]? = some worker → w.Holds k worker

/-- What holds of the worker who acts and of all others, holds of all. -/
theorem forall_workers {P : Nat → Worker → Prop} (hworker : w.workers[k]? = some worker)
    (hnext : P k next) (hothers : ∀ l other, l ≠ k → w.workers[l]? = some other → P l other)
    {l : Nat} {other : Worker}
    (hother : ((w.perform k deed).setWorker k next).workers[l]? = some other) : P l other := by
  rw [getElem?_setWorker hworker] at hother
  split at hother
  · subst l
    obtain rfl := Option.some.inj hother
    exact hnext
  · exact hothers l other ‹_› hother

namespace Staffed

variable {frame : Frame} {ending : Ending}

theorem lt_of_mem (h : w.Staffed) (hworker : w.workers[k]? = some worker)
    (hmem : frame ∈ worker.frames) : frame.job < w.jobs.length :=
  (List.getElem?_eq_some_iff.mp ((h.holds hworker).owned frame hmem)).1

/-- An owner has a job still, unless it is the one that was closed. -/
theorem held_next (h : w.Staffed) (hworker : w.workers[k]? = some worker) {n : Nat} {job : Job}
    (hjob : w.jobs[n]? = some job) (hopen : job.isOpen = true)
    (hnext : n ∈ worker.frames.map Frame.job → n ∈ next.frames.map Frame.job) :
    ∃ other, ((w.perform k deed).setWorker k next).workers[job.owner]? = some other ∧
      n ∈ other.frames.map Frame.job := by
  obtain ⟨other, hother, hmem⟩ := h.held hjob hopen
  rw [getElem?_setWorker hworker]
  split
  · rename_i hsame
    rw [hsame, hworker] at hother
    obtain rfl := Option.some.inj hother
    exact ⟨next, rfl, hnext hmem⟩
  · exact ⟨other, hother, hmem⟩

theorem opened (h : w.Staffed) (hworker : w.workers[k]? = some worker)
    (hjob : frame.job = w.jobs.length) (hafter : next.frames = frame :: worker.frames) :
    ((w.perform k (.opened frame.id)).setWorker k next).Staffed where
  held {n job} hn hopen := by
    rw [jobs_setWorker, jobs_opened] at hn
    split at hn
    · subst n
      obtain rfl := Option.some.inj hn
      exact ⟨next, by simp [getElem?_setWorker hworker], by simp [hafter, hjob]⟩
    · apply h.held_next hworker hn hopen
      intro hmem
      rw [hafter, List.map_cons]
      exact List.mem_cons_of_mem _ hmem
  holds := by
    refine forall_workers (P := Holds _) hworker ?_ ?_
    · constructor
      · intro own hmem
        rw [jobs_setWorker, jobs_opened]
        rw [hafter, List.mem_cons] at hmem
        rcases hmem with rfl | hmem
        · rw [if_pos hjob]
        · rw [if_neg (Nat.ne_of_lt (h.lt_of_mem hworker hmem))]
          exact (h.holds hworker).owned own hmem
      · rw [hafter, List.map_cons, List.nodup_cons]
        refine ⟨fun hmem => ?_, (h.holds hworker).distinct⟩
        obtain ⟨own, hown, hsame⟩ := List.mem_map.mp hmem
        have hlt := h.lt_of_mem hworker hown
        omega
    · intro l other _ hother
      refine ⟨fun own hmem => ?_, (h.holds hother).distinct⟩
      rw [jobs_setWorker, jobs_opened, if_neg (Nat.ne_of_lt (h.lt_of_mem hother hmem))]
      exact (h.holds hother).owned own hmem

theorem closed (h : w.Staffed) (hworker : w.workers[k]? = some worker)
    (hbefore : worker.frames = frame :: next.frames) :
    ((w.perform k (.closed frame ending)).setWorker k next).Staffed := by
  have hframe := (h.holds hworker).owned frame (by simp [hbefore])
  have hdistinct := (h.holds hworker).distinct
  rw [hbefore, List.map_cons, List.nodup_cons] at hdistinct
  constructor
  · intro n job hn hopen
    rw [jobs_setWorker, jobs_closed] at hn
    split at hn
    · obtain ⟨old, hold, rfl⟩ := Option.map_eq_some_iff.mp hn
      simp [Job.isOpen] at hopen
    · apply h.held_next hworker hn hopen
      intro hmem
      rw [hbefore, List.map_cons] at hmem
      exact List.mem_of_ne_of_mem ‹_› hmem
  · refine forall_workers (P := Holds _) hworker ?_ ?_
    · refine ⟨fun own hmem => ?_, hdistinct.2⟩
      have hne : own.job ≠ frame.job :=
        fun hsame => hdistinct.1 (hsame ▸ List.mem_map_of_mem hmem)
      rw [jobs_setWorker, jobs_closed, if_neg hne]
      exact (h.holds hworker).owned own (by simp [hbefore, hmem])
    · intro l other hl hother
      refine ⟨fun own hmem => ?_, (h.holds hother).distinct⟩
      have hown := (h.holds hother).owned own hmem
      have hne : own.job ≠ frame.job := by
        intro hsame
        rw [hsame, hframe] at hown
        simp_all
      rw [jobs_setWorker, jobs_closed, if_neg hne]
      exact hown

theorem quiet (h : w.Staffed) (hworker : w.workers[k]? = some worker)
    (hjobs : (w.perform k deed).jobs = w.jobs) (hframes : next.frames = worker.frames) :
    ((w.perform k deed).setWorker k next).Staffed where
  held hn hopen := by
    rw [jobs_setWorker, hjobs] at hn
    apply h.held_next hworker hn hopen
    rw [hframes]
    exact id
  holds := by
    refine forall_workers (P := Holds _) hworker ?_ ?_
    · constructor <;> simp only [jobs_setWorker, hjobs, hframes]
      · exact (h.holds hworker).owned
      · exact (h.holds hworker).distinct
    · intro l other _ hother
      constructor
      · simp only [jobs_setWorker, hjobs]
        exact (h.holds hother).owned
      · exact (h.holds hother).distinct

end Staffed

/-! ## What stays as it was -/

/-- What was closed before is as it was, and what has an answer is known. -/
structure Continues (w u : Workshop) : Prop where
  basis : u.basis = w.basis
  jobs : ∀ {n : Nat} {job : Job}, w.jobs[n]? = some job → ∃ later, u.jobs[n]? = some later ∧
    later.id = job.id ∧ later.owner = job.owner ∧ (job.isOpen = false → later = job)
  kept : ∀ {id : Int} {n : Nat} {job : Job} {answer : Except Thrown Instance},
    w.jobOf id = some n → w.jobs[n]? = some job → job.answer? = some answer →
    u.jobOf id = some n

namespace Continues

theorem refl (w : Workshop) : Continues w w :=
  ⟨rfl, fun h => ⟨_, h, rfl, rfl, fun _ => rfl⟩, fun h _ _ => h⟩

theorem closed (h : Continues w u) {n : Nat} {job : Job} (hjob : w.jobs[n]? = some job)
    (hclosed : job.isOpen = false) : u.jobs[n]? = some job := by
  obtain ⟨later, hlater, -, -, hsame⟩ := h.jobs hjob
  rwa [hsame hclosed] at hlater

theorem trans (h : Continues w u) (hbehind : Continues u v) : Continues w v where
  basis := hbehind.basis.trans h.basis
  jobs {n job} hjob := by
    obtain ⟨later, hlater, hid, howner, hsame⟩ := h.jobs hjob
    obtain ⟨last, hlast, hid', howner', hsame'⟩ := hbehind.jobs hlater
    refine ⟨last, hlast, hid'.trans hid, howner'.trans howner, fun hclosed => ?_⟩
    obtain rfl := hsame hclosed
    exact hsame' hclosed
  kept hknown hjob hanswer :=
    hbehind.kept (h.kept hknown hjob hanswer) (h.closed hjob (Job.isOpen_of_answer? hanswer))
      hanswer

/-- An instance that has an answer keeps its job. -/
theorem job? (h : Continues w u) {id : Int} {job : Job} {answer : Except Thrown Instance}
    (hjob : w.job? id = some job) (hanswer : job.answer? = some answer) :
    u.job? id = some job := by
  obtain ⟨n, hknown, hn⟩ := Option.bind_eq_some_iff.mp hjob
  rw [Workshop.job?, h.kept hknown hn hanswer]
  exact h.closed hn (Job.isOpen_of_answer? hanswer)

end Continues

/-- Every act leaves alone what was closed. -/
theorem Staffed.continues (h : w.Staffed) (hfiled : w.Filed)
    (hworker : w.workers[k]? = some worker) (haffects : w.Affects worker.frames next.frames deed) :
    Continues w ((w.perform k deed).setWorker k next) := by
  constructor
  · exact basis_perform
  · intro n job hjob
    have hlt := (List.getElem?_eq_some_iff.mp hjob).1
    rw [jobs_setWorker]
    cases haffects with
    | @opened frame hnew hrecord hnumber hafter =>
      rw [jobs_opened, if_neg (Nat.ne_of_lt hlt)]
      exact ⟨job, hjob, rfl, rfl, fun _ => rfl⟩
    | @closed frame ending hbefore =>
      have hframe := (h.holds hworker).owned frame (by simp [hbefore])
      rw [jobs_closed]
      split
      · subst n
        rw [hframe] at hjob ⊢
        cases hjob
        exact ⟨_, rfl, rfl, rfl, fun hclosed => by simp [Job.isOpen] at hclosed⟩
      · exact ⟨job, hjob, rfl, rfl, fun _ => rfl⟩
    | quiet hjobs hjobOf hframes =>
      rw [hjobs]
      exact ⟨job, hjob, rfl, rfl, fun _ => rfl⟩
  · intro id n job answer hknown hjob hanswer
    rw [jobOf_setWorker]
    cases haffects with
    | @opened frame hnew hrecord hnumber hafter =>
      have hne : id ≠ frame.id := by
        rintro rfl
        rw [hnew] at hknown
        cases hknown
      simpa [perform, hne] using hknown
    | @closed frame ending hbefore =>
      have hframe := (h.holds hworker).owned frame (by simp [hbefore])
      have hne : id ≠ frame.id := by
        rintro rfl
        obtain rfl := Option.some.inj (hknown.symm.trans (hfiled.current hframe rfl))
        rw [hframe] at hjob
        cases hjob
        cases hanswer
      simpa [perform, hne] using hknown
    | quiet hjobs hjobOf hframes => rwa [hjobOf]

/-! ## What workers are about to do -/

/-- What a worker is about to do fits in with the jobs. -/
def Attends (w : Workshop) (worker : Worker) : Prop :=
  match worker.activity with
  | .ready => worker.stack = []
  | .joining n | .waiting n => ∃ job, w.jobs[n]? = some job ∧ job.id = worker.target
  | .leaving n => ∃ job, w.jobs[n]? = some job ∧ job.id = worker.target ∧ job.isOpen = false
  | .asking | .building _ _ | .answering _ => True

namespace Attends

variable {n : Nat} {job : Job}

theorem stack_eq_nil (h : w.Attends worker) (hactivity : worker.activity = .ready) :
    worker.stack = [] := by
  simpa only [Attends, hactivity] using h

theorem joining (h : w.Attends worker) (hactivity : worker.activity = .joining n) :
    ∃ job, w.jobs[n]? = some job ∧ job.id = worker.target := by
  simpa only [Attends, hactivity] using h

theorem waiting (h : w.Attends worker) (hactivity : worker.activity = .waiting n) :
    ∃ job, w.jobs[n]? = some job ∧ job.id = worker.target := by
  simpa only [Attends, hactivity] using h

theorem leaving (h : w.Attends worker) (hactivity : worker.activity = .leaving n) :
    ∃ job, w.jobs[n]? = some job ∧ job.id = worker.target ∧ job.isOpen = false := by
  simpa only [Attends, hactivity] using h

/-- The job that a worker has found is one of the instance it asks for. -/
theorem id_of_joining (h : w.Attends worker) (hactivity : worker.activity = .joining n)
    (hjob : w.jobs[n]? = some job) : job.id = worker.target := by
  obtain ⟨own, hown, hid⟩ := h.joining hactivity
  rwa [Option.some.inj (hjob.symm.trans hown)]

/-- The job that a worker waits for is one of the instance it asks for. -/
theorem id_of_waiting (h : w.Attends worker) (hactivity : worker.activity = .waiting n)
    (hjob : w.jobs[n]? = some job) : job.id = worker.target := by
  obtain ⟨own, hown, hid⟩ := h.waiting hactivity
  rwa [Option.some.inj (hjob.symm.trans hown)]

/-- A worker fits in with the jobs later, too. -/
theorem mono (h : w.Attends worker) (hcontinues : Continues w u) : u.Attends worker := by
  unfold Attends
  cases hactivity : worker.activity with
  | ready => exact h.stack_eq_nil hactivity
  | joining n =>
    obtain ⟨job, hjob, hid⟩ := h.joining hactivity
    obtain ⟨later, hlater, hsame, -, -⟩ := hcontinues.jobs hjob
    exact ⟨later, hlater, hsame.trans hid⟩
  | waiting n =>
    obtain ⟨job, hjob, hid⟩ := h.waiting hactivity
    obtain ⟨later, hlater, hsame, -, -⟩ := hcontinues.jobs hjob
    exact ⟨later, hlater, hsame.trans hid⟩
  | leaving n =>
    obtain ⟨job, hjob, hid, hclosed⟩ := h.leaving hactivity
    exact ⟨job, hcontinues.closed hjob hclosed, hid, hclosed⟩
  | asking | building frame rest | answering reply => trivial

end Attends

/-- The jobs are those of the buildings under way and of what has been built. -/
structure Accounted (w : Workshop) : Prop extends w.Filed, w.Staffed where
  attends : ∀ {k : Nat} {worker : Worker}, w.workers[k]? = some worker → w.Attends worker

namespace Accounted

theorem continues (h : w.Accounted) (hworker : w.workers[k]? = some worker)
    (hacts : w.Acts k worker deed next) : Continues w ((w.perform k deed).setWorker k next) :=
  h.toStaffed.continues h.toFiled hworker hacts.affects

/-- What the worker who acts is about to do fits in with the jobs. -/
theorem attends_next (h : w.Accounted) (hworker : w.workers[k]? = some worker)
    (hacts : w.Acts k worker deed next) :
    ((w.perform k deed).setWorker k next).Attends next := by
  have hattends := (h.attends hworker).mono (h.continues hworker hacts)
  cases hacts with
  | found hactivity hrecord hjob =>
    obtain ⟨job, hn, hid, -⟩ := h.known hjob
    exact ⟨job, hn, hid⟩
  | joined hactivity hjob hanswer hother hfree => exact hattends.joining hactivity
  | @woken number job hactivity hjob hclosed =>
    exact ⟨job, hjob, hattends.id_of_waiting hactivity hjob, hclosed⟩
  | finished hactivity hstack => exact hstack
  | _ => trivial

/-- Every act leaves the jobs accounted for. -/
theorem acts (h : w.Accounted) (hworker : w.workers[k]? = some worker)
    (hacts : w.Acts k worker deed next) : ((w.perform k deed).setWorker k next).Accounted := by
  have hattends : ∀ {l : Nat} {other : Worker},
      ((w.perform k deed).setWorker k next).workers[l]? = some other →
        ((w.perform k deed).setWorker k next).Attends other := by
    refine forall_workers (P := fun _ => Attends _) hworker (h.attends_next hworker hacts) ?_
    exact fun l other _ hother => (h.attends hother).mono (h.continues hworker hacts)
  cases hacts.affects with
  | @opened frame hnew hrecord hnumber hafter =>
    have hfiled := h.toFiled.opened (k := k) hnew (Population.contains_of_find? hrecord)
    exact ⟨hfiled.setWorker k next, h.toStaffed.opened hworker hnumber hafter, hattends⟩
  | @closed frame ending hbefore =>
    have hopen := (h.holds hworker).owned frame (by simp [hbefore])
    exact ⟨(h.toFiled.closed hopen).setWorker k next, h.toStaffed.closed hworker hbefore, hattends⟩
  | quiet hjobs hjobOf hframes =>
    exact ⟨(h.toFiled.quiet (hjobs k) (hjobOf k)).setWorker k next,
      h.toStaffed.quiet hworker (hjobs k) hframes, hattends⟩

theorem step (h : w.Accounted) (hstep : w.step? k = some u) : u.Accounted := by
  obtain ⟨worker, deed, next, hworker, hacts, rfl⟩ := exists_acts hstep
  exact h.acts hworker hacts

theorem reaches (h : w.Accounted) (hreaches : Reaches w u) : u.Accounted :=
  hreaches.invariant step h

/-- Whatever workers do, what was closed stays as it was. -/
theorem continues_of_reaches (h : w.Accounted) (hreaches : Reaches w u) : Continues w u := by
  induction hreaches with
  | refl => exact .refl _
  | step k hstep rest ih =>
    obtain ⟨worker, deed, next, hworker, hacts, rfl⟩ := exists_acts hstep
    exact (h.continues hworker hacts).trans (ih (h.acts hworker hacts))

/-- No two workers build the same instance, and none builds it twice. -/
theorem frame_unique (h : w.Accounted) {l : Nat} {other : Worker} {frame own : Frame}
    (hworker : w.workers[k]? = some worker) (hframe : frame ∈ worker.frames)
    (hother : w.workers[l]? = some other) (hown : own ∈ other.frames) (hsame : frame.id = own.id) :
    k = l ∧ frame.job = own.job := by
  have hjob := (h.holds hworker).owned frame hframe
  have hjob' := (h.holds hother).owned own hown
  have hnumber : frame.job = own.job := h.unique hjob rfl hjob' rfl hsame
  rw [hnumber, hjob'] at hjob
  exact ⟨by simp_all, hnumber⟩

/-- An instance of which the job is open is in hand of its owner. -/
theorem exists_frame (h : w.Accounted) {n : Nat} {job : Job} (hjob : w.jobs[n]? = some job)
    (hopen : job.isOpen = true) :
    ∃ other, w.workers[job.owner]? = some other ∧ ∃ frame ∈ other.frames, frame.id = job.id := by
  obtain ⟨other, hother, hmem⟩ := h.held hjob hopen
  obtain ⟨frame, hframe, rfl⟩ := List.mem_map.mp hmem
  have hsame := (h.holds hother).owned frame hframe
  rw [hjob] at hsame
  exact ⟨other, hother, frame, hframe, (congrArg Job.id (Option.some.inj hsame)).symm⟩

/-- A worker with nothing left to do has no building under way. -/
theorem frames_of_isDone (h : w.Accounted) (hworker : w.workers[k]? = some worker)
    (hdone : worker.isDone = true) : worker.frames = [] := by
  cases hactivity : worker.activity with
  | ready => simp [Worker.frames, hactivity, (h.attends hworker).stack_eq_nil hactivity]
  | _ => simp [Worker.isDone, hactivity] at hdone

end Accounted

/-! ## The beginning -/

variable {t : Table} {errands : List (List Int)}

theorem worker_of_opened (h : (opened t errands).workers[k]? = some worker) :
    ∃ own, errands[k]? = some own ∧ worker = .fresh own := by
  simp only [opened, List.getElem?_map] at h
  obtain ⟨own, hown, rfl⟩ := Option.map_eq_some_iff.mp h
  exact ⟨own, hown, rfl⟩

/-- The jobs of a table are filed. -/
theorem filed_opened (t : Table) (errands : List (List Int)) : (opened t errands).Filed where
  known {id n} hknown := by
    obtain ⟨hlt, hid, -⟩ := List.findIdx?_eq_some_iff_getElem.mp hknown
    have hjob : t.jobs[n]? = some t.jobs[n] := List.getElem?_eq_getElem hlt
    obtain ⟨answer, hanswer⟩ := Table.answer?_of_mem_jobs (List.getElem_mem hlt)
    exact ⟨_, hjob, of_decide_eq_true hid, Job.isGivenUp_of_answer? hanswer⟩
  current {n job} hjob _ := by
    obtain ⟨hlt, rfl⟩ := List.getElem?_eq_some_iff.mp hjob
    refine List.findIdx?_eq_some_iff_getElem.mpr ⟨hlt, decide_eq_true rfl, fun m hm => ?_⟩
    have hne := List.pairwise_iff_getElem.mp t.pairwise_jobs m n (hm.trans hlt) hlt hm
    rw [decide_eq_true_eq]
    exact hne
  recorded hjob :=
    Population.mem_ids_iff.mp (Table.of_mem_jobs (List.mem_of_getElem? hjob)).1

theorem accounted_opened (t : Table) (errands : List (List Int)) :
    (opened t errands).Accounted where
  toFiled := filed_opened t errands
  held hjob hopen := by
    obtain ⟨answer, hanswer⟩ := Table.answer?_of_mem_jobs (List.mem_of_getElem? hjob)
    rw [Job.isOpen_of_answer? hanswer] at hopen
    cases hopen
  holds hworker := by
    obtain ⟨own, -, rfl⟩ := worker_of_opened hworker
    exact ⟨nofun, List.nodup_nil⟩
  attends hworker := by
    obtain ⟨own, -, rfl⟩ := worker_of_opened hworker
    rfl

/-- Wherever workers come to, the jobs are accounted for. -/
theorem accounted (h : Reaches (opened t errands) w) : w.Accounted :=
  (accounted_opened t errands).reaches h

end Workshop

end Part21
