import Part21.Proofs.Resolution.Passage
import Part21.Proofs.Workshop.Waiting

set_option autoImplicit false

/-!
# Passes of workers

Where buildings hand errors on, a worker descends along references: the buildings that it has
under way form a simple path, the last one refers to the instance that the worker asks for, and
that one is not on the path (`Basis.OnPass`).

So who is known to wait for somebody waits for an instance that the instances it has in hand lead
to, and a circle of such workers comes from a circle of references
(`Workshop.leadsTo_of_waitsFor`).  This is how references are deferred for a reason: the instance
is on the path, or it leads back to the one that refers to it.  There is one exception
(`Workshop.deferred_for_reason`): a worker that has found a job sees it as open even if the job
has been given up meanwhile.  Whether it waits then depends on whom the former owner waits for,
though that one has the instance no longer in hand.
-/

namespace Part21

/-! ## Buildings -/

namespace Build.HandsOn

variable {targets : List Int} {kind : Thrown → Prop}

/-- A building that hands errors on does so whatever comes of a reference. -/
theorem next {id : Int} {expected : TypeDef} {place : Text}
    {rest : Except Thrown Unit → Build Instance}
    (h : (Build.visit id expected place rest).HandsOn targets kind)
    (hkind : ∀ thrown, kind thrown) (answer : Except Thrown Unit) :
    (rest answer).HandsOn targets kind := by
  cases h with
  | visit hid hstops hnext =>
    cases answer with
    | ok => exact hnext
    | error thrown =>
      rw [hstops]
      exact .done fun thrown _ => .inr (hkind thrown)

end Build.HandsOn

/-- Every building hands errors on, whatever the errors of factories are. -/
abbrev Makers.HandOnAll (m : Makers) : Prop := m.HandOn fun _ => True

namespace Basis

/-! ## Buildings under way -/

/-- A building under way, with the path of those that wait for it. -/
structure Stands (b : Basis) (below : List Int) (frame : Frame) : Prop where
  record : b.population.find? frame.id = some frame.record
  pass : frame.pass = ⟨none, frame.id :: below⟩
  isPath : b.population.IsSimplePath (frame.id :: below).reverse

/-- A building waits for an instance that it refers to and that is not on its path. -/
inductive Awaits (b : Basis) (frame : Frame) : Continuation → Prop
  | visit {target : Int} {r : Record} {expected : TypeDef} {place : Text}
      {next : Except Thrown Unit → Build Instance} (hrecord : b.population.find? target = some r)
      (hnew : target ∉ frame.pass.path)
      (hrest : (Build.visit target expected place next).HandsOn frame.record.references
        fun _ => True) :
      Awaits b frame (.visit target r expected place next)

end Basis

namespace Worker

/-- The instances of buildings that wait for an answer, the last one first. -/
def path (stack : List (Frame × Continuation)) : List Int := stack.map fun waiting => waiting.1.id

/-- The instance that is asked for, above the buildings that wait for an answer. -/
def targetOf (errand : Int) : List (Frame × Continuation) → Int
  | [] => errand
  | (_, continuation) :: _ => continuation.target

theorem target_eq (w : Worker) : w.target = targetOf w.errand w.stack := by
  unfold target targetOf
  split <;> simp_all

theorem mem_path {stack : List (Frame × Continuation)} {frame : Frame}
    (h : frame ∈ stack.map Prod.fst) : frame.id ∈ path stack := by
  obtain ⟨waiting, hmem, rfl⟩ := List.mem_map.mp h
  exact List.mem_map_of_mem hmem

end Worker

namespace Basis

/-- Each of the buildings that wait for an answer was asked for by the one below. -/
def Lined (b : Basis) (errand : Int) : List (Frame × Continuation) → Prop
  | [] => True
  | (frame, continuation) :: below =>
    b.Stands (Worker.path below) frame ∧ b.Awaits frame continuation ∧
      frame.id = Worker.targetOf errand below ∧ b.Lined errand below

/-- A worker is on a pass: its buildings wait for each other, and the one it goes on with is the
one that was asked for. -/
structure OnPass (b : Basis) (worker : Worker) : Prop where
  lined : b.Lined worker.errand worker.stack
  building : ∀ {frame : Frame} {rest : Build Instance}, worker.activity = .building frame rest →
    b.Stands (Worker.path worker.stack) frame ∧ frame.id = worker.target ∧
      rest.HandsOn frame.record.references fun _ => True

variable {b : Basis} {errand : Int} {stack : List (Frame × Continuation)} {worker : Worker}

namespace Lined

theorem isPath (h : b.Lined errand stack) : b.population.IsSimplePath (Worker.path stack).reverse := by
  cases stack with
  | nil => exact b.population.isSimplePath_nil
  | cons waiting below => exact h.1.isPath

/-- The last building refers to what is asked for. -/
theorem refers (h : b.Lined errand stack) :
    ∀ referrer ∈ (Worker.path stack).head?,
      b.population.Refers referrer (Worker.targetOf errand stack) := by
  cases stack with
  | nil => simp [Worker.path]
  | cons waiting below =>
    obtain ⟨frame, continuation⟩ := waiting
    obtain ⟨hstands, ⟨hrecord, hnew, hrest⟩, -, -⟩ := h
    cases hrest with
    | visit hid hstops hnext =>
      intro referrer hhead
      obtain rfl : frame.id = referrer := Option.some.inj hhead
      exact ⟨frame.record, hstands.record, hid⟩

theorem not_mem (h : b.Lined errand stack) : Worker.targetOf errand stack ∉ Worker.path stack := by
  cases stack with
  | nil => simp [Worker.path]
  | cons waiting below =>
    obtain ⟨frame, continuation⟩ := waiting
    obtain ⟨hstands, ⟨hrecord, hnew, hrest⟩, -, -⟩ := h
    rw [hstands.pass] at hnew
    exact hnew

/-- References lead from every building to what is asked for. -/
theorem leads (h : b.Lined errand stack) {id : Int} (hmem : id ∈ Worker.path stack) :
    Relation.TransGen b.population.Refers id (Worker.targetOf errand stack) :=
  h.isPath.leads h.refers id hmem

/-- References lead from every building to the last one. -/
theorem leads_head (h : b.Lined errand stack) {id referrer : Int} (hmem : id ∈ Worker.path stack)
    (hhead : (Worker.path stack).head? = some referrer) : b.population.LeadsTo id referrer := by
  cases stack with
  | nil => cases hmem
  | cons waiting below =>
    obtain ⟨frame, continuation⟩ := waiting
    obtain ⟨-, -, hasked, hbelow⟩ := h
    obtain rfl : frame.id = referrer := Option.some.inj hhead
    rcases List.mem_cons.mp hmem with rfl | hmem
    · exact .refl
    · rw [hasked]
      exact (hbelow.leads hmem).to_reflTransGen

end Lined

namespace OnPass

/-- The pass of a worker is the path of its buildings. -/
theorem pass_eq (h : b.OnPass worker) : worker.pass = ⟨none, Worker.path worker.stack⟩ := by
  have hlined := h.lined
  unfold Worker.pass
  cases hstack : worker.stack with
  | nil => rfl
  | cons waiting below =>
    obtain ⟨frame, continuation⟩ := waiting
    rw [hstack] at hlined
    obtain ⟨hstands, ⟨hrecord, hnew, hrest⟩, -, -⟩ := hlined
    exact hstands.pass

/-- References lead from every building of a worker that asks to what it asks for. -/
theorem frame_leads (h : b.OnPass worker)
    (hapart : ∀ frame rest, worker.activity ≠ .building frame rest) {frame : Frame}
    (hmem : frame ∈ worker.frames) :
    Relation.TransGen b.population.Refers frame.id worker.target := by
  rw [Worker.frames_of_apart hapart] at hmem
  rw [Worker.target_eq]
  exact h.lined.leads (Worker.mem_path hmem)

theorem turnTo (h : b.OnPass worker) {activity : Activity}
    (hapart : ∀ frame rest, activity ≠ .building frame rest) :
    b.OnPass (worker.turnTo activity) :=
  ⟨h.lined, fun hactivity => absurd hactivity (hapart _ _)⟩

/-- A building that is begun stands on the path. -/
theorem begun (h : b.OnPass worker) {r : Record}
    (hrecord : b.population.find? worker.target = some r) {frame : Frame}
    (hid : frame.id = worker.target) (hr : frame.record = r)
    (hpass : frame.pass = ⟨worker.pass.brought, worker.target :: worker.pass.path⟩) :
    b.Stands (Worker.path worker.stack) frame := by
  have hcontains := Population.contains_of_find? hrecord
  constructor
  · rw [hid, hr, hrecord]
  · rw [hpass, h.pass_eq, hid]
  · rw [hid]
    rw [Worker.target_eq] at hcontains ⊢
    exact h.lined.isPath.extend h.lined.refers hcontains h.lined.not_mem

end OnPass

end Basis

/-! ## Steps -/

namespace Workshop

variable {w u : Workshop} {k l : Nat} {worker next : Worker} {deed : Deed}

/-- The worker who acts stays on a pass. -/
theorem onPass_of_acts (hmakers : w.basis.makers.HandOnAll) (hattends : w.Attends worker)
    (h : w.basis.OnPass worker) (hacts : w.Acts k worker deed next) : w.basis.OnPass next := by
  cases hacts with
  | started hactivity herrands =>
    exact ⟨by simp [hattends.stack_eq_nil hactivity, Basis.Lined], by rintro frame rest ⟨⟩⟩
  | @opened r hactivity hrecord hjob =>
    refine ⟨h.lined, fun hbuilding => ?_⟩
    obtain ⟨rfl, rfl⟩ := Activity.building.inj hbuilding
    refine ⟨h.begun hrecord rfl rfl rfl, rfl, ?_⟩
    rw [h.pass_eq]
    exact Basis.handsOn_build hmakers (fun own hown => absurd hown (Option.not_mem_none own)) r rfl rfl
  | asked hactivity hasks =>
    obtain ⟨hstands, htarget, hrest⟩ := h.building hactivity
    cases hasks with
    | visit hrecord hnew hroom =>
      rw [Worker.target_eq] at htarget
      exact ⟨⟨hstands, .visit hrecord hnew hrest, htarget, h.lined⟩, by rintro own rest ⟨⟩⟩
    | resolve => cases hrest
  | followed hactivity hfollowed =>
    obtain ⟨hstands, htarget, hrest⟩ := h.building hactivity
    refine ⟨h.lined, fun hbuilding => ?_⟩
    obtain ⟨rfl, rfl⟩ := Activity.building.inj hbuilding
    exact ⟨hstands, htarget, hrest.next (fun _ => trivial) _⟩
  | @resumed frame continuation below reply hactivity hstack =>
    have hlined := h.lined
    rw [hstack] at hlined
    obtain ⟨hstands, ⟨hrecord, hnew, hrest⟩, hasked, hbelow⟩ := hlined
    refine ⟨hbelow, fun hbuilding => ?_⟩
    obtain ⟨rfl, rfl⟩ := Activity.building.inj hbuilding
    refine ⟨hstands, by rwa [Worker.target_eq], ?_⟩
    unfold resume
    dsimp only
    split <;> exact hrest.next (fun _ => trivial) _
  | finished hactivity hstack => exact ⟨by simp [hstack, Basis.Lined], by rintro frame rest ⟨⟩⟩
  | _ => exact h.turnTo (by rintro frame rest ⟨⟩)

/-- All workers are on passes. -/
def Aligned (w : Workshop) : Prop :=
  ∀ {k : Nat} {worker : Worker}, w.workers[k]? = some worker → w.basis.OnPass worker

theorem aligned_step (hmakers : w.basis.makers.HandOnAll) (haccounted : w.Accounted)
    (haligned : w.Aligned) (hstep : w.step? k = some u) : u.Aligned := by
  obtain ⟨worker, deed, next, hworker, hacts, rfl⟩ := exists_acts hstep
  intro l other hother
  rw [basis_setWorker, basis_perform]
  refine forall_workers (P := fun _ other => w.basis.OnPass other) hworker ?_ ?_ hother
  · exact onPass_of_acts hmakers (haccounted.attends hworker) (haligned hworker) hacts
  · exact fun l other _ hother => haligned hother

/-- Wherever workers come to, they are on passes. -/
theorem aligned {t : Table} {errands : List (List Int)} (hmakers : t.basis.makers.HandOnAll)
    (h : Reaches (opened t errands) w) : w.basis = t.basis ∧ w.Accounted ∧ w.Aligned := by
  refine h.invariant (P := fun w => w.basis = t.basis ∧ w.Accounted ∧ w.Aligned) ?_ ?_
  · rintro w u k ⟨hbasis, haccounted, haligned⟩ hstep
    refine ⟨?_, haccounted.step hstep, ?_⟩
    · exact (haccounted.continues_of_reaches (.single hstep)).basis.trans hbasis
    · exact aligned_step (hbasis ▸ hmakers) haccounted haligned hstep
  · refine ⟨rfl, accounted_opened t errands, fun hworker => ?_⟩
    obtain ⟨own, -, rfl⟩ := worker_of_opened hworker
    exact ⟨trivial, nofun⟩

/-! ## Who waits for whom, and why -/

/-- From an instance that a worker has in hand, references lead to one that the worker has in hand
for whom the first one is known to wait. -/
theorem leadsTo_of_waitsFor (haccounted : w.Accounted) (haligned : w.Aligned)
    (h : Relation.ReflTransGen w.WaitsFor l k) {other : Worker} {frame : Frame}
    (hother : w.workers[l]? = some other) (hmem : frame ∈ other.frames) :
    ∃ worker, w.workers[k]? = some worker ∧
      ∃ own ∈ worker.frames, w.basis.population.LeadsTo frame.id own.id := by
  induction h using Relation.ReflTransGen.head_induction_on generalizing other frame with
  | refl => exact ⟨other, hother, frame, hmem, .refl⟩
  | head hwaits _ ih =>
    obtain ⟨same, id, job, hsame, hid, hjob, hanswer, rfl⟩ := hwaits
    obtain rfl := Option.some.inj (hother.symm.trans hsame)
    obtain ⟨rfl, hapart⟩ := Worker.waitsFor?_eq_some hid
    obtain ⟨n, -, hn, htarget, hnot⟩ := haccounted.exists_of_job? hjob
    have hopen := (Job.isOpen_or_isGivenUp hanswer).resolve_right (by simp [hnot])
    obtain ⟨owner, howner, own, hown, hsame⟩ := haccounted.exists_frame hn hopen
    obtain ⟨worker, hworker, last, hlast, hleads⟩ := ih howner hown
    refine ⟨worker, hworker, last, hlast, ?_⟩
    have hbefore := (haligned hother).frame_leads hapart hmem
    rw [← htarget, ← hsame] at hbefore
    exact hbefore.to_reflTransGen.trans hleads

/-- If the worker who has an instance in hand waits for one who asks for it, the instance leads
back to one that the latter has in hand. -/
theorem leadsTo_of_waitsOn (haccounted : w.Accounted) (haligned : w.Aligned)
    (hworker : w.workers[k]? = some worker) {n : Nat} {job : Job} (hjob : w.jobs[n]? = some job)
    (hopen : job.isOpen = true) (hid : job.id = worker.target)
    (hwaits : w.waitsOn job.owner k = true) :
    ∃ own ∈ worker.frames, w.basis.population.LeadsTo worker.target own.id := by
  obtain ⟨other, hother, frame, hframe, hsame⟩ := haccounted.exists_frame hjob hopen
  obtain ⟨same, hself, own, hown, hleads⟩ :=
    leadsTo_of_waitsFor haccounted haligned (reflTransGen_of_waitsOn hwaits) hother hframe
  obtain rfl := Option.some.inj (hworker.symm.trans hself)
  rw [hsame, hid] at hleads
  exact ⟨own, hown, hleads⟩

/-! ## Deferred references -/

theorem deed_of_deferrals {deferral : Deferral}
    (h : (w.perform k deed).deferrals = w.deferrals ++ [deferral]) : deed = .deferred deferral := by
  cases deed with
  | deferred other =>
    obtain rfl : other = deferral := by simpa [perform] using h
    rfl
  | _ => simp [perform] at h

/-- A worker has an instance in hand itself, or another one has it who waits for the worker. -/
inductive Entangled (w : Workshop) (k : Nat) (worker : Worker) (id : Int) : Prop
  | own {frame : Frame} (hframe : frame ∈ worker.frames) (hid : frame.id = id)
  | other {job : Job} (hjob : w.job? id = some job) (hopen : job.isOpen = true)
      (hother : job.owner ≠ k) (hwaits : Relation.TransGen w.WaitsFor job.owner k)

/-- The job that a worker has found for an instance has been given up. -/
def Outdated (w : Workshop) (worker : Worker) (id : Int) : Prop :=
  ∃ n job, worker.activity = .joining n ∧ w.jobs[n]? = some job ∧ job.id = id ∧
    job.isGivenUp = true

/-- A reference that is deferred is on a circle of references, unless the job that was found has
been given up. -/
theorem reason_of_acts (haccounted : w.Accounted) (haligned : w.Aligned)
    (hworker : w.workers[k]? = some worker) {deferral : Deferral}
    (hacts : w.Acts k worker (.deferred deferral) next) :
    (w.Entangled k worker deferral.id ∧
      w.basis.population.Refers deferral.referrer deferral.id ∧
      w.basis.population.LeadsTo deferral.id deferral.referrer) ∨
    w.Outdated worker deferral.id := by
  have honPass := haligned hworker
  cases hacts with
  | @deferred n job referrer path hactivity hjob hanswer hother hwaits hpath =>
    have hid := (haccounted.attends hworker).id_of_joining hactivity hjob
    rcases Job.isOpen_or_isGivenUp hanswer with hopen | hgiven
    · have hknown := haccounted.job?_eq_some hjob (Job.isGivenUp_of_isOpen hopen)
      rw [hid] at hknown
      have hpassed := reflTransGen_of_waitsOn hwaits
      have htrans := (Relation.reflTransGen_iff_eq_or_transGen.mp hpassed).resolve_left hother.symm
      obtain ⟨frame, hframe, hleads⟩ :=
        leadsTo_of_waitsOn haccounted haligned hworker hjob hopen hid hwaits
      rw [Worker.frames_of_apart (by simp [hactivity])] at hframe
      rw [honPass.pass_eq] at hpath
      have hhead : (Worker.path worker.stack).head? = some referrer := congrArg List.head? hpath
      refine .inl ⟨.other hknown hopen hother htrans, ?_, ?_⟩
      · rw [Worker.target_eq]
        exact honPass.lined.refers referrer hhead
      · exact hleads.trans (honPass.lined.leads_head (Worker.mem_path hframe) hhead)
    · exact .inr ⟨n, job, hactivity, hjob, hid, hgiven⟩
  | followed hactivity hfollowed =>
    obtain ⟨hstands, htarget, hrest⟩ := honPass.building hactivity
    cases hfollowed with
    | @back r hrecord hmem =>
      rw [hstands.pass] at hmem
      cases hrest with
      | visit hid hstops hnext =>
        have hrefers : w.basis.population.Refers _ _ := ⟨_, hstands.record, hid⟩
        rcases List.mem_cons.mp hmem with rfl | hmem
        · exact .inl ⟨.own (by simp [Worker.frames_of_building hactivity]) rfl, hrefers, .refl⟩
        · obtain ⟨waiting, hwaiting, rfl⟩ := List.mem_map.mp hmem
          have hleads := honPass.lined.leads hmem
          rw [← Worker.target_eq, ← htarget] at hleads
          refine .inl ⟨.own ?_ rfl, hrefers, hleads.to_reflTransGen⟩
          rw [Worker.frames_of_building hactivity]
          exact List.mem_cons_of_mem _ (List.mem_map_of_mem hwaiting)

end Workshop

end Part21
