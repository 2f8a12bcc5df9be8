import Part21.Proofs.Resolution.Outcome
import Part21.Proofs.Workshop.Passes
import Part21.Proofs.Workshop.Permanence

set_option autoImplicit false

/-!
# Agreement of workers

Where references lead in no circle and not too deep, what comes of an instance by itself does not
depend on who resolves it, nor on what others do meanwhile.  A worker who builds an instance and
asks for another one is answered what comes of that one, so at any time the outcome of a building
can be foretold (`Basis.foretold`).

This is so for instances that come to something that is kept, an instance or an error.  An
instance is given up if the conversion of its parameters has no end.  Somebody else may then take
the job for an open one, and nothing is said of such instances, nor of those that refer to them and
are given up for their sake.
-/

namespace Part21

namespace Basis

/-! ## What comes of instances -/

/-- What comes of an instance by itself, as far as the limit allows. -/
def outcomeAlone (b : Basis) (id : Int) : Except Thrown Instance :=
  b.outcomeWithin b.settings.maxDepth id

/-- What comes of an instance is kept. -/
def Firm (b : Basis) (id : Int) : Prop := ¬ Thrown.GivesUp (b.outcomeAlone id)

/-- What comes of a building, if the outcomes of instances are given. -/
def foretold (b : Basis) (answer : Int → Except Thrown Instance) (rest : Build Instance) :
    Except Thrown Instance :=
  (rest.run (fun id expected place (_ : Unit) => (b.linkOutcome answer ⟨id, expected, place⟩, ()))
    (fun id _ => (answer id, ())) ()).1

/-- Instances are built by default, and references lead in no circle and not too deep. -/
structure Graded (b : Basis) : Prop where
  byDefault : b.ByDefault none
  acyclic : ∀ id, ¬ b.population.OnCycle id
  within : ∀ id, b.population.PathsWithin b.settings.maxDepth id

variable {b : Basis} {id : Int} {r : Record} {answer : Int → Except Thrown Instance}

theorem visitAll_linkOutcome (links : List Link) :
    (Build.visitAll (fun id expected place (_ : Unit) =>
      (b.linkOutcome answer ⟨id, expected, place⟩, ())) links ()).1 =
        Link.testAll (b.linkOutcome answer) links := by
  induction links with
  | nil => rfl
  | cons l rest ih =>
    rw [Build.visitAll, Link.testAll]
    cases b.linkOutcome answer l with
    | error thrown => rfl
    | ok done => exact ih

/-- From its beginning, a building comes to what comes of its record. -/
theorem foretold_build (h : b.ByDefault none) {site : Site} (hregistry : site.registry = b.registry)
    (hsettings : site.settings = b.settings) (r : Record) :
    (b.ending site.id r (b.foretold answer (b.build none site r))).outcome =
      b.recordOutcome answer site.id r := by
  rw [build_eq h hregistry hsettings]
  unfold recordOutcome
  cases b.hold none site.id r with
  | error thrown => rfl
  | ok held =>
    have hafter : b.foretold answer
        (Build.after held.links (.done (.ok (held.toInstance b.registry site.id)))) =
          (Link.testAll (b.linkOutcome answer) held.links).map fun _ =>
            held.toInstance b.registry site.id := by
      rw [foretold, Build.run_after_done, visitAll_linkOutcome]
      cases Link.testAll (b.linkOutcome answer) held.links <;> rfl
    dsimp only
    rw [← hafter]
    rfl

/-- What is kept of an attempt is its outcome. -/
theorem answer?_ending {outcome : Except Thrown Instance}
    (h : ¬ Thrown.GivesUp (b.ending id r outcome).outcome) :
    (b.ending id r outcome).answer? = some (b.ending id r outcome).outcome := by
  cases outcome with
  | ok value => rfl
  | error thrown =>
    rcases b.ending_error_cases id r thrown with ⟨-, -, hgiven⟩ | ⟨-, error, hfailed⟩
    · exact absurd hgiven h
    · rw [hfailed]
      rfl

namespace Graded

theorem shallow (h : b.Graded) (id : Int) : b.population.Shallow b.settings.maxDepth id :=
  Population.shallow_of_acyclic (fun other _ => h.acyclic other) (h.within id)

theorem handOnAll (h : b.Graded) : b.makers.HandOnAll := by
  intro key
  rw [h.byDefault.makers key]
  exact Maker.handsOn_default _

theorem outcomeAlone_of_find? (h : b.Graded) (hr : b.population.find? id = some r) :
    b.outcomeAlone id = b.recordOutcome b.outcomeAlone id r := by
  have hstable := b.outcomeWithin_stable hr (h.shallow id) (Nat.le_refl _)
    (Nat.le_succ b.settings.maxDepth)
  rw [outcomeAlone, hstable, outcomeWithin_of_find? hr]
  rfl

end Graded

theorem outcomeAlone_of_missing (hr : b.population.find? id = none) :
    b.outcomeAlone id = .error (.reason (.unresolved id)) := by
  obtain ⟨levels, hlevels⟩ := Nat.exists_eq_add_one_of_ne_zero (Nat.ne_of_gt b.settings.one_le)
  rw [outcomeAlone, hlevels, outcomeWithin, hr]

/-- If what comes of a building is kept, then so is what comes of the instances that it asks for. -/
theorem firm_of_foretold {target : Int} {expected : TypeDef} {place : Text}
    {next : Except Thrown Unit → Build Instance} {targets : List Int} {kind : Thrown → Prop}
    (hrest : (Build.visit target expected place next).HandsOn targets kind)
    (hforetold : (b.ending id r
      (b.foretold b.outcomeAlone (.visit target expected place next))).outcome = b.outcomeAlone id)
    (hfirm : b.Firm id) : b.Firm target := by
  rintro ⟨thrown, hthrown, hgiven⟩
  cases hfind : b.population.find? target with
  | none =>
    rw [outcomeAlone_of_missing hfind] at hthrown
    obtain rfl := Except.error.inj hthrown
    cases hgiven
  | some record =>
    have hlink : b.linkOutcome b.outcomeAlone ⟨target, expected, place⟩ = .error thrown := by
      simp [linkOutcome, hfind, hthrown]
    have herror : b.foretold b.outcomeAlone (.visit target expected place next) = .error thrown := by
      cases hrest with
      | visit hid hstops hnext => simp [foretold, Build.run, hlink, hstops]
    rw [herror] at hforetold
    rcases b.ending_error_cases id r thrown with ⟨-, -, hgivesUp⟩ | ⟨hkept, -⟩
    · exact hfirm (hforetold ▸ hgivesUp)
    · rw [hgiven] at hkept
      cases hkept

end Basis

/-! ## What agrees -/

/-- What a building goes on with behind an answer, as it was before it asked. -/
def Continuation.rest : Continuation → Build Instance
  | .visit target _ expected place next => .visit target expected place next
  | .resolve target next => .resolve target next

/-- If what comes of its instance is kept, a job was not given up, and its answer is that. -/
def Job.Agrees (b : Basis) (job : Job) : Prop :=
  b.Firm job.id → job.isGivenUp = false ∧
    ∀ answer, job.answer? = some answer → answer = b.outcomeAlone job.id

theorem Job.Agrees.not_firm {b : Basis} {job : Job} (h : job.Agrees b)
    (hgiven : job.isGivenUp = true) : ¬ b.Firm job.id := by
  intro hfirm
  rw [(h hfirm).1] at hgiven
  cases hgiven

/-- If what comes of its instance is kept, a building comes to that. -/
def Frame.Agrees (b : Basis) (frame : Frame) (rest : Build Instance) : Prop :=
  b.Firm frame.id →
    (b.ending frame.id frame.record (b.foretold b.outcomeAlone rest)).outcome =
      b.outcomeAlone frame.id

namespace Workshop

variable {b : Basis} {w u : Workshop} {k : Nat} {worker next : Worker} {deed : Deed} {id : Int}
  {outcome : Except Thrown Instance}

/-- If what comes of an instance is kept, an outcome is that, and it is known. -/
def Settles (b : Basis) (w : Workshop) (id : Int) (outcome : Except Thrown Instance) : Prop :=
  b.Firm id → outcome = b.outcomeAlone id ∧
    (b.population.contains id = true → (w.standing id).answer? = some outcome)

/-- The buildings of a worker, the answer that it has been given and the outcomes of its errands
agree with what comes of instances. -/
structure WorkerAgrees (b : Basis) (w : Workshop) (worker : Worker) : Prop where
  waiting : ∀ waiting ∈ worker.stack, waiting.1.Agrees b waiting.2.rest
  building : ∀ {frame : Frame} {rest : Build Instance}, worker.activity = .building frame rest →
    frame.Agrees b rest
  answering : ∀ {reply : Reply}, worker.activity = .answering reply → b.Firm worker.target →
    ∃ outcome, reply = .outcome outcome ∧ Settles b w worker.target outcome
  outcomes : ∀ entry ∈ worker.outcomes, Settles b w entry.1 entry.2

/-- All that workers do agrees with what comes of instances. -/
structure Agrees (b : Basis) (w : Workshop) : Prop where
  basis : w.basis = b
  jobs : ∀ {n : Nat} {job : Job}, w.jobs[n]? = some job → job.Agrees b
  workers : ∀ {k : Nat} {worker : Worker}, w.workers[k]? = some worker → WorkerAgrees b w worker
  deferrals : ∀ deferral ∈ w.deferrals, ¬ b.Firm deferral.id

theorem Settles.mono (h : Settles b w id outcome) (hcontinues : Continues w u) :
    Settles b u id outcome := by
  intro hfirm
  obtain ⟨houtcome, hknown⟩ := h hfirm
  refine ⟨houtcome, fun hrecord => ?_⟩
  have hanswer := hknown hrecord
  rw [answer?_standing] at hanswer ⊢
  obtain ⟨job, hjob, hsays⟩ := Option.bind_eq_some_iff.mp hanswer
  rw [hcontinues.job? hjob hsays]
  exact hsays

theorem WorkerAgrees.mono (h : WorkerAgrees b w worker) (hcontinues : Continues w u) :
    WorkerAgrees b u worker where
  waiting := h.waiting
  building := h.building
  answering hactivity hfirm := by
    obtain ⟨outcome, hreply, hsettles⟩ := h.answering hactivity hfirm
    exact ⟨outcome, hreply, hsettles.mono hcontinues⟩
  outcomes entry hmem := (h.outcomes entry hmem).mono hcontinues

theorem WorkerAgrees.turnTo (h : WorkerAgrees b w worker) {activity : Activity}
    (hbuilding : ∀ {frame rest}, activity = .building frame rest → frame.Agrees b rest)
    (hanswering : ∀ {reply}, activity = .answering reply → b.Firm worker.target →
      ∃ outcome, reply = .outcome outcome ∧ Settles b w worker.target outcome) :
    WorkerAgrees b w (worker.turnTo activity) :=
  ⟨h.waiting, hbuilding, hanswering, h.outcomes⟩

/-- The answer of a job is what comes of its instance. -/
theorem settles_of_answer? (haccounted : w.Accounted) {n : Nat} {job : Job}
    (hjob : w.jobs[n]? = some job) (hagrees : job.Agrees b) (hanswer : job.answer? = some outcome) :
    Settles b w job.id outcome := by
  intro hfirm
  refine ⟨(hagrees hfirm).2 outcome hanswer, fun _ => ?_⟩
  rw [answer?_standing, haccounted.job?_eq_some hjob (Job.isGivenUp_of_answer? hanswer)]
  exact hanswer

/-! ## Steps -/

/-- Without circles, a job that looks as if its owner waited for the one who has found it was given
up. -/
theorem isGivenUp_of_waitsOn (hgraded : b.Graded) (hbasis : w.basis = b) (haccounted : w.Accounted)
    (haligned : w.Aligned) (hworker : w.workers[k]? = some worker) {n : Nat} {job : Job}
    (hactivity : worker.activity = .joining n) (hjob : w.jobs[n]? = some job)
    (hid : job.id = worker.target) (hanswer : job.answer? = none)
    (hwaits : w.waitsOn job.owner k = true) : job.isGivenUp = true := by
  refine (Job.isOpen_or_isGivenUp hanswer).resolve_left fun hopen => ?_
  obtain ⟨own, hown, hleads⟩ :=
    leadsTo_of_waitsOn haccounted haligned hworker hjob hopen hid hwaits
  have hback := (haligned hworker).frame_leads (by simp [hactivity]) hown
  rw [hbasis] at hleads hback
  exact hgraded.acyclic worker.target (hback.trans_right hleads)

/-- A worker that is answered learns what comes of the instance. -/
theorem settles_of_answered (hgraded : b.Graded) (haccounted : w.Accounted) (haligned : w.Aligned)
    (hagrees : Agrees b w) (hworker : w.workers[k]? = some worker)
    (h : w.Answered k worker outcome) : Settles b w worker.target outcome := by
  have hattends := haccounted.attends hworker
  cases h with
  | missing hactivity hrecord =>
    rw [hagrees.basis] at hrecord
    refine fun _ => ⟨(Basis.outcomeAlone_of_missing hrecord).symm, fun hcontains => ?_⟩
    rw [Population.contains, hrecord] at hcontains
    cases hcontains
  | kept hactivity hjob hanswer =>
    rw [← hattends.id_of_joining hactivity hjob]
    exact settles_of_answer? haccounted hjob (hagrees.jobs hjob) hanswer
  | @own n job hactivity hjob hanswer howner =>
    have hid := hattends.id_of_joining hactivity hjob
    rcases Job.isOpen_or_isGivenUp hanswer with hopen | hgiven
    · -- A worker does not ask for what it has in hand itself.
      obtain ⟨other, hother, frame, hframe, hsame⟩ := haccounted.exists_frame hjob hopen
      rw [howner, hworker] at hother
      obtain rfl := Option.some.inj hother
      rw [Worker.frames_of_apart (by simp [hactivity])] at hframe
      have hmem := Worker.mem_path hframe
      rw [hsame, hid, Worker.target_eq] at hmem
      exact absurd hmem (haligned hworker).lined.not_mem
    · exact fun hfirm => absurd (hid ▸ hfirm) ((hagrees.jobs hjob).not_firm hgiven)
  | @held n job hactivity hjob hanswer hother hwaits hpath =>
    have hid := hattends.id_of_joining hactivity hjob
    have hgiven := isGivenUp_of_waitsOn hgraded hagrees.basis haccounted haligned hworker hactivity
      hjob hid hanswer hwaits
    exact fun hfirm => absurd (hid ▸ hfirm) ((hagrees.jobs hjob).not_firm hgiven)
  | @told n job hactivity hjob =>
    obtain ⟨same, hown, hid, hclosed⟩ := hattends.leaving hactivity
    obtain rfl := Option.some.inj (hjob.symm.trans hown)
    cases hanswer : job.answer? with
    | some answer =>
      rw [told, hanswer, Option.getD_some, ← hid]
      exact settles_of_answer? haccounted hjob (hagrees.jobs hjob) hanswer
    | none =>
      have hgiven := (Job.isOpen_or_isGivenUp hanswer).resolve_left (by simp [hclosed])
      exact fun hfirm => absurd (hid ▸ hfirm) ((hagrees.jobs hjob).not_firm hgiven)

/-- A reference that is deferred leads to an instance of which nothing is kept. -/
theorem not_firm_of_deferred (hgraded : b.Graded) (haccounted : w.Accounted)
    (haligned : w.Aligned) (hagrees : Agrees b w) (hworker : w.workers[k]? = some worker)
    {deferral : Deferral} (hacts : w.Acts k worker (.deferred deferral) next) :
    ¬ b.Firm deferral.id := by
  rcases reason_of_acts haccounted haligned hworker hacts with
    ⟨-, hrefers, hleads⟩ | ⟨n, job, -, hjob, hid, hgiven⟩
  · rw [hagrees.basis] at hrefers hleads
    exact absurd (Relation.TransGen.head' hrefers hleads) (hgraded.acyclic _)
  · exact hid ▸ (hagrees.jobs hjob).not_firm hgiven

/-- A building that learns at once what comes of a reference, learns what comes of it by itself. -/
theorem eq_linkOutcome_of_followed (hgraded : b.Graded) {frame : Frame} {below : List Int}
    {expected : TypeDef} {place : Text} {rest : Except Thrown Unit → Build Instance}
    {answer : Except Thrown Unit} (hstands : b.Stands below frame)
    (hrest : (Build.visit id expected place rest).HandsOn frame.record.references fun _ => True)
    (h : Followed b frame id expected place deed answer) :
    answer = b.linkOutcome b.outcomeAlone ⟨id, expected, place⟩ := by
  have hrefers : b.population.Refers frame.id id := by
    cases hrest with
    | visit hid hstops hnext => exact ⟨frame.record, hstands.record, hid⟩
  have hlast : ∀ referrer ∈ (frame.id :: below).head?, b.population.Refers referrer id := by
    intro referrer hhead
    obtain rfl : frame.id = referrer := Option.some.inj hhead
    exact hrefers
  cases h with
  | missing hrecord => simp [Basis.linkOutcome, hrecord]
  | back hrecord hmem =>
    rw [hstands.pass] at hmem
    exact absurd (hstands.isPath.leads hlast id hmem) (hgraded.acyclic id)
  | refused hrecord hnew hlimit =>
    rw [hstands.pass] at hnew hlimit
    have hpath := hstands.isPath.extend hlast (Population.contains_of_find? hrecord) hnew
    obtain ⟨root, hroot⟩ : ∃ root, (id :: frame.id :: below).reverse.head? = some root := by
      simp
    have hlength := hgraded.within root _ hroot hpath
    simp at hlength hlimit
    omega

/-- Whatever comes of the building that a worker closes, agrees. -/
theorem settles_of_closed (hbasis : w.basis = b) (haccounted : w.Accounted)
    (hworker : w.workers[k]? = some worker) {frame : Frame}
    (hactivity : worker.activity = .building frame (.done outcome))
    (hagrees : frame.Agrees b (.done outcome)) :
    (⟨frame.id, k, some (b.ending frame.id frame.record outcome)⟩ : Job).Agrees b ∧
    Settles b
      ((w.perform k (.closed frame (b.ending frame.id frame.record outcome))).setWorker k
        (worker.turnTo
          (.answering (.outcome (b.ending frame.id frame.record outcome).outcome))))
      frame.id (b.ending frame.id frame.record outcome).outcome := by
  subst hbasis
  have hafter := haccounted.acts hworker (.closed hactivity)
  have hframe := (haccounted.holds hworker).owned frame
    (by simp [Worker.frames_of_building hactivity])
  have hkept : w.basis.Firm frame.id →
      (w.basis.ending frame.id frame.record outcome).answer? =
        some (w.basis.outcomeAlone frame.id) ∧
      (w.basis.ending frame.id frame.record outcome).outcome = w.basis.outcomeAlone frame.id := by
    intro hfirm
    have hequal : (w.basis.ending frame.id frame.record outcome).outcome =
        w.basis.outcomeAlone frame.id := hagrees hfirm
    refine ⟨?_, hequal⟩
    rw [← hequal]
    exact Basis.answer?_ending (hequal ▸ hfirm)
  constructor
  · intro hfirm
    obtain ⟨hanswer, -⟩ := hkept hfirm
    simp [Job.isGivenUp, Job.answer?, hanswer]
  · intro hfirm
    obtain ⟨hanswer, hequal⟩ := hkept hfirm
    refine ⟨hequal, fun _ => ?_⟩
    have hjob : ((w.perform k (.closed frame
        (w.basis.ending frame.id frame.record outcome))).setWorker k (worker.turnTo
          (.answering (.outcome (w.basis.ending frame.id frame.record outcome).outcome)))).jobs[
            frame.job]? =
        some ⟨frame.id, k, some (w.basis.ending frame.id frame.record outcome)⟩ := by
      rw [jobs_setWorker, jobs_closed, if_pos rfl, hframe]
      rfl
    have hknown := hafter.job?_eq_some hjob (by simp [Job.isGivenUp, Job.answer?, hanswer])
    rw [answer?_standing, hknown, hequal]
    exact hanswer

/-- A building that is answered what comes of the instance goes on as it was foretold. -/
theorem foretold_resume {frame : Frame} {target : Int} {r : Record} {expected : TypeDef}
    {place : Text} {rest : Except Thrown Unit → Build Instance}
    (hpass : frame.pass.brought = none) (hrecord : w.basis.population.find? target = some r) :
    w.basis.foretold w.basis.outcomeAlone
        (w.resume frame (.outcome (w.basis.outcomeAlone target))
          (.visit target r expected place rest)) =
      w.basis.foretold w.basis.outcomeAlone (.visit target expected place rest) := by
  rw [Basis.foretold, Basis.foretold, Build.run, resume, Reply.received]
  cases houtcome : w.basis.outcomeAlone target <;>
    simp [Basis.linkOutcome, hrecord, houtcome, hpass]

/-- A building that is answered what comes of the instance goes on in agreement. -/
theorem agrees_resumed {frame : Frame} {continuation : Continuation} {reply : Reply}
    (hpass : frame.pass.brought = none) (hawaits : w.basis.Awaits frame continuation)
    (hframe : frame.Agrees w.basis continuation.rest)
    (hreply : w.basis.Firm continuation.target →
      reply = .outcome (w.basis.outcomeAlone continuation.target)) :
    frame.Agrees w.basis (w.resume frame reply continuation) := by
  intro hfirm
  cases hawaits with
  | visit hrecord hnew hrest =>
    obtain rfl := hreply (Basis.firm_of_foretold hrest (hframe hfirm) hfirm)
    rw [Continuation.target, foretold_resume hpass hrecord]
    exact hframe hfirm

/-- A building that is begun agrees. -/
theorem agrees_begun {r : Record} (hgraded : w.basis.Graded)
    (hrecord : w.basis.population.find? worker.target = some r) :
    (w.begun worker r).Agrees w.basis
      (w.basis.build none (w.siteOf (w.begun worker r)) r) := by
  intro hfirm
  let site := w.siteOf (w.begun worker r)
  have hbuild : (w.basis.ending site.id r
      (w.basis.foretold w.basis.outcomeAlone (w.basis.build none site r))).outcome =
        w.basis.recordOutcome w.basis.outcomeAlone site.id r :=
    Basis.foretold_build hgraded.byDefault rfl rfl r
  exact hbuild.trans (hgraded.outcomeAlone_of_find? hrecord).symm

/-- The worker who acts goes on in agreement. -/
theorem workerAgrees_of_acts (hgraded : b.Graded) (haccounted : w.Accounted)
    (haligned : w.Aligned) (hagrees : Agrees b w) (hworker : w.workers[k]? = some worker)
    (hacts : w.Acts k worker deed next) :
    WorkerAgrees b ((w.perform k deed).setWorker k next) next := by
  have hcontinues := haccounted.continues hworker hacts
  have hold := (hagrees.workers hworker).mono hcontinues
  have honPass := haligned hworker
  have hbasis := hagrees.basis
  cases hacts with
  | started hactivity herrands => exact ⟨hold.waiting, nofun, nofun, hold.outcomes⟩
  | answered h =>
    refine hold.turnTo nofun fun hreply _ => ?_
    obtain rfl := Activity.answering.inj hreply
    have hsettles := settles_of_answered hgraded haccounted haligned hagrees hworker h
    exact ⟨_, rfl, hsettles.mono hcontinues⟩
  | deferred hactivity hjob hanswer hother hwaits hpath =>
    refine hold.turnTo nofun fun _ hfirm => absurd hfirm ?_
    exact not_firm_of_deferred hgraded haccounted haligned hagrees hworker
      (.deferred hactivity hjob hanswer hother hwaits hpath)
  | @opened r hactivity hrecord hjob =>
    refine hold.turnTo (fun hbuilding => ?_) nofun
    obtain ⟨rfl, rfl⟩ := Activity.building.inj hbuilding
    subst hbasis
    rw [honPass.pass_eq]
    exact agrees_begun hgraded hrecord
  | @closed frame outcome hactivity =>
    obtain ⟨-, htarget, -⟩ := honPass.building hactivity
    refine hold.turnTo nofun fun hreply _ => ?_
    obtain rfl := Activity.answering.inj hreply
    subst hbasis
    obtain ⟨-, hsettles⟩ := settles_of_closed rfl haccounted hworker hactivity
      (hold.building hactivity)
    rw [← htarget]
    exact ⟨_, rfl, hsettles⟩
  | asked hactivity hasks =>
    have hframe := hold.building hactivity
    refine ⟨?_, nofun, nofun, hold.outcomes⟩
    cases hasks <;> exact List.forall_mem_cons.mpr ⟨hframe, hold.waiting⟩
  | followed hactivity hfollowed =>
    obtain ⟨hstands, -, hrest⟩ := honPass.building hactivity
    have hframe := hold.building hactivity
    refine hold.turnTo (fun hbuilding => ?_) nofun
    obtain ⟨rfl, rfl⟩ := Activity.building.inj hbuilding
    subst hbasis
    rw [eq_linkOutcome_of_followed hgraded hstands hrest hfollowed]
    exact hframe
  | @resumed frame continuation below reply hactivity hstack =>
    have hlined := honPass.lined
    have hwaiting := hold.waiting
    rw [hstack] at hlined hwaiting
    obtain ⟨hframe, hbelow⟩ := List.forall_mem_cons.mp hwaiting
    refine ⟨hbelow, fun hbuilding => ?_, nofun, hold.outcomes⟩
    obtain ⟨rfl, rfl⟩ := Activity.building.inj hbuilding
    obtain ⟨hstands, hawaits, -, -⟩ := hlined
    have hsame : worker.target = continuation.target := by
      rw [Worker.target_eq, hstack]
      rfl
    subst hbasis
    refine agrees_resumed (by rw [hstands.pass]) hawaits hframe fun htarget => ?_
    rw [← hsame] at htarget ⊢
    obtain ⟨outcome, rfl, hsettles⟩ := hold.answering hactivity htarget
    rw [(hsettles htarget).1]
  | finished hactivity hstack =>
    have hsame : worker.target = worker.errand := by rw [Worker.target_eq, hstack]; rfl
    refine ⟨hold.waiting, nofun, nofun, ?_⟩
    intro entry hmem
    rcases List.mem_append.mp hmem with hmem | hmem
    · exact hold.outcomes entry hmem
    · obtain rfl := List.mem_singleton.mp hmem
      intro hfirm
      obtain ⟨outcome, rfl, hsettles⟩ := hold.answering hactivity (hsame ▸ hfirm)
      rw [hsame] at hsettles
      exact hsettles hfirm
  | _ => exact hold.turnTo nofun nofun

theorem jobAgrees_of_acts (haccounted : w.Accounted) (hagrees : Agrees b w)
    (hworker : w.workers[k]? = some worker) (hacts : w.Acts k worker deed next) {n : Nat} {job : Job}
    (hjob : (w.perform k deed).jobs[n]? = some job) : job.Agrees b := by
  cases hacts with
  | opened hactivity hrecord hnew =>
    rw [jobs_opened] at hjob
    split at hjob
    · obtain rfl := Option.some.inj hjob
      refine fun _ => ⟨Job.isGivenUp_of_isOpen rfl, fun answer hanswer => ?_⟩
      rw [Job.answer?_of_isOpen rfl] at hanswer
      cases hanswer
    · exact hagrees.jobs hjob
  | @closed frame outcome hactivity =>
    rw [hagrees.basis] at hjob
    rw [jobs_closed] at hjob
    split at hjob
    · subst n
      have hframe := (haccounted.holds hworker).owned frame
        (by simp [Worker.frames_of_building hactivity])
      rw [hframe] at hjob
      obtain rfl := Option.some.inj hjob
      exact (settles_of_closed hagrees.basis haccounted hworker hactivity
        ((hagrees.workers hworker).building hactivity)).1
    · exact hagrees.jobs hjob
  | followed hactivity hfollowed => cases hfollowed <;> exact hagrees.jobs hjob
  | _ => exact hagrees.jobs hjob

/-- Every step leaves workers in agreement. -/
theorem Agrees.step (hgraded : b.Graded) (haccounted : w.Accounted) (haligned : w.Aligned)
    (hagrees : Agrees b w) (hstep : w.step? k = some u) : Agrees b u := by
  obtain ⟨worker, deed, next, hworker, hacts, rfl⟩ := exists_acts hstep
  have hcontinues := haccounted.continues hworker hacts
  refine ⟨hcontinues.basis.trans hagrees.basis, ?_, ?_, ?_⟩
  · exact fun hjob => jobAgrees_of_acts haccounted hagrees hworker hacts hjob
  · refine forall_workers (P := fun _ => WorkerAgrees b _) hworker ?_ ?_
    · exact workerAgrees_of_acts hgraded haccounted haligned hagrees hworker hacts
    · exact fun l other _ hother => (hagrees.workers hother).mono hcontinues
  · intro deferral hmem
    rw [deferrals_setWorker] at hmem
    cases deed with
    | deferred own =>
      rcases List.mem_append.mp hmem with hmem | hmem
      · exact hagrees.deferrals deferral hmem
      · obtain rfl := List.mem_singleton.mp hmem
        exact not_firm_of_deferred hgraded haccounted haligned hagrees hworker hacts
    | _ => exact hagrees.deferrals deferral hmem

/-- Workers who have not begun agree with what comes of instances, if the table does. -/
theorem agrees_opened {t : Table} (hgraded : t.basis.Graded)
    (hremembers : t.basis.Remembers t.progress) (errands : List (List Int)) :
    Agrees t.basis (opened t errands) := by
  refine ⟨rfl, fun hjob _ => ?_, fun hworker => ?_, nofun⟩
  · have hmem := List.mem_of_getElem? hjob
    obtain ⟨answer, hanswer⟩ := Table.answer?_of_mem_jobs hmem
    refine ⟨Job.isGivenUp_of_answer? hanswer, fun own hown => ?_⟩
    obtain ⟨-, ⟨value, hstanding, hending⟩ | ⟨error, hstanding, hending⟩⟩ := Table.of_mem_jobs hmem
    · obtain rfl : .ok value = own := by simpa [Job.answer?, hending, Ending.answer?] using hown
      exact (hremembers.resolved hstanding (hgraded.shallow _) (Nat.le_refl _)).symm
    · obtain rfl : .error (.resolution error) = own := by
        simpa [Job.answer?, hending, Ending.answer?] using hown
      exact (hremembers.failed hstanding (hgraded.shallow _) (Nat.le_refl _)).symm
  · obtain ⟨own, -, rfl⟩ := worker_of_opened hworker
    constructor
    · intro waiting hmem
      cases hmem
    · intro frame rest hactivity
      cases hactivity
    · intro reply hactivity
      cases hactivity
    · intro entry hmem
      cases hmem

/-- Wherever workers come to, they agree with what comes of instances. -/
theorem agrees {t : Table} (hgraded : t.basis.Graded) (hremembers : t.basis.Remembers t.progress)
    {errands : List (List Int)} (h : Reaches (opened t errands) w) : Agrees t.basis w := by
  have hall : (w.basis = t.basis ∧ w.Accounted ∧ w.Aligned) ∧ Agrees t.basis w := by
    refine h.invariant (P := fun w => (w.basis = t.basis ∧ w.Accounted ∧ w.Aligned) ∧
      Agrees t.basis w) ?_ ⟨aligned hgraded.handOnAll (.refl _), agrees_opened hgraded hremembers _⟩
    rintro w u k ⟨⟨hbasis, haccounted, haligned⟩, hagrees⟩ hstep
    refine ⟨⟨?_, haccounted.step hstep, ?_⟩, hagrees.step hgraded haccounted haligned hstep⟩
    · exact (haccounted.continues_of_reaches (.single hstep)).basis.trans hbasis
    · exact aligned_step (hbasis ▸ hgraded.handOnAll) haccounted haligned hstep
  exact hall.2

end Workshop

end Part21
