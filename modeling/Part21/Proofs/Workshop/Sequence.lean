import Part21.Proofs.Resolution.Filling
import Part21.Proofs.Workshop.Agreement

set_option autoImplicit false

/-!
# Workers and requests in a row

Workers who have done their errands have found out what requests for the same instances, one after
another, find out (`Workshop.outcomes_agree`): each of them has seen the outcomes that the requests
have, and the instances stand as they stand behind the requests.  References lead in no circle and
not too deep here, and nothing is said of instances that are given up
(`Workshop.not_outcomes_agree`).
-/

namespace Part21

theorem Standing.eq_of_answer? {s u : Standing} {answer : Except Thrown Instance}
    (hs : s.answer? = some answer) (hu : u.answer? = some answer) : s = u := by
  cases s <;> cases hs <;> cases u <;> simp_all [Standing.answer?]

theorem Ending.answer?_standing (ending : Ending) : ending.standing.answer? = ending.answer? := by
  cases ending <;> rfl

/-- What has been found out for good stays as it is. -/
theorem Progress.Keeps.standing_eq {p q : Progress} (h : p.Keeps q) {id : Int}
    {answer : Except Thrown Instance} (hanswer : (p.standing id).answer? = some answer) :
    q.standing id = p.standing id := by
  cases hstanding : p.standing id with
  | resolved value => exact h.resolved hstanding
  | failed error => exact h.failed hstanding
  | unvisited | inProgress =>
    rw [hstanding] at hanswer
    cases hanswer

/-- An outcome that is not given up is known from then on. -/
theorem Basis.answer?_resolve {b : Basis} {id : Int} {r : Record} {p : Progress}
    (hr : b.population.find? id = some r) (hclosed : p.standing id ≠ .inProgress)
    (hkept : ¬ Thrown.GivesUp (b.resolve none id p).1) :
    ((b.resolve none id p).2.standing id).answer? = some (b.resolve none id p).1 := by
  unfold resolve nesting enter at hkept ⊢
  rw [hr] at hkept ⊢
  cases hstanding : p.standing id with
  | inProgress => exact absurd hstanding hclosed
  | resolved value | failed error =>
    simp only [hstanding]
    rfl
  | unvisited =>
    simp only [hstanding] at hkept ⊢
    rw [Progress.standing_finish_self, Ending.answer?_standing]
    exact answer?_ending hkept

/-- Where every record refers to instances of smaller names, references lead in no circle. -/
theorem Population.not_onCycle_of_backward {records : Population}
    (hbackward : ∀ entry ∈ records.entries, ∀ target ∈ entry.2.references, target < entry.1)
    (id : Int) : ¬ records.OnCycle id := by
  have hrefers : ∀ referrer target, records.Refers referrer target → referrer > target := by
    rintro referrer target ⟨r, hr, hmem⟩
    exact hbackward (referrer, r) (Population.find?_eq_some.mp hr) target hmem
  intro hcycle
  have hgreater : Relation.TransGen (· > ·) id id := Relation.TransGen.mono hrefers id id hcycle
  rw [Relation.transGen_eq_self] at hgreater
  exact Int.lt_irrefl id hgreater

/-! ## Requests in a row -/

namespace Table

variable {registry : Registry} {settings : Settings} {t : Table} {id : Int} {r : Record}

/-- Requests for instances, one after another. -/
def inTurn (ids : List Int) : List Request := ids.map fun id => .resolve id none

theorem basis_session_inTurn (t : Table) (ids : List Int) :
    (t.session (inTurn ids)).basis = t.basis := by
  induction ids generalizing t with
  | nil => rfl
  | cons id ids ih => exact (ih _).trans (t.basis_resolve id none)

namespace Mindful

theorem session_inTurn (h : t.Mindful registry settings) (ids : List Int) :
    (t.session (inTurn ids)).Mindful registry settings := by
  refine h.session fun q hmem => ?_
  obtain ⟨id, -, rfl⟩ := List.mem_map.mp hmem
  exact nofun

/-- The outcome of a request is what comes of the instance by itself. -/
theorem resolve_fst (h : t.Mindful registry settings) (hgraded : t.basis.Graded) (id : Int) :
    (t.resolve id none).1 = t.basis.outcomeAlone id := by
  obtain ⟨-, hequal⟩ := Basis.resolve_of_remembers hgraded.byDefault h.plain.idle.closed
    h.remembers id
  rw [resolve_none_fst]
  exact hequal _ (hgraded.shallow id) (Nat.le_refl _)

/-- What comes of an instance is known behind requests in a row of which one is for it. -/
theorem answer?_session (h : t.Mindful registry settings) (hgraded : t.basis.Graded)
    (hr : t.basis.population.find? id = some r) (hfirm : t.basis.Firm id) {ids : List Int}
    (hmem : id ∈ ids) :
    ((t.session (inTurn ids)).standing id).answer? = some (t.basis.outcomeAlone id) := by
  obtain ⟨before, after, rfl⟩ := List.append_of_mem hmem
  -- The answer is known behind the request itself, and stays so.
  let u := t.session (inTurn before)
  have hbasis : u.basis = t.basis := t.basis_session_inTurn before
  have hmindful : u.Mindful registry settings := h.session_inTurn before
  have hequal : (u.basis.resolve none id u.progress).1 = t.basis.outcomeAlone id := by
    rw [← resolve_none_fst, hmindful.resolve_fst (hbasis ▸ hgraded), hbasis]
  have hanswer : ((u.resolve id none).2.standing id).answer? = some (t.basis.outcomeAlone id) := by
    rw [← hequal, resolve_snd]
    exact Basis.answer?_resolve (hbasis ▸ hr) (hmindful.plain.idle.closed id) (hequal ▸ hfirm)
  have hrow : t.session (inTurn (before ++ id :: after)) =
      (u.resolve id none).2.session (inTurn after) := by
    rw [inTurn, List.map_append, Table.session, List.foldl_append]
    rfl
  rw [hrow, ← hanswer]
  exact congrArg _ (((u.resolve id none).2.keeps_session _).standing_eq hanswer)

end Mindful

end Table

/-! ## Errands -/

/-- The errands of a worker: those that are done, the one under way and those still to do. -/
def Worker.assigned (worker : Worker) : List Int :=
  worker.outcomes.map Prod.fst ++
    (match worker.activity with
    | .ready => []
    | _ => [worker.errand]) ++ worker.errands

namespace Workshop

variable {w : Workshop} {k : Nat} {worker next : Worker} {deed : Deed}

theorem assigned_of_acts (hacts : w.Acts k worker deed next) :
    next.assigned = worker.assigned := by
  cases hacts with
  | answered h => cases h <;> simp_all [Worker.assigned]
  | _ => simp_all [Worker.assigned, Worker.ask]

/-- No errand is lost. -/
theorem assigned_of_reaches {t : Table} {errands : List (List Int)}
    (h : Reaches (opened t errands) w) : w.workers.map Worker.assigned = errands := by
  refine h.invariant (P := fun w => w.workers.map Worker.assigned = errands) ?_ ?_
  · intro w u k hassigned hstep
    obtain ⟨worker, deed, next, hworker, hacts, rfl⟩ := exists_acts hstep
    rw [← hassigned]
    refine List.ext_getElem? fun l => ?_
    rw [List.getElem?_map, List.getElem?_map, getElem?_setWorker hworker]
    split
    · subst l
      rw [hworker, Option.map_some, Option.map_some, assigned_of_acts hacts]
    · rfl
  · have hfresh : Worker.assigned ∘ Worker.fresh = id := rfl
    simp [opened, hfresh]

/-- Workers who are done have an outcome for each errand. -/
theorem errands_done {t : Table} {errands : List (List Int)} (h : Reaches (opened t errands) w)
    (hdone : w.isDone = true) :
    w.workers.map (fun worker => worker.outcomes.map Prod.fst) = errands := by
  rw [← assigned_of_reaches h]
  refine List.map_congr_left fun worker hmem => ?_
  have hworker : worker.isDone = true := List.all_eq_true.mp hdone worker hmem
  cases hactivity : worker.activity with
  | ready =>
    have hnone : worker.errands = [] := by simpa [Worker.isDone, hactivity] using hworker
    simp [Worker.assigned, hactivity, hnone]
  | _ => simp [Worker.isDone, hactivity] at hworker

/-- An instance without a record is not visited. -/
theorem Filed.standing_of_missing (h : w.Filed) {id : Int}
    (hmissing : w.basis.population.contains id = false) : w.standing id = .unvisited := by
  unfold standing
  cases hjob : w.job? id with
  | none => rfl
  | some job =>
    obtain ⟨n, -, hown, hid, -⟩ := h.exists_of_job? hjob
    have hrecorded := h.recorded hown
    rw [hid, hmissing] at hrecorded
    cases hrecorded

/-- An outcome that is settled and not given up is the outcome of a request, and the instance
stands as it stands behind requests in a row of which one is for it. -/
theorem agrees_inTurn {registry : Registry} {settings : Settings} {t : Table}
    (hmindful : t.Mindful registry settings) (hgraded : t.basis.Graded) (haccounted : w.Accounted)
    (hbasis : w.basis = t.basis) {id : Int} {outcome : Except Thrown Instance}
    (hsettles : Settles t.basis w id outcome) (hfirm : t.basis.Firm id) (ids : List Int) :
    outcome = ((t.session (Table.inTurn ids)).resolve id none).1 ∧
      (id ∈ ids → w.standing id = (t.session (Table.inTurn ids)).standing id) := by
  have hsame : (t.session (Table.inTurn ids)).basis = t.basis := t.basis_session_inTurn ids
  have hrow := hmindful.session_inTurn ids
  obtain ⟨rfl, hknown⟩ := hsettles hfirm
  refine ⟨?_, fun hmem => ?_⟩
  · rw [hrow.resolve_fst (hsame ▸ hgraded), hsame]
  · cases hr : t.basis.population.find? id with
    | some r =>
      have hanswer := hmindful.answer?_session hgraded hr hfirm hmem
      exact Standing.eq_of_answer? (hknown (Population.contains_of_find? hr)) hanswer
    | none =>
      have hmissing : t.basis.population.contains id = false := by
        simp [Population.contains, hr]
      have hhere := haccounted.standing_of_missing (hbasis ▸ hmissing)
      have hthere : (t.session (Table.inTurn ids)).standing id = .unvisited := by
        by_contra hvisited
        have hcontains := hrow.plain.idle.orderly.known hvisited
        rw [hsame, hmissing] at hcontains
        cases hcontains
      rw [hhere, hthere]

/-- Where references lead in no circle and not too deep, workers who are done have an outcome for
each of their errands.  If what comes of an instance is not given up, then no reference to it was
left to be followed later; the outcome that a worker has seen is that of a request for it, whatever
was requested before; and it stands as it stands behind any requests in a row of which one is for
it. -/
theorem outcomes_agree {registry : Registry} {settings : Settings} {requests : List Request}
    {t : Table} (hregistered : ∀ q ∈ requests, q.Expects (Table.Registered registry))
    (ht : (Table.empty registry .initial settings).session requests = t)
    (hacyclic : ∀ id, ¬ t.basis.population.OnCycle id)
    (hwithin : ∀ id, t.basis.population.PathsWithin settings.maxDepth id)
    {errands : List (List Int)} (h : Reaches (opened t errands) w) :
    (∀ deferral ∈ w.deferrals, Thrown.GivesUp (t.resolve deferral.id none).1) ∧
    (w.isDone = true →
      w.workers.map (fun worker => worker.outcomes.map Prod.fst) = errands) ∧
    ∀ worker ∈ w.workers, ∀ entry ∈ worker.outcomes,
      ¬ Thrown.GivesUp (t.resolve entry.1 none).1 → ∀ ids,
        entry.2 = ((t.session (Table.inTurn ids)).resolve entry.1 none).1 ∧
        (entry.1 ∈ ids → w.standing entry.1 = (t.session (Table.inTurn ids)).standing entry.1) := by
  have hstart : (Table.empty registry .initial settings).Mindful registry settings :=
    ⟨Table.plain_empty registry settings, Table.remembers_of_untouched fun _ => rfl⟩
  have hmindful := hstart.session hregistered
  rw [ht] at hmindful
  have hgraded : t.basis.Graded := by
    refine ⟨hmindful.plain.byDefault nofun, hacyclic, ?_⟩
    rw [hmindful.plain.settings]
    exact hwithin
  obtain ⟨hbasis, haccounted, -⟩ := aligned hgraded.handOnAll h
  have hagrees := agrees hgraded hmindful.remembers h
  refine ⟨fun deferral hmem => ?_, errands_done h, fun worker hworker entry hentry hkept ids => ?_⟩
  · rw [hmindful.resolve_fst hgraded]
    exact not_not.mp (hagrees.deferrals deferral hmem)
  · obtain ⟨k, hk⟩ := List.getElem?_of_mem hworker
    rw [hmindful.resolve_fst hgraded] at hkept
    have hsettles := (hagrees.workers hk).outcomes entry hentry
    exact agrees_inTurn hmindful hgraded haccounted hbasis hsettles hkept ids

end Workshop

namespace Sample

/-- A node, one that refers to it, one that refers to both, and one that refers to nothing that is
there. -/
def ladder : List Request :=
  [.add (record 1 []), .add (record 2 [1]), .add (record 3 [2, 1]), .add (record 4 [0])]

/-- Workers who go up and down the ladder at the same time. -/
def climbing : Workshop :=
  (Workshop.opened (table ladder) [[3, 4], [2, 4, 3]]).run
    ((List.range 60).flatMap fun _ => [0, 1])

/-- A node that is built on a type that nothing underlies. -/
def pit : EntityType := ⟨"PIT", [⟨"below", .ref "ABYSS", false, false⟩], ["NODE"], false, []⟩

/-- A registry of nodes and pits. -/
def bottomless : Registry :=
  [.entity node, .defined "ABYSS" (.ref "ABYSS"), .entity pit].foldl
    (fun r e => (r.register e false).toOption.getD r) (.initial "sample")

/-- A pit, a node that refers to it, and one that refers to that. -/
def brink : List Request :=
  [.add ⟨some 1, .simple ⟨"PIT", [.list [], .integer 0]⟩, none, none⟩, .add (record 2 [1]),
    .add (record 3 [2])]

/-- Workers at the pit.  The second has found the job of the pit before the first gave it up, and
decides whether to wait for it when the first waits for the second. -/
def falling : Workshop :=
  (Workshop.opened ((Table.empty bottomless .initial .default).session brink) [[1, 3], [2]]).run
    [0, 0, 1, 1, 1, 1, 0, 0, 0, 0, 0, 0, 0, 1, 1, 1, 1, 0, 0, 0, 0, 0]

end Sample

namespace Workshop

theorem outcomes_agree_climbing :
    (Sample.climbing.isDone = true ∧
      ¬ Thrown.GivesUp ((Sample.table Sample.ladder).resolve 3 none).1) ∧
    (∀ deferral ∈ Sample.climbing.deferrals,
      Thrown.GivesUp ((Sample.table Sample.ladder).resolve deferral.id none).1) ∧
    (Sample.climbing.isDone = true →
      Sample.climbing.workers.map (fun worker => worker.outcomes.map Prod.fst) =
        [[3, 4], [2, 4, 3]]) ∧
    ∀ worker ∈ Sample.climbing.workers, ∀ entry ∈ worker.outcomes,
      ¬ Thrown.GivesUp ((Sample.table Sample.ladder).resolve entry.1 none).1 → ∀ ids,
        entry.2 =
          (((Sample.table Sample.ladder).session (Table.inTurn ids)).resolve entry.1 none).1 ∧
        (entry.1 ∈ ids → Sample.climbing.standing entry.1 =
          ((Sample.table Sample.ladder).session (Table.inTurn ids)).standing entry.1) := by
  refine ⟨by decide +kernel, ?_⟩
  have hregistered : ∀ q ∈ Sample.ladder, q.Expects (Table.Registered Sample.registry) := by
    simp [Sample.ladder, Request.Expects]
  exact outcomes_agree hregistered rfl (Population.not_onCycle_of_backward (by decide +kernel))
    (Population.pathsWithin_of_size_le (by decide +kernel)) (reaches_run _ _)

/-- Workers are done at a table at which references lead in no circle and not too deep.  One of the
instances has neither been resolved nor failed; a reference to it was left to be followed later; and
the one that has it was resolved, but is given up if requests are made one after another. -/
theorem not_outcomes_agree :
    let t := (Table.empty Sample.bottomless .initial .default).session Sample.brink
    (∀ id, ¬ t.basis.population.OnCycle id) ∧
    (∀ id, t.basis.population.PathsWithin Settings.default.maxDepth id) ∧
    Reaches (opened t [[1, 3], [2]]) Sample.falling ∧ Sample.falling.isDone = true ∧
    Sample.falling.standing 1 = .unvisited ∧ Sample.falling.deferrals = [⟨2, 1, some 0⟩] ∧
    (∃ worker value, worker ∈ Sample.falling.workers ∧ (2, .ok value) ∈ worker.outcomes) ∧
    Thrown.GivesUp (t.resolve 2 none).1 := by
  refine ⟨Population.not_onCycle_of_backward (by decide +kernel),
    Population.pathsWithin_of_size_le (by decide +kernel), reaches_run _ _, by decide +kernel,
    rfl, rfl, ?_, by decide +kernel⟩
  exact ⟨_, _, List.mem_cons_of_mem _ (List.mem_singleton_self _), List.mem_singleton_self _⟩

end Workshop

end Part21
