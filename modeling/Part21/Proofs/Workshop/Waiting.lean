import Mathlib.Data.Finset.Card
import Mathlib.Data.Finset.Range
import Mathlib.Logic.Relation
import Part21.Proofs.Workshop.Jobs

set_option autoImplicit false

/-!
# Waiting workers

A worker is blocked by the one who has the job in hand that it waits for.  No circle of blocked
workers ever comes about (`Workshop.Untangled`): before a worker begins to wait, the workers who
are known to wait are searched for one who waits, in turn, for it.

What is known of those who wait may be out of date.  A worker is known to wait until it has taken
notice of the end of the job, and by then somebody else may have begun the same instance again.
So the search may find more than there is, but it never overlooks a worker who is blocked
(`Workshop.waitsOn_of_blocked`), and that is what matters here.
-/

namespace Part21

/-! ## Relations without circles -/

/-- Adding a pair to a relation without circles makes none, if the pair does not close one. -/
theorem not_transGen_insert {α : Type} {R S : α → α → Prop} {a b : α}
    (hacyclic : ∀ c, ¬ Relation.TransGen R c c) (hopen : ¬ Relation.ReflTransGen R b a)
    (hinsert : ∀ c d, S c d → R c d ∨ (c = a ∧ d = b)) (c : α) : ¬ Relation.TransGen S c c := by
  -- A path of the larger relation is one of the smaller, or it uses the pair once.
  have hpath : ∀ {c d}, Relation.TransGen S c d →
      Relation.TransGen R c d ∨ (Relation.ReflTransGen R c a ∧ Relation.ReflTransGen R b d) := by
    intro c d h
    induction h with
    | single hstep =>
      rcases hinsert _ _ hstep with hold | ⟨rfl, rfl⟩
      · exact .inl (.single hold)
      · exact .inr ⟨.refl, .refl⟩
    | tail hbefore hstep ih =>
      rcases hinsert _ _ hstep with hold | ⟨rfl, rfl⟩
      · exact ih.imp (·.tail hold) fun h => ⟨h.1, h.2.tail hold⟩
      · rcases ih with hpath | ⟨-, hback⟩
        · exact .inr ⟨hpath.to_reflTransGen, .refl⟩
        · exact absurd hback hopen
  intro hcircle
  rcases hpath hcircle with hold | ⟨hto, hfrom⟩
  · exact hacyclic c hold
  · exact hopen (hfrom.trans hto)

namespace Workshop

variable {w u : Workshop} {k l : Nat} {worker next : Worker} {deed : Deed}

/-! ## Who waits for whom -/

/-- A worker waits for a job that another one has in hand. -/
def BlockedBy (w : Workshop) (k l : Nat) : Prop :=
  ∃ worker n job, w.workers[k]? = some worker ∧ worker.activity = .waiting n ∧
    w.jobs[n]? = some job ∧ job.isOpen = true ∧ job.owner = l

/-- A worker is known to wait for an instance that another one has in hand. -/
def WaitsFor (w : Workshop) (k l : Nat) : Prop :=
  ∃ worker id job, w.workers[k]? = some worker ∧ worker.waitsFor? = some id ∧
    w.job? id = some job ∧ job.answer? = none ∧ job.owner = l

/-- No circle of workers is blocked. -/
def Untangled (w : Workshop) : Prop := ∀ k, ¬ Relation.TransGen w.BlockedBy k k

/-- Who is blocked is known to wait. -/
theorem BlockedBy.waitsFor (h : w.BlockedBy k l) (haccounted : w.Accounted) : w.WaitsFor k l := by
  obtain ⟨worker, n, job, hworker, hactivity, hjob, hopen, howner⟩ := h
  refine ⟨worker, worker.target, job, hworker, by simp [Worker.waitsFor?, hactivity], ?_,
    Job.answer?_of_isOpen hopen, howner⟩
  rw [← (haccounted.attends hworker).id_of_waiting hactivity hjob]
  exact haccounted.job?_eq_some hjob (Job.isGivenUp_of_isOpen hopen)

/-- A worker is blocked by one other only. -/
theorem BlockedBy.unique {m : Nat} (h : w.BlockedBy k l) (hother : w.BlockedBy k m) : l = m := by
  obtain ⟨worker, n, job, hworker, hactivity, hjob, -, rfl⟩ := h
  obtain ⟨same, n', job', hsame, hactivity', hjob', -, rfl⟩ := hother
  obtain rfl := Option.some.inj (hworker.symm.trans hsame)
  obtain rfl : n = n' := by simpa [hactivity] using hactivity'
  obtain rfl := Option.some.inj (hjob.symm.trans hjob')
  rfl

/-- Who blocks a worker has a building under way. -/
theorem BlockedBy.exists_owner (h : w.BlockedBy k l) (haccounted : w.Accounted) :
    ∃ other, w.workers[l]? = some other ∧ other.frames ≠ [] := by
  obtain ⟨worker, n, job, hworker, hactivity, hjob, hopen, rfl⟩ := h
  obtain ⟨other, hother, hmem⟩ := haccounted.held hjob hopen
  refine ⟨other, hother, fun hnil => ?_⟩
  simp [hnil] at hmem

theorem BlockedBy.lt_length (h : w.BlockedBy k l) (haccounted : w.Accounted) :
    l < w.workers.length := by
  obtain ⟨other, hother, -⟩ := h.exists_owner haccounted
  exact (List.getElem?_eq_some_iff.mp hother).1

/-! ## The search -/

theorem waitsOnWithin_succ (w : Workshop) (sought asked k : Nat) :
    w.waitsOnWithin sought (asked + 1) k = true ↔
      k = sought ∨ ∃ l, w.WaitsFor k l ∧ w.waitsOnWithin sought asked l = true := by
  rw [waitsOnWithin]
  split
  · simp [*]
  · rename_i hother
    simp only [hother, false_or]
    constructor
    · intro hfound
      split at hfound
      · cases hfound
      · rename_i id hwaits
        obtain ⟨worker, hworker, hid⟩ := Option.bind_eq_some_iff.mp hwaits
        split at hfound
        · cases hfound
        · rename_i job hjob
          rw [Bool.and_eq_true, Option.isNone_iff_eq_none] at hfound
          exact ⟨job.owner, ⟨worker, id, job, hworker, hid, hjob, hfound.1, rfl⟩, hfound.2⟩
    · rintro ⟨l, ⟨worker, id, job, hworker, hid, hjob, hanswer, rfl⟩, hfound⟩
      simp [hworker, hid, hjob, hanswer, hfound]

/-- What the search finds is known to wait. -/
theorem reflTransGen_of_waitsOn (h : w.waitsOn k l = true) :
    Relation.ReflTransGen w.WaitsFor k l := by
  have hwithin : ∀ asked k, w.waitsOnWithin l asked k = true →
      Relation.ReflTransGen w.WaitsFor k l := by
    intro asked
    induction asked with
    | zero => nofun
    | succ asked ih =>
      intro k hfound
      rcases (w.waitsOnWithin_succ l asked k).mp hfound with rfl | ⟨m, hwaits, hrest⟩
      · exact .refl
      · exact (ih m hrest).head hwaits
  exact hwithin _ k h

open Classical in
/-- How many workers a worker waits for, directly or through others. -/
noncomputable def height (w : Workshop) (k : Nat) : Nat :=
  ((Finset.range w.workers.length).filter fun l => Relation.TransGen w.BlockedBy k l).card

theorem height_le (w : Workshop) (k : Nat) : w.height k ≤ w.workers.length := by
  classical
  calc w.height k ≤ (Finset.range w.workers.length).card := Finset.card_filter_le _ _
    _ = w.workers.length := Finset.card_range _

/-- Who blocks a worker is lower than that one. -/
theorem BlockedBy.height_lt (h : w.BlockedBy k l) (haccounted : w.Accounted)
    (huntangled : w.Untangled) : w.height l < w.height k := by
  classical
  apply Finset.card_lt_card
  rw [Finset.ssubset_iff_of_subset]
  · refine ⟨l, ?_, ?_⟩
    · simpa using ⟨h.lt_length haccounted, Relation.TransGen.single h⟩
    · simpa using fun _ => huntangled l
  · intro m hmem
    simp only [Finset.mem_filter] at hmem ⊢
    exact ⟨hmem.1, hmem.2.head h⟩

/-- The search does not overlook a worker who is blocked. -/
theorem waitsOn_of_blocked (haccounted : w.Accounted) (huntangled : w.Untangled)
    (h : Relation.ReflTransGen w.BlockedBy k l) : w.waitsOn k l = true := by
  have hwithin : ∀ asked, w.height k < asked → w.waitsOnWithin l asked k = true := by
    induction h using Relation.ReflTransGen.head_induction_on with
    | refl =>
      intro asked hlt
      obtain ⟨asked, rfl⟩ := Nat.exists_eq_add_one_of_ne_zero (Nat.ne_zero_of_lt hlt)
      exact (w.waitsOnWithin_succ l asked l).mpr (.inl rfl)
    | head hblocked _ ih =>
      intro asked hlt
      obtain ⟨asked, rfl⟩ := Nat.exists_eq_add_one_of_ne_zero (Nat.ne_zero_of_lt hlt)
      refine (w.waitsOnWithin_succ l asked _).mpr
        (.inr ⟨_, hblocked.waitsFor haccounted, ih asked ?_⟩)
      have hlower := hblocked.height_lt haccounted huntangled
      omega
  exact hwithin _ (Nat.lt_succ_of_le (w.height_le k))

/-! ## No circles -/

/-- Only a worker who begins to wait is blocked anew, and only by the owner of the job. -/
theorem blockedBy_of_acts (haccounted : w.Accounted) (hworker : w.workers[k]? = some worker)
    (hacts : w.Acts k worker deed next) {a b : Nat}
    (h : ((w.perform k deed).setWorker k next).BlockedBy a b) :
    w.BlockedBy a b ∨ (a = k ∧ w.waitsOn b k = false) := by
  obtain ⟨other, n, job, hother, hactivity, hjob, hopen, rfl⟩ := h
  rw [getElem?_setWorker hworker] at hother
  split at hother
  · subst a
    obtain rfl := Option.some.inj hother
    right
    cases hacts with
    | joined _ hn hanswer hne hfree =>
      obtain rfl : _ = n := by simpa using hactivity
      obtain rfl := Option.some.inj (hn.symm.trans hjob)
      exact ⟨rfl, hfree⟩
    | _ => simp_all [Worker.ask]
  · left
    obtain ⟨old, hold, -⟩ := (haccounted.attends hother).waiting hactivity
    obtain ⟨later, hlater, -, howner, hsame⟩ :=
      (haccounted.continues hworker hacts).jobs hold
    obtain rfl := Option.some.inj (hjob.symm.trans hlater)
    refine ⟨other, n, old, hother, hactivity, hold, ?_, howner.symm⟩
    by_contra hclosed
    rw [hsame (eq_false_of_ne_true hclosed)] at hopen
    exact hclosed hopen

theorem untangled_step (haccounted : w.Accounted) (huntangled : w.Untangled)
    (hstep : w.step? k = some u) : u.Untangled := by
  obtain ⟨worker, deed, next, hworker, hacts, rfl⟩ := exists_acts hstep
  have hnew := fun a b => blockedBy_of_acts haccounted hworker hacts (a := a) (b := b)
  by_cases hjoins : ∃ l, w.waitsOn l k = false ∧
      ((w.perform k deed).setWorker k next).BlockedBy k l
  · obtain ⟨l, hfree, hblocked⟩ := hjoins
    refine not_transGen_insert (a := k) (b := l) huntangled (fun hback => ?_) fun a b h => ?_
    · rw [waitsOn_of_blocked haccounted huntangled hback] at hfree
      cases hfree
    · refine (hnew a b h).imp_right fun ⟨ha, _⟩ => ⟨ha, ?_⟩
      subst a
      exact h.unique hblocked
  · intro a hcircle
    refine huntangled a (Relation.TransGen.mono (fun b c h => ?_) a a hcircle)
    exact (hnew b c h).resolve_right fun ⟨hb, hfree⟩ => hjoins ⟨c, hfree, hb ▸ h⟩

/-- Wherever workers come to, no circle of them is blocked. -/
theorem untangled {t : Table} {errands : List (List Int)} (h : Reaches (opened t errands) w) :
    w.Untangled := by
  have hboth : w.Accounted ∧ w.Untangled := by
    refine h.invariant (P := fun w => w.Accounted ∧ w.Untangled) ?_ ⟨accounted_opened t errands, ?_⟩
    · exact fun ⟨haccounted, huntangled⟩ hstep =>
        ⟨haccounted.step hstep, untangled_step haccounted huntangled hstep⟩
    · intro k hcircle
      obtain ⟨l, ⟨worker, n, job, hworker, hactivity, -⟩, -⟩ :=
        Relation.TransGen.head'_iff.mp hcircle
      obtain ⟨own, -, rfl⟩ := worker_of_opened hworker
      cases hactivity
  exact hboth.2

/-! ## There is always a next step -/

/-- A worker who has something left to do has a next step, or is blocked. -/
theorem step_or_blocked (haccounted : w.Accounted) (hworker : w.workers[k]? = some worker)
    (hbusy : worker.isDone = false) : (∃ u, w.step? k = some u) ∨ ∃ l, w.BlockedBy k l := by
  have hattends := haccounted.attends hworker
  have hact : (∃ act, w.act? k worker = some act) → ∃ u, w.step? k = some u := by
    rintro ⟨act, hact⟩
    exact ⟨_, by rw [step?, hworker, Option.bind_some, hact, Option.map_some]⟩
  unfold act? at hact
  cases hactivity : worker.activity with
  | ready =>
    cases herrands : worker.errands with
    | nil => simp [Worker.isDone, hactivity, herrands] at hbusy
    | cons id rest =>
      simp only [hactivity, herrands] at hact
      exact .inl (hact ⟨_, rfl⟩)
  | joining n =>
    obtain ⟨job, hjob, -⟩ := hattends.joining hactivity
    simp only [hactivity, hjob, Option.map_some] at hact
    exact .inl (hact ⟨_, rfl⟩)
  | waiting n =>
    obtain ⟨job, hjob, -⟩ := hattends.waiting hactivity
    cases hopen : job.isOpen with
    | true => exact .inr ⟨job.owner, worker, n, job, hworker, hactivity, hjob, hopen, rfl⟩
    | false =>
      simp only [hactivity, hjob, hopen] at hact
      exact .inl (hact ⟨_, rfl⟩)
  | leaving n =>
    obtain ⟨job, hjob, -⟩ := hattends.leaving hactivity
    simp only [hactivity, hjob, Option.map_some] at hact
    exact .inl (hact ⟨_, rfl⟩)
  | asking | building frame rest | answering reply =>
    simp only [hactivity] at hact
    exact .inl (hact ⟨_, rfl⟩)

/-- As long as a worker has something left to do, some worker has a next step. -/
theorem exists_step (haccounted : w.Accounted) (huntangled : w.Untangled)
    (hbusy : w.isDone = false) : ∃ k u, w.step? k = some u := by
  by_contra hstuck
  -- Among those who have something left to do, one is lower than all others it waits for.
  have hdescend : ∀ height k worker, w.height k = height → w.workers[k]? = some worker →
      worker.isDone = false → False := by
    intro height
    induction height using Nat.strong_induction_on with
    | _ height ih =>
      intro k worker hheight hworker hunfinished
      rcases step_or_blocked haccounted hworker hunfinished with ⟨u, hstep⟩ | ⟨l, hblocked⟩
      · exact hstuck ⟨k, u, hstep⟩
      · obtain ⟨other, hother, hframes⟩ := hblocked.exists_owner haccounted
        refine ih (w.height l) ?_ l other rfl hother (eq_false_of_ne_true fun hdone => ?_)
        · exact hheight ▸ hblocked.height_lt haccounted huntangled
        · exact hframes (haccounted.frames_of_isDone hother hdone)
  unfold isDone at hbusy
  obtain ⟨worker, hmem, hunfinished⟩ := List.all_eq_false.mp hbusy
  obtain ⟨k, hlt, rfl⟩ := List.getElem_of_mem hmem
  exact hdescend _ k _ rfl (List.getElem?_eq_getElem hlt) (eq_false_of_ne_true hunfinished)

end Workshop

end Part21
