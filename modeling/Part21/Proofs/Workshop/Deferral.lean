import Part21.Proofs.Resolution.Abandonment
import Part21.Proofs.Workshop.Passes

set_option autoImplicit false

/-!
# Deferred references

A reference is to be left for later only where it closes a circle: its instance is on the path,
or in hand of a worker who waits, directly or through others, for the one who follows it.  So it
is wherever the job that was found is still under way, or has ended with an answer
(`Workshop.deferred_for_reason`).

It is not so where the job was given up between the moment at which it was found and the moment at
which it is decided whether to wait for it.  Such a job looks open to the one who found it, and
whether its former owner waits is no longer a matter of the instance.  A reference may be deferred
then though nobody builds the instance and no circle is near
(`Workshop.not_deferred_for_reason`).
-/

namespace Part21

namespace Workshop

variable {w u : Workshop} {k : Nat}

/-- Where buildings hand errors on: if a reference is left to be followed later in the next step of
a worker, its instance is in hand of the worker itself, or of another one who waits for it, and
leads back to the one that refers to it; or else the job that the worker has found for it has been
given up. -/
theorem deferred_for_reason {t : Table} {errands : List (List Int)}
    (hmakers : t.basis.makers.HandOnAll) (h : Reaches (opened t errands) w)
    (hstep : w.step? k = some u) {deferral : Deferral}
    (hdeferred : u.deferrals = w.deferrals ++ [deferral]) :
    ∃ worker, w.workers[k]? = some worker ∧
      ((w.Entangled k worker deferral.id ∧
        t.basis.population.Refers deferral.referrer deferral.id ∧
        t.basis.population.LeadsTo deferral.id deferral.referrer) ∨
      w.Outdated worker deferral.id) := by
  obtain ⟨hbasis, haccounted, haligned⟩ := aligned hmakers h
  obtain ⟨worker, deed, next, hworker, hacts, rfl⟩ := exists_acts hstep
  rw [deferrals_setWorker] at hdeferred
  obtain rfl := deed_of_deferrals hdeferred
  rw [← hbasis]
  exact ⟨worker, hworker, reason_of_acts haccounted haligned hworker hacts⟩

end Workshop

namespace Sample

/-- Workers who build the two nodes that refer to each other.  The first waits for the second, and
the second has found the job of the first. -/
def meeting : Workshop :=
  (Workshop.opened (table circle) [[1], [2]]).run [0, 0, 1, 1, 0, 0, 0, 1, 1]

/-- A row of five nodes, each of which refers to the one before, where only two instances may be
under construction. -/
def row : Table :=
  ((Table.empty registry .initial narrow).extend
    [record 5 [4], record 4 [3], record 3 [2], record 2 [1], record 1 []]).2

/-- Workers at the row.  The second has found the job of the third node, which the first has given
up since, as it leads too deep; the first has gone on to the fifth node and waits for the fourth,
which is in hand of the second. -/
def parting : Workshop :=
  (Workshop.opened row [[3, 5], [4]]).run
    [0, 0, 0, 0, 1, 1, 1, 1, 0, 0, 0, 0, 0, 0, 0, 0, 0, 0]

end Sample

namespace Workshop

theorem deferred_for_reason_meeting :
    ∃ worker, Sample.meeting.workers[1]? = some worker ∧
      ((Sample.meeting.Entangled 1 worker 1 ∧
        (Sample.table Sample.circle).basis.population.Refers 2 1 ∧
        (Sample.table Sample.circle).basis.population.LeadsTo 1 2) ∨
      Sample.meeting.Outdated worker 1) := by
  obtain ⟨u, hstep⟩ : ∃ u, Sample.meeting.step? 1 = some u := ⟨_, rfl⟩
  have hdeferred : u.deferrals = Sample.meeting.deferrals ++ [⟨2, 1, some 0⟩] := by
    rw [← Option.some.inj hstep]
    rfl
  exact deferred_for_reason (Makers.handOn_initial _)
    (reaches_run (opened (Sample.table Sample.circle) [[1], [2]]) _) hstep hdeferred

/-- A reference is deferred though nobody builds its instance, of which nothing is known, and
though it does not lead back to the one that refers to it. -/
theorem not_deferred_for_reason :
    ∃ w u, Reaches (opened Sample.row [[3, 5], [4]]) w ∧ w.step? 1 = some u ∧
      u.deferrals = w.deferrals ++ [⟨4, 3, some 0⟩] ∧ w.standing 3 = .unvisited ∧
      (∀ worker ∈ w.workers, ∀ frame ∈ worker.frames, frame.id ≠ 3) ∧
      ¬ Sample.row.basis.population.LeadsTo 3 4 := by
  refine ⟨Sample.parting, _, reaches_run _ _, rfl, rfl, rfl, by decide +kernel, fun hleads => ?_⟩
  have hclosed := Population.mem_of_leadsTo [3, 2, 1] (by decide +kernel) (by decide) hleads
  simp at hclosed

end Workshop

end Part21
