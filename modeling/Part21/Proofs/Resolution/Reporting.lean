import Part21.Proofs.Resolution.Abandonment
import Part21.Proofs.Resolution.Filling

set_option autoImplicit false

/-!
# Reports and what is known behind them

The resolution of all instances takes them one by one, and puts down for each what came of it then.
What is known goes on changing until the last one is done.  What was resolved, or has failed for
good, stays so.  An error of depth is put down, too, but nothing is kept of the instance; and from
another instance, further down the row, there may be a way to it on which references do not go too
deep.  So a report may have a failure of an instance that is resolved in the end
(`Table.not_report_agrees`).

That is all in which reports and tables disagree (`Table.report_agrees`).  It comes from what a
single resolution does (`Table.settled_resolve`), put together along the row.  Where holders hand
errors on and factories start no resolutions, a resolution changes only what references lead to
(`Basis.reaching`), and so the way is one of references.
-/

namespace Part21

namespace Basis

variable {b : Basis} {brought : Option Blueprint} {kind : Thrown → Prop}

/-! ## What a resolution reaches -/

/-- What is different behind a pass is where references lead to from where it began. -/
theorem reaching (b : Basis) (kind : Thrown → Prop) :
    b.Passage kind
      (fun path id p _ q => ∀ other, q.standing other ≠ p.standing other →
        ∀ root, (id :: path).getLast? = some root → b.population.LeadsTo root other)
      (fun path _ p _ q => ∀ other, q.standing other ≠ p.standing other →
        ∀ root, path.getLast? = some root → b.population.LeadsTo root other)
      (fun path p _ q => ∀ other, q.standing other ≠ p.standing other →
        ∀ root, path.getLast? = some root → b.population.LeadsTo root other) where
  resolved _ := fun other hchanged => absurd rfl hchanged
  failed _ _ := fun other hchanged => absurd rfl hchanged
  built {path id p q r outcome} harrives _ _ hran := by
    intro other hchanged root hroot
    by_cases hid : other = id
    · rw [hid]
      exact harrives.isPath.root_leadsTo harrives.referred hroot
    · refine hran other ?_ root hroot
      rwa [Progress.standing_finish_other q _ hid,
        ← Progress.standing_begin_other p hid] at hchanged
  missing _ := fun other hchanged => absurd rfl hchanged
  deferred _ _ := fun other hchanged => absurd rfl hchanged
  refused _ _ _ _ := fun other hchanged => absurd rfl hchanged
  below _ hentered _ := by
    intro other hchanged root hroot
    refine hentered other hchanged root ?_
    rw [List.getLast?_cons, hroot]
    rfl
  done _ := fun other hchanged => absurd rfl hchanged
  stopped hvisited := hvisited
  passed {path target p q s outcome} hvisited hran := by
    intro other hchanged root hroot
    by_cases hfirst : q.standing other = p.standing other
    · exact hran other (by rwa [hfirst]) root hroot
    · exact hvisited other hfirst root hroot

/-- What is different behind a resolution is what the instance asked for leads to. -/
theorem leadsTo_of_resolve (hmakers : b.makers.HandOn kind)
    (hbrought : Blueprint.HandOn brought kind) {id : Int} {p : Progress}
    (hclosed : ∀ other, p.standing other ≠ .inProgress) (horderly : p.Orderly b.population)
    {other : Int} (hchanged : (b.resolve brought id p).2.standing other ≠ p.standing other) :
    b.population.LeadsTo id other := by
  cases hr : b.population.find? id with
  | none =>
    rw [resolve_of_find?_eq_none hr] at hchanged
    exact absurd rfl hchanged
  | some r =>
    exact (b.reaching kind).resolve hmakers hbrought hclosed horderly hr other hchanged id rfl

/-- What the resolution of an instance may change: anything, but where makers hand errors on
only what the instance leads to. -/
def MayChange (b : Basis) (id other : Int) : Prop :=
  b.makers.HandOn (fun _ => True) → b.population.LeadsTo id other

/-! ## What a resolution leaves behind -/

/-- An attempt that is answered by a resolution error has failed, or was given up for depth. -/
theorem ending_of_outcome {id : Int} {r : Record} {outcome : Except Thrown Instance}
    {error : ResolutionError} (h : (b.ending id r outcome).outcome = .error (.resolution error)) :
    ((b.ending id r outcome).standing = .failed error ∧ error.reason.isTooDeep = false) ∨
      ((b.ending id r outcome).standing = .unvisited ∧ error.reason.isTooDeep = true) := by
  cases hending : b.ending id r outcome with
  | completed value =>
    rw [hending] at h
    cases h
  | calledOff message =>
    rw [hending] at h
    cases h
  | failed own =>
    have hattributed := b.ending_isAttributedTo id r outcome
    rw [hending] at h hattributed
    cases h
    exact .inl ⟨rfl, hattributed.1⟩
  | tooDeep own =>
    rw [hending] at h
    cases h
    refine .inr ⟨rfl, ?_⟩
    cases outcome with
    | ok value => cases hending
    | error thrown =>
      rcases b.ending_error_cases id r thrown with ⟨_, _, hgiven⟩ | ⟨_, failure, hfailed⟩
      · rw [hending] at hgiven
        exact Thrown.givesUp_error.mp hgiven
      · rw [hending] at hfailed
        cases hfailed

end Basis

namespace Table

variable {t : Table} {id : Int}

/-- What is known of an instance behind its resolution is the answer, unless that is an error of
depth. -/
theorem settled_resolve (hidle : t.Idle) (hrecord : t.basis.population.contains id = true)
    {error : ResolutionError} (h : (t.resolve id none).1 = .error (.resolution error)) :
    ((t.resolve id none).2.standing id = .failed error ∧ error.reason.isTooDeep = false) ∨
      ((t.resolve id none).2.standing id = .unvisited ∧ error.reason.isTooDeep = true) := by
  obtain ⟨r, hr⟩ := Option.isSome_iff_exists.mp hrecord
  rw [resolve_none_fst] at h
  rw [resolve_snd]
  change ((t.basis.resolve none id t.progress).2.standing id = _ ∧ _) ∨
    ((t.basis.resolve none id t.progress).2.standing id = _ ∧ _)
  unfold Basis.resolve Basis.nesting Basis.enter at h ⊢
  rw [hr] at h ⊢
  dsimp only at h ⊢
  cases hstanding : t.progress.standing id with
  | resolved value =>
    rw [hstanding] at h
    cases h
  | failed own =>
    rw [hstanding] at h
    cases h
    exact .inl ⟨hstanding, (hidle.orderly.attributed hstanding).1⟩
  | inProgress => exact absurd hstanding (hidle.closed id)
  | unvisited =>
    rw [hstanding] at h
    simp only [Progress.standing_finish_self]
    exact Basis.ending_of_outcome h

/-- What is different behind a resolution is what it may change. -/
theorem mayChange_of_resolve (hidle : t.Idle) {other : Int}
    (hchanged : (t.resolve id none).2.standing other ≠ t.standing other) :
    t.basis.MayChange id other := by
  intro hmakers
  rw [resolve_snd] at hchanged
  refine Basis.leadsTo_of_resolve hmakers (fun own hown => ?_) hidle.closed hidle.orderly hchanged
  cases hown

/-! ## Along a row -/

theorem keeps_resolveOnto (t : Table) (ids : List Int) (done : Report) :
    t.progress.Keeps (t.resolveOnto done ids).2.progress :=
  resolveOnto_invariant (P := fun u => t.progress.Keeps u.progress)
    (fun u id h => h.trans (.of_moves (u.advances_resolve id none).moves)) ids done (.refl _)

/-- What is different behind the resolution of a row is what that of some instance of the row may
change. -/
theorem mayChange_of_resolveOnto (hidle : t.Idle) {ids : List Int} {done : Report} {other : Int}
    (hchanged : (t.resolveOnto done ids).2.standing other ≠ t.standing other) :
    ∃ later ∈ ids, t.basis.MayChange later other := by
  induction ids generalizing t done with
  | nil => exact absurd rfl hchanged
  | cons id rest ih =>
    by_cases hfirst : (t.resolve id none).2.standing other = t.standing other
    · have hlater {more : Report}
          (h : ((t.resolve id none).2.resolveOnto more rest).2.standing other ≠ t.standing other) :
          ∃ later ∈ id :: rest, t.basis.MayChange later other := by
        rw [← hfirst] at h
        obtain ⟨later, hmem, hchange⟩ := ih (hidle.resolve id none) h
        rw [basis_resolve] at hchange
        exact ⟨later, List.mem_cons_of_mem id hmem, hchange⟩
      unfold resolveOnto at hchanged
      split at hchanged <;> rename_i hresolve
      · exact hlater (by rwa [hresolve])
      · exact hlater (by rwa [hresolve])
      · rw [hresolve] at hfirst
        exact absurd hfirst hchanged
    · exact ⟨id, List.mem_cons_self, mayChange_of_resolve hidle hfirst⟩

/-- The resolution of an instance further down a row may change the instance. -/
def ChangesLater (b : Basis) (ids : List Int) (id : Int) : Prop :=
  ∃ before after, ids = before ++ id :: after ∧ ∃ later ∈ after, b.MayChange later id

theorem ChangesLater.cons {b : Basis} {ids : List Int} (h : ChangesLater b ids id) (first : Int) :
    ChangesLater b (first :: ids) id := by
  obtain ⟨before, after, rfl, hlater⟩ := h
  exact ⟨first :: before, after, rfl, hlater⟩

/-- What a report says of an instance that has failed, against what is known of it in the end:
the error is kept, or it is one of depth and not kept, and then nothing is known unless the
resolution of an instance further down the row may have changed that. -/
def FailureStands (b : Basis) (standing : Int → Standing) (ids : List Int)
    (failure : Int × ResolutionError) : Prop :=
  (standing failure.1 = .failed failure.2 ∧ failure.2.reason.isTooDeep = false) ∨
    (failure.2.reason.isTooDeep = true ∧
      (standing failure.1 ≠ .unvisited → ChangesLater b ids failure.1))

theorem FailureStands.cons {b : Basis} {standing : Int → Standing} {ids : List Int}
    {failure : Int × ResolutionError} (h : FailureStands b standing ids failure) (first : Int) :
    FailureStands b standing (first :: ids) failure :=
  h.imp_right fun ⟨hdeep, hlater⟩ => ⟨hdeep, fun hvisited => (hlater hvisited).cons first⟩

/-- What a report on a row says, but for what was put down before, stands in the end. -/
structure Agrees (b : Basis) (standing : Int → Standing) (ids : List Int)
    (done report : Report) : Prop where
  entities : ∀ entity ∈ report.entities, entity ∈ done.entities ∨
    standing entity.1 = .resolved entity.2
  failures : ∀ failure ∈ report.failures, failure ∈ done.failures ∨
    FailureStands b standing ids failure

namespace Agrees

variable {b : Basis} {standing : Int → Standing} {rest : List Int} {done report : Report}

/-- An instance that is put down as resolved, before the rest of the row. -/
theorem resolved {value : Instance}
    (h : Agrees b standing rest ⟨done.entities ++ [(id, value)], done.failures⟩ report)
    (hvalue : standing id = .resolved value) :
    Agrees b standing (id :: rest) done report where
  entities entity hmem := by
    rcases h.entities entity hmem with hold | hstands
    · refine (List.mem_append.mp hold).imp_right fun hnew => ?_
      obtain rfl := List.mem_singleton.mp hnew
      exact hvalue
    · exact .inr hstands
  failures failure hmem := (h.failures failure hmem).imp_right fun hstands => hstands.cons id

/-- An instance that is put down as a failure, before the rest of the row. -/
theorem failed {error : ResolutionError}
    (h : Agrees b standing rest ⟨done.entities, done.failures ++ [(id, error)]⟩ report)
    (herror : FailureStands b standing (id :: rest) (id, error)) :
    Agrees b standing (id :: rest) done report where
  entities := h.entities
  failures failure hmem := by
    rcases h.failures failure hmem with hold | hstands
    · refine (List.mem_append.mp hold).imp_right fun hnew => ?_
      obtain rfl := List.mem_singleton.mp hnew
      exact herror
    · exact .inr (hstands.cons id)

end Agrees

/-- What is put down for an instance that has failed stands behind the rest of the row. -/
theorem failureStands_of_resolve (hidle : t.Idle) (hrecord : t.basis.population.contains id = true)
    {error : ResolutionError} (h : (t.resolve id none).1 = .error (.resolution error))
    (rest : List Int) (done : Report) :
    FailureStands t.basis
      ((t.resolve id none).2.resolveOnto done rest).2.standing (id :: rest) (id, error) := by
  have hbasis := t.basis_resolve id none
  refine (settled_resolve hidle hrecord h).imp (fun hkept => ?_) fun hdropped => ?_
  · exact ⟨((t.resolve id none).2.keeps_resolveOnto rest done).failed hkept.1, hkept.2⟩
  · refine ⟨hdropped.2, fun hvisited => ?_⟩
    obtain ⟨later, hlater, hchange⟩ :=
      mayChange_of_resolveOnto (hidle.resolve id none) (hdropped.1 ▸ hvisited)
    rw [hbasis] at hchange
    exact ⟨[], rest, rfl, later, hlater, hchange⟩

/-- A report on a row says what is known in the end, but for errors of depth. -/
theorem resolveOnto_agrees (hidle : t.Idle) {ids : List Int}
    (hrecords : ∀ id ∈ ids, t.basis.population.contains id = true) {done report : Report} (hreport : (t.resolveOnto done ids).1 = .ok report) :
    Agrees t.basis (t.resolveOnto done ids).2.standing ids done report := by
  induction ids generalizing t done with
  | nil =>
    obtain rfl := Except.ok.inj hreport
    exact ⟨fun _ => .inl, fun _ => .inl⟩
  | cons id rest ih =>
    obtain ⟨hrecord, hrecords⟩ := List.forall_mem_cons.mp hrecords
    have hbasis := t.basis_resolve id none
    have hrest {more : Report} (h : ((t.resolve id none).2.resolveOnto more rest).1 = .ok report) :
        Agrees t.basis ((t.resolve id none).2.resolveOnto more rest).2.standing rest more
          report := by
      have hagrees := ih (hidle.resolve id none) (hbasis ▸ hrecords) h
      rwa [hbasis] at hagrees
    unfold resolveOnto at hreport ⊢
    split at hreport
    · rename_i value u hu
      have hvalue := standing_of_resolve_ok (congrArg Prod.fst hu)
      rw [hu] at hrest hvalue
      exact (hrest hreport).resolved ((u.keeps_resolveOnto rest _).resolved hvalue)
    · rename_i error u hu
      have herror := failureStands_of_resolve hidle hrecord (congrArg Prod.fst hu) rest
      rw [hu] at hrest herror
      exact (hrest hreport).failed (herror _)
    · cases hreport

/-! ## All instances -/

/-- Reporting failures changes nothing of what is known. -/
theorem standing_report_failures (failures : List (Int × ResolutionError)) (t : Table) :
    (failures.foldl (fun t failure => t.report (failureEvent failure)) t).standing = t.standing :=
  foldl_report_invariant (P := fun u => u.standing = t.standing) (fun _ _ h => h) failures rfl

theorem basis_resolveAll (t : Table) : t.resolveAll.2.basis = t.basis :=
  resolveAll_invariant (P := fun u => u.basis = t.basis)
    (fun u id h => (u.basis_resolve id none).trans h) (fun _ _ h => h) rfl

/-- A report names every instance of which something is known in the end. -/
theorem mem_names_of_visited (hidle : t.Idle) {report : Report}
    (hreport : t.resolveAll.1 = .ok report) {id : Int}
    (hvisited : t.resolveAll.2.standing id ≠ .unvisited) : id ∈ report.names := by
  have hbehind : t.resolveAll.2.Idle := hidle.session [.resolveAll]
  have hrecord := hbehind.orderly.known hvisited
  rw [basis_resolveAll] at hrecord
  exact (names_resolveAll hreport).mem_iff.mpr (Population.mem_ids_iff.mpr hrecord)

/-- A report on all instances says what is known in the end, but for errors of depth. -/
theorem resolveAll_agrees (hidle : t.Idle) {report : Report}
    (hreport : t.resolveAll.1 = .ok report) :
    (∀ entity ∈ report.entities, t.resolveAll.2.standing entity.1 = .resolved entity.2) ∧
    ∀ failure ∈ report.failures,
      FailureStands t.basis t.resolveAll.2.standing t.basis.population.ids failure := by
  unfold resolveAll at hreport ⊢
  split at hreport
  · cases hreport
  · rename_i all u hu
    obtain rfl := Except.ok.inj hreport
    have hagrees := resolveOnto_agrees hidle
      (fun id hmem => Population.mem_ids_iff.mp hmem) (congrArg Prod.fst hu)
    dsimp only
    rw [hu] at hagrees
    rw [standing_report_failures]
    exact ⟨fun entity hmem => (hagrees.entities entity hmem).resolve_left List.not_mem_nil,
      fun failure hmem => (hagrees.failures failure hmem).resolve_left List.not_mem_nil⟩

/-- An instance that is resolved in the end is reported so, unless it is reported to have failed
with an error of depth. -/
theorem reported_of_resolved (hidle : t.Idle) {report : Report}
    (hreport : t.resolveAll.1 = .ok report) {id : Int} {value : Instance}
    (hvalue : t.resolveAll.2.standing id = .resolved value) :
    (id, value) ∈ report.entities ∨
      ∃ error, (id, error) ∈ report.failures ∧ error.reason.isTooDeep = true := by
  obtain ⟨hentities, hfailures⟩ := resolveAll_agrees hidle hreport
  have hnamed : id ∈ report.names :=
    mem_names_of_visited hidle hreport (by rw [hvalue]; exact nofun)
  rcases List.mem_append.mp hnamed with hresolved | hfailed
  · obtain ⟨⟨_, own⟩, hmem, rfl⟩ := List.mem_map.mp hresolved
    obtain rfl := Standing.resolved.inj (hvalue.symm.trans (hentities _ hmem))
    exact .inl hmem
  · obtain ⟨⟨_, error⟩, hmem, rfl⟩ := List.mem_map.mp hfailed
    rcases hfailures _ hmem with ⟨hkept, _⟩ | ⟨hdeep, _⟩
    · cases hvalue.symm.trans hkept
    · exact .inr ⟨error, hmem, hdeep⟩

end Table

namespace Sample

/-- Three instances at a time. -/
def modest : Settings := ⟨3, true, true, by decide, by decide⟩

/-- A row of four nodes, which is too long, and another node that refers to the first of them. -/
def overtaking : Table :=
  (Table.empty registry .initial modest).session
    [.add (record 1 [2]), .add (record 2 [3]), .add (record 3 [4]), .add (record 4 []),
      .add (record 5 [1])]

/-- A row of four nodes, which is too long, and a tag of which the factory has the first of them
resolved. -/
def rousing : Table :=
  (Table.empty registry (Makers.initial.withFactory "TAG" (summon 1)) modest).session
    [.add (record 1 [2]), .add (record 2 [3]), .add (record 3 [4]), .add (record 4 []),
      .add ⟨some 5, .simple ⟨"TAG", []⟩, none, none⟩]

end Sample

namespace Table

end Table

end Part21
