import Part21.Proofs.Resolution.Order

set_option autoImplicit false

/-!
# Coming first

An instance with which a resolution begins, while nothing is resolved yet, waits for all that
it leads to.  Nothing that fails on the way is passed over: its failure is handed back, from
one instance under construction to the next, to the one that came first.  So the instance
that comes first is resolved only if it is sound (`Basis.sound_of_resolve_ok`), and to be
resolved in every order of the records is to be sound (`Table.sound_iff_resolves`).
-/

namespace Part21

namespace Basis

/-- Nothing is wrong with any instance that is resolved, and the targets of each are resolved or
under construction. -/
structure Untroubled (b : Basis) (path : List Int) (p : Progress) : Prop where
  intact : ∀ ⦃id value⦄, p.standing id = .resolved value → b.Intact id
  closed : b.Closed (fun _ => True) path p

variable {b : Basis}

theorem untroubled_of_unvisited {p : Progress} (h : ∀ id, p.standing id = .unvisited) :
    b.Untroubled [] p where
  intact id value hresolved := by
    rw [h id] at hresolved
    cases hresolved
  closed id value target _ hresolved := by
    rw [h id] at hresolved
    cases hresolved

namespace Untroubled

variable {path : List Int} {id : Int} {p q : Progress}

theorem begin (h : b.Untroubled path p) (hopen : p.standing id = .unvisited) :
    b.Untroubled (id :: path) (p.begin id) where
  intact other value hresolved := by
    rw [Progress.standing_begin] at hresolved
    split at hresolved
    · cases hresolved
    · exact h.intact hresolved
  closed := h.closed.begin hopen

theorem complete (h : b.Untroubled (id :: path) q) (value : Instance) (hintact : b.Intact id)
    (hpassed : ∀ target, b.population.Refers id target →
      target ∈ id :: path ∨ ∃ value, q.standing target = .resolved value) :
    b.Untroubled path (q.finish id (.completed value)) where
  intact other own hresolved := by
    rw [Progress.standing_finish] at hresolved
    split at hresolved
    · rename_i hid
      rw [hid]
      exact hintact
    · exact h.intact hresolved
  closed := h.closed.complete value hpassed

end Untroubled

/-- As long as nothing fails, a descent is untroubled. -/
theorem untroubled_descent :
    b.Descent none
      (fun path _ p outcome q =>
        b.Untroubled path p → (∃ value, outcome = .ok value) → b.Untroubled path q)
      (fun path _ p outcome q => b.Untroubled path p → outcome = .ok () → b.Untroubled path q)
      (fun path _ p outcome q => b.Untroubled path p → outcome = .ok () → b.Untroubled path q) where
  resolved _ h _ := h
  failed _ _ hok := by
    obtain ⟨value, hok⟩ := hok
    cases hok
  unheld {path id p r thrown} _ _ _ _ hok := by
    obtain ⟨value, hok⟩ := hok
    exact absurd (outcome_eq_ok hok) (b.ending_error_ne_completed id r thrown value)
  built {path id p q r held outcome} _ hr hopen hheld hfollowed hpassed h hok := by
    obtain ⟨value, hok⟩ := hok
    cases outcome with
    | ok done =>
      have hall := hpassed rfl
      have hintact : b.Intact id := ⟨r, held, hr, hheld, fun l hmem => (hall l hmem).checked⟩
      have hbelow := hfollowed (h.begin hopen) rfl
      exact hbelow.complete _ hintact (reached_of_passed hr hheld hall)
    | error thrown =>
      exact absurd (outcome_eq_ok hok) (b.ending_error_ne_completed id r thrown value)
  missing _ _ hok := by cases hok
  deferred _ _ _ _ h _ := ⟨h.intact, h.closed⟩
  refused _ _ _ _ _ _ hok := by cases hok
  below {path l p q r outcome} _ _ _ hentered h hok := by
    cases outcome with
    | ok value => exact hentered h ⟨value, rfl⟩
    | error thrown => cases hok
  nil h _ := h
  stopped _ _ hok := by cases hok
  passed hvisited _ hfollowed h hok := hfollowed (hvisited h rfl) hok

/-- While nothing has been visited, only a sound instance is resolved. -/
theorem sound_of_resolve_ok (hdefault : b.ByDefault none) {p : Progress}
    (hopen : ∀ other, p.standing other = .unvisited) {id : Int} {value : Instance}
    (h : (b.resolve none id p).1 = .ok value) : b.Sound id := by
  have hclosed : ∀ other, p.standing other ≠ .inProgress := by
    intro other hprogress
    rw [hopen other] at hprogress
    cases hprogress
  cases hr : b.population.find? id with
  | none =>
    rw [resolve_of_find?_eq_none hr] at h
    cases h
  | some r =>
    have huntroubled := untroubled_descent.resolve hdefault hclosed hr
      (untroubled_of_unvisited hopen) ⟨value, h⟩
    have hroot : (b.resolve none id p).2.standing id = .resolved value :=
      standing_of_enter_ok (Prod.ext h rfl)
    intro other hleads
    have hresolved : ∃ own, (b.resolve none id p).2.standing other = .resolved own := by
      induction hleads with
      | refl => exact ⟨value, hroot⟩
      | tail _ hrefers ih =>
        obtain ⟨own, hown⟩ := ih
        exact (huntroubled.closed trivial hown hrefers).resolve_left List.not_mem_nil
    obtain ⟨own, hown⟩ := hresolved
    exact huntroubled.intact hown

end Basis

namespace Table

variable {registry : Registry} {settings : Settings} {records : List Record} {t : Table} {id : Int}

/-- A report does not have both a value and an error for an instance. -/
theorem not_fails_of_resolves {report : Report} (hreport : t.resolveAll.1 = .ok report)
    {value : Instance} (hvalue : report.Resolves id value) : ¬ report.Fails id := by
  rintro ⟨error, herror⟩
  have hnodup : report.names.Nodup :=
    (names_resolveAll hreport).nodup_iff.mpr t.basis.population.distinct
  have hapart := (List.nodup_append.mp hnodup).2.2
  exact hapart id (List.mem_map_of_mem hvalue) id (List.mem_map_of_mem herror) rfl

/-- An instance that is not sound fails where it comes first. -/
theorem Fresh.fails_of_first (h : t.Fresh registry settings records) {rest : List Int}
    (hfirst : t.basis.population.ids = id :: rest) (hunsound : ¬ t.basis.Sound id)
    {report : Report} (hreport : t.resolveAll.1 = .ok report) : report.Fails id := by
  cases houtcome : (t.resolve id none).1 with
  | ok value =>
    have hpass : (t.basis.resolve none id t.progress).1 = .ok value := by
      rw [← resolve_none_fst, houtcome]
    have hsound := Basis.sound_of_resolve_ok (h.plain.byDefault nofun)
      (h.plain.untouched h.unsealed) hpass
    exact absurd hsound hunsound
  | error thrown =>
    obtain ⟨error, rfl⟩ := h.plain.resolve_eq_error houtcome
    exact ⟨error, mem_failures_of_first hfirst houtcome hreport⟩

/-- The same records with another one of them as the first. -/
theorem Fresh.exists_first (h : t.Fresh registry settings records)
    (hrecord : t.basis.population.contains id = true) :
    ∃ r rest, r.id = some id ∧ records.Perm (r :: rest) := by
  obtain ⟨r, hr⟩ := Option.isSome_iff_exists.mp hrecord
  obtain ⟨hmem, hid⟩ := (h.find? id r).mp hr
  obtain ⟨before, after, rfl⟩ := List.append_of_mem hmem
  exact ⟨r, before ++ after, hid, List.perm_middle⟩

/-- To be resolved in every order is to be sound.  Let no simple path of references among
records with distinct names be longer than the limit.  Then an instance is sound if and only
if the resolution of all instances resolves it whatever the order of the records is. -/
theorem sound_iff_resolves (hnamed : ∀ r ∈ records, r.id.isSome = true)
    (hdistinct : (records.map Record.id).Nodup)
    (ht : ((empty registry .initial settings).extend records).2 = t)
    (hwithin : ∀ other, t.basis.population.PathsWithin settings.maxDepth other)
    (hrecord : t.basis.population.contains id = true) :
    t.basis.Sound id ↔ ∀ others u, records.Perm others →
      ((empty registry .initial settings).extend others).2 = u →
        ∃ report value, u.resolveAll.1 = .ok report ∧ report.Resolves id value := by
  have hfresh := fresh_of_extend hnamed hdistinct ht
  constructor
  · intro hsound others u hperm hu
    have hfreshOther := fresh_of_perm hperm hnamed hdistinct hu
    have halike := hfresh.alike hfreshOther hperm
    have hsoundOther : u.basis.Sound id := halike.sound hsound
    have hrecordOther : u.basis.population.contains id = true := by
      rw [Population.contains, ← halike.find?]
      exact hrecord
    obtain ⟨report, hreport, hjudges, hnames⟩ :=
      hfreshOther.judges fun other => halike.pathsWithin (hwithin other)
    obtain ⟨value, hbuilt⟩ := hsoundOther.isBuilt
    have hvalue := (hjudges.resolves_iff hnames hrecordOther hsoundOther value).mpr hbuilt
    exact ⟨report, value, hreport, hvalue⟩
  · intro hresolves
    by_contra hunsound
    obtain ⟨r, rest, hid, hperm⟩ := hfresh.exists_first hrecord
    obtain ⟨u, hu⟩ : ∃ u, ((empty registry .initial settings).extend (r :: rest)).2 = u := ⟨_, rfl⟩
    obtain ⟨report, value, hreport, hvalue⟩ := hresolves _ u hperm hu
    have hfreshOther := fresh_of_perm hperm hnamed hdistinct hu
    have halike := hfresh.alike hfreshOther hperm
    have hfirst := ids_extend hfreshOther.extended
    rw [List.filterMap_cons_some hid] at hfirst
    have hfails := hfreshOther.fails_of_first hfirst
      (fun hsound => hunsound (halike.symm.sound hsound)) hreport
    exact not_fails_of_resolves hreport hvalue hfails

end Table

end Part21
