import Part21.Resolution.Table

set_option autoImplicit false

/-!
# Sessions

A session is a row of requests to one table, each of which is served before the
next one comes: records are added and looked up, and instances are resolved one by
one or all together.  A request that is refused, or that ends by an error, leaves a
table behind all the same, so every row of requests leads to a table.

What every request preserves, a session preserves: `session_invariant`.
-/

namespace Part21

/-- What a table is asked for. -/
inductive Request where
  | add (record : Record)
  | lookup (id : Int)
  | resolve (id : Int) (expected : Option Expected)
  | resolveAll

namespace Request

/-- What is expected of the instance that a request asks for is of some kind.  Other
requests expect nothing. -/
def Expects (kind : Option Expected → Prop) : Request → Prop
  | resolve _ expected => kind expected
  | _ => True

end Request

/-- The names that a report speaks of. -/
def Report.names (r : Report) : List Int := r.entities.map Prod.fst ++ r.failures.map Prod.fst

/-- An added record is put behind the others, under its name. -/
theorem Population.entries_of_add {records more : Population} {r : Record}
    (hadd : records.add r = .ok more) :
    ∃ id, r.id = some id ∧ more.entries = records.entries ++ [(id, r)] := by
  unfold add at hadd
  split at hadd
  · cases hadd
  · rename_i id hname
    split at hadd
    · cases hadd
    · cases hadd
      exact ⟨id, hname, rfl⟩

namespace Table

/-- The table behind a request. -/
def serve (t : Table) : Request → Table
  | .add r =>
    match t.add r with
    | .ok t => t
    | .error _ => t
  | .lookup _ => t
  | .resolve id expected => (t.resolve id expected).2
  | .resolveAll => t.resolveAll.2

/-- The table behind a row of requests. -/
def session (t : Table) (requests : List Request) : Table := requests.foldl serve t

@[simp] theorem session_nil (t : Table) : t.session [] = t := rfl

@[simp] theorem session_cons (t : Table) (q : Request) (requests : List Request) :
    t.session (q :: requests) = (t.serve q).session requests := rfl

theorem session_append (t : Table) (first second : List Request) :
    t.session (first ++ second) = (t.session first).session second := List.foldl_append

/-! ## What a request changes -/

/-- Resolving an instance seals the table and changes what is known of instances,
and nothing else.  Whether the instance is what was expected does not matter. -/
theorem resolve_snd (t : Table) (id : Int) (expected : Option Expected) :
    (t.resolve id expected).2 =
      { t with
        isSealed := true
        progress := (t.basis.resolve (expected.bind Expected.brought?) id t.progress).2 } := by
  unfold resolve
  rcases t.basis.resolve (expected.bind Expected.brought?) id t.progress with ⟨outcome, p⟩
  cases outcome with
  | error thrown => rfl
  | ok value =>
    cases expected with
    | none => rfl
    | some expected =>
      dsimp only
      split <;> rfl

/-- Without expectations the answer is that of the pass. -/
theorem resolve_none_fst (t : Table) (id : Int) :
    (t.resolve id none).1 = (t.basis.resolve none id t.progress).1 := by
  unfold resolve
  rw [Option.bind_none]
  rcases t.basis.resolve none id t.progress with ⟨outcome, p⟩
  cases outcome <;> rfl

/-- An error of the pass is the answer, whatever is expected. -/
theorem resolve_fst_of_error {t : Table} {id : Int} {expected : Option Expected} {thrown : Thrown}
    (h : (t.basis.resolve (expected.bind Expected.brought?) id t.progress).1 = .error thrown) :
    (t.resolve id expected).1 = .error thrown := by
  unfold resolve
  rcases hpass : t.basis.resolve (expected.bind Expected.brought?) id t.progress with ⟨outcome, p⟩
  rw [hpass] at h
  cases h
  rfl

/-- The answer is an error of the pass, or the instance is not what is expected. -/
theorem resolve_fst_eq_error {t : Table} {id : Int} {expected : Option Expected} {thrown : Thrown}
    (h : (t.resolve id expected).1 = .error thrown) :
    (t.basis.resolve (expected.bind Expected.brought?) id t.progress).1 = .error thrown ∨
      ∃ own, expected = some own ∧ (t.resolve id expected).2.checkExpected id own = .error thrown := by
  rw [resolve_snd]
  unfold resolve at h
  rcases hpass : t.basis.resolve (expected.bind Expected.brought?) id t.progress with ⟨outcome, p⟩
  rw [hpass] at h
  cases outcome with
  | error own => exact .inl h
  | ok value =>
    cases expected with
    | none => cases h
    | some own =>
      dsimp only at h
      split at h
      · rename_i other hother
        cases h
        exact .inr ⟨own, rfl, hother⟩
      · cases h

/-- An instance that is the answer is that of the pass. -/
theorem resolve_fst_eq_ok {t : Table} {id : Int} {expected : Option Expected} {value : Instance}
    (h : (t.resolve id expected).1 = .ok value) :
    (t.basis.resolve (expected.bind Expected.brought?) id t.progress).1 = .ok value := by
  unfold resolve at h
  rcases hpass : t.basis.resolve (expected.bind Expected.brought?) id t.progress with ⟨outcome, p⟩
  rw [hpass] at h
  cases outcome with
  | error thrown => cases h
  | ok own =>
    cases expected with
    | none => exact h
    | some other =>
      dsimp only at h
      split at h
      · cases h
      · exact h

theorem basis_resolve (t : Table) (id : Int) (expected : Option Expected) :
    (t.resolve id expected).2.basis = t.basis := by
  rw [resolve_snd]

/-- An added record changes the population of a table that is not sealed yet. -/
theorem add_eq_ok {t u : Table} {r : Record} (h : t.add r = .ok u) :
    t.isSealed = false ∧ ∃ population, t.basis.population.add r = .ok population ∧
      u = { t with basis := { t.basis with population := population } } := by
  unfold add at h
  split at h
  · cases h
  · rename_i hopen
    cases hadd : t.basis.population.add r with
    | error fault => rw [hadd] at h; cases h
    | ok population =>
      rw [hadd] at h
      exact ⟨by simpa using hopen, population, rfl, (Except.ok.inj h).symm⟩

/-! ## Invariants -/

/-- What each single resolution preserves, the resolution of a row of names
preserves. -/
theorem resolveOnto_invariant {P : Table → Prop}
    (hresolve : ∀ (t : Table) (id : Int), P t → P (t.resolve id none).2)
    (ids : List Int) {t : Table} (done : Report) (h : P t) : P (t.resolveOnto done ids).2 := by
  induction ids generalizing t done with
  | nil => exact h
  | cons id rest ih =>
    have hnext := hresolve t id h
    unfold resolveOnto
    split
    · rename_i value u hu
      rw [hu] at hnext
      exact ih _ hnext
    · rename_i error u hu
      rw [hu] at hnext
      exact ih _ hnext
    · rename_i thrown u _ hu
      rw [hu] at hnext
      exact hnext

/-- What holds of a table and a report, and is preserved with each instance that is added to
the report, holds of the table that is left behind and the report that is given. -/
theorem resolveOnto_induction {P : Table → Report → Prop}
    (hvalue : ∀ {t u : Table} {id : Int} {done : Report} {value : Instance},
      t.resolve id none = (.ok value, u) → P t done →
      P u { done with entities := done.entities ++ [(id, value)] })
    (herror : ∀ {t u : Table} {id : Int} {done : Report} {error : ResolutionError},
      t.resolve id none = (.error (.resolution error), u) → P t done →
      P u { done with failures := done.failures ++ [(id, error)] })
    {ids : List Int} {t : Table} {done report : Report} (h : P t done)
    (hreport : (t.resolveOnto done ids).1 = .ok report) :
    P (t.resolveOnto done ids).2 report := by
  induction ids generalizing t done with
  | nil => exact Except.ok.inj hreport ▸ h
  | cons id rest ih =>
    unfold resolveOnto at hreport ⊢
    split at hreport
    · rename_i value u hu
      exact ih (hvalue hu h) hreport
    · rename_i error u hu
      exact ih (herror hu h) hreport
    · cases hreport

/-- The resolution of a row of names reports on each of them, and on what was reported before. -/
theorem names_resolveOnto {ids : List Int} {t : Table} {done report : Report}
    (hreport : (t.resolveOnto done ids).1 = .ok report) :
    report.names.Perm (done.names ++ ids) := by
  induction ids generalizing t done with
  | nil => rw [← Except.ok.inj hreport, List.append_nil]
  | cons id rest ih =>
    unfold resolveOnto at hreport
    split at hreport
    · refine (ih hreport).trans ?_
      simp only [Report.names, List.map_append, List.map_cons, List.map_nil, List.append_assoc,
        List.cons_append, List.nil_append]
      exact List.perm_middle.symm.append_left _
    · refine (ih hreport).trans ?_
      simp only [Report.names, List.map_append, List.map_cons, List.map_nil, List.append_assoc,
        List.cons_append, List.nil_append]
      exact .refl _
    · cases hreport

/-- Reporting the failures of a table preserves what a single report preserves. -/
theorem foldl_report_invariant {P : Table → Prop}
    (hreport : ∀ (t : Table) (event : Event), P t → P (t.report event))
    (failures : List (Int × ResolutionError)) {t : Table} (h : P t) :
    P (failures.foldl (fun t failure => t.report (failureEvent failure)) t) := by
  induction failures generalizing t with
  | nil => exact h
  | cons failure rest ih => exact ih (hreport t _ h)

theorem resolveAll_invariant {P : Table → Prop}
    (hresolve : ∀ (t : Table) (id : Int), P t → P (t.resolve id none).2)
    (hreport : ∀ (t : Table) (event : Event), P t → P (t.report event))
    {t : Table} (h : P t) : P t.resolveAll.2 := by
  have hall := resolveOnto_invariant hresolve t.basis.population.ids ⟨[], []⟩ h
  unfold resolveAll
  split
  · rename_i thrown u hu
    rw [hu] at hall
    exact hall
  · rename_i all u hu
    rw [hu] at hall
    exact foldl_report_invariant hreport all.failures hall

/-- The same of a table of which all instances are resolved, where only what the journal has
is different in the end. -/
theorem resolveAll_induction {P : Table → Report → Prop}
    (hvalue : ∀ {t u : Table} {id : Int} {done : Report} {value : Instance},
      t.resolve id none = (.ok value, u) → P t done →
      P u { done with entities := done.entities ++ [(id, value)] })
    (herror : ∀ {t u : Table} {id : Int} {done : Report} {error : ResolutionError},
      t.resolve id none = (.error (.resolution error), u) → P t done →
      P u { done with failures := done.failures ++ [(id, error)] })
    (hevent : ∀ {t : Table} {done : Report} (event : Event), P t done → P (t.report event) done)
    {t : Table} {report : Report} (h : P t ⟨[], []⟩) (hreport : t.resolveAll.1 = .ok report) :
    P t.resolveAll.2 report := by
  unfold resolveAll at hreport ⊢
  split at hreport
  · cases hreport
  · rename_i all u hu
    cases hreport
    have hall := resolveOnto_induction hvalue herror h
      (congrArg Prod.fst hu)
    rw [hu] at hall
    exact foldl_report_invariant (P := fun t => P t report) (fun _ event => hevent event)
      report.failures hall

/-- A resolution of all instances that comes to a report reports on each of them once. -/
theorem names_resolveAll {t : Table} {report : Report} (hreport : t.resolveAll.1 = .ok report) :
    report.names.Perm t.basis.population.ids := by
  unfold resolveAll at hreport
  split at hreport
  · cases hreport
  · rename_i all u hu
    cases hreport
    exact names_resolveOnto (congrArg Prod.fst hu)

/-- An instance that comes first and fails is reported to fail. -/
theorem mem_failures_of_first {t : Table} {id : Int} {rest : List Int} {error : ResolutionError}
    {report : Report} (hfirst : t.basis.population.ids = id :: rest)
    (herror : (t.resolve id none).1 = .error (.resolution error))
    (hreport : t.resolveAll.1 = .ok report) : (id, error) ∈ report.failures := by
  unfold resolveAll at hreport
  rw [hfirst] at hreport
  split at hreport
  · cases hreport
  · rename_i all u hu
    cases hreport
    rcases hresolve : t.resolve id none with ⟨outcome, v⟩
    rw [hresolve] at herror
    cases herror
    rw [resolveOnto, hresolve] at hu
    -- What has been reported stays in the report.
    refine resolveOnto_induction (P := fun _ done => (id, error) ∈ done.failures)
      (fun _ hmem => hmem) (fun _ hmem => List.mem_append_left _ hmem) ?_ (congrArg Prod.fst hu)
    exact List.mem_cons_self

/-- A property of tables that adding, resolving and reporting preserve holds behind
every session that begins where it holds.  Of the resolutions only those count that
expect something of the given kind. -/
theorem session_invariant {P : Table → Prop} {K : Option Expected → Prop} (hnone : K none)
    (hadd : ∀ {t u : Table} {r : Record}, t.add r = .ok u → P t → P u)
    (hresolve : ∀ (t : Table) (id : Int) {expected : Option Expected}, K expected → P t →
      P (t.resolve id expected).2)
    (hreport : ∀ (t : Table) (event : Event), P t → P (t.report event))
    {requests : List Request} (hkind : ∀ q ∈ requests, q.Expects K) {t : Table} (h : P t) :
    P (t.session requests) := by
  induction requests generalizing t with
  | nil => exact h
  | cons q rest ih =>
    have hq := hkind q List.mem_cons_self
    apply ih fun q hmem => hkind q (List.mem_cons_of_mem _ hmem)
    cases q with
    | add r =>
      simp only [serve]
      split
      · rename_i u hu
        exact hadd hu h
      · exact h
    | lookup id => exact h
    | resolve id expected => exact hresolve t id hq h
    | resolveAll => exact resolveAll_invariant (fun t id => hresolve t id hnone) hreport h

end Table

end Part21
