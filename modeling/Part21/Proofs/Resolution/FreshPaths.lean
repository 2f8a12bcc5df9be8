import Part21.Proofs.Resolution.Abandonment

set_option autoImplicit false

/-!
# Paths of new instances

What has been resolved or has failed is answered at once and not gone into again, so a pass goes
only through instances that are new to the table.  If it comes to an error of depth, the chain of
the error tells where: all instances on it were unvisited when the instance was asked for
(`Basis.novel`), there are as many as the limit, and the last one refers to one more
(`Table.depth_of_unvisited`).

That one need not be new.  The depth of the path is tested before the table is asked whether the
instance is known, so a reference to an instance that has long been resolved is refused like any
other (`Table.not_depth_of_unvisited`).
-/

namespace Part21

namespace Progress

/-- Nothing was found out of the instance for good. -/
def Unsettled (p : Progress) (id : Int) : Prop :=
  (∀ value, p.standing id ≠ .resolved value) ∧ ∀ error, p.standing id ≠ .failed error

variable {p q : Progress} {id : Int}

theorem Unsettled.of_keeps (h : q.Unsettled id) (hkeeps : p.Keeps q) : p.Unsettled id :=
  ⟨fun value hvalue => h.1 value (hkeeps.resolved hvalue),
    fun error herror => h.2 error (hkeeps.failed herror)⟩

theorem unsettled_of_unvisited (h : p.standing id = .unvisited) : p.Unsettled id := by
  constructor
  · intro value hvalue
    rw [h] at hvalue
    cases hvalue
  · intro error herror
    rw [h] at herror
    cases herror

theorem Unsettled.unvisited (h : p.Unsettled id) (hclosed : p.standing id ≠ .inProgress) :
    p.standing id = .unvisited := by
  cases hstanding : p.standing id with
  | unvisited => rfl
  | inProgress => exact absurd hstanding hclosed
  | resolved value => exact absurd hstanding (h.1 value)
  | failed error => exact absurd hstanding (h.2 error)

/-- What an attempt at an unvisited instance keeps, whatever it ends with. -/
theorem Keeps.attempt (hopen : p.standing id = .unvisited) (h : (p.begin id).Keeps q)
    (ending : Ending) : p.Keeps (q.finish id ending) where
  resolved {other value} hvalue := by
    have hother : other ≠ id := fun hid => by rw [hid, hopen] at hvalue; cases hvalue
    rw [standing_finish_other q ending hother]
    exact h.resolved ((standing_begin_other p hother).trans hvalue)
  failed {other error} herror := by
    have hother : other ≠ id := fun hid => by rw [hid, hopen] at herror; cases herror
    rw [standing_finish_other q ending hother]
    exact h.failed ((standing_begin_other p hother).trans herror)

end Progress

/-- A fault of a record is no matter of depth. -/
theorem Thrown.IsFault.isTooDeep {error : ResolutionError} (h : (Thrown.resolution error).IsFault) :
    error.reason.isTooDeep = false := by
  cases h
  assumption

namespace Basis

variable {b : Basis} {brought : Option Blueprint} {kind : Thrown → Prop}

/-! ## Chains of errors of depth -/

/-- If this ends by an error of depth, nothing was known for good of the instances on its chain, and
what was raised behind it, if anything, is a recursion that has failed; unless an error of depth is
among those of the given kind. -/
def Novel {α : Type} (kind : Thrown → Prop) (p : Progress) (outcome : Except Thrown α) : Prop :=
  ∀ error, outcome = .error (.resolution error) → error.reason.isTooDeep = true →
    ((∀ other ∈ error.chain, p.Unsettled other) ∧
      ∀ original ∈ error.origin, original.isExhausted = true) ∨
    ∃ other, kind (.resolution other) ∧ other.reason.isTooDeep = true

namespace Novel

variable {α : Type} {p q : Progress}

theorem of_faults {outcome : Except Thrown α} (h : Thrown.Faults outcome) :
    Novel kind p outcome := by
  intro error herror hdeep
  rw [(h _ herror).isTooDeep] at hdeep
  cases hdeep

/-- An error that is handed on. -/
theorem pass {β : Type} {thrown : Thrown} (h : Novel kind p (.error thrown : Except Thrown α)) :
    Novel kind p (.error thrown : Except Thrown β) :=
  fun error herror => h error (congrArg Except.error (Except.error.inj herror))

/-- What holds behind some turns held before them. -/
theorem of_keeps {outcome : Except Thrown α} (h : Novel kind q outcome) (hkeeps : p.Keeps q) :
    Novel kind p outcome := by
  intro error herror hdeep
  refine (h error herror hdeep).imp_left (And.imp_left fun hchain => ?_)
  exact fun other hmem => (hchain other hmem).of_keeps hkeeps

/-- An attempt at an unvisited instance adds that one to the chain. -/
theorem attempt {id : Int} {r : Record} {outcome : Except Thrown Instance}
    (hopen : p.standing id = .unvisited) (h : Novel kind (p.begin id) outcome) :
    Novel kind p (b.ending id r outcome).outcome := by
  intro error herror hdeep
  have hself : p.Unsettled id := Progress.unsettled_of_unvisited hopen
  cases outcome with
  | ok value => cases herror
  | error thrown =>
    cases thrown with
    | interrupt message => cases herror
    | failure original =>
      rw [ending_failure, Ending.outcome_ofError] at herror
      cases herror
      refine .inl ⟨fun other hmem => List.mem_singleton.mp hmem ▸ hself, ?_⟩
      rintro own ⟨rfl⟩
      by_contra hexhausted
      rw [if_neg hexhausted] at hdeep
      cases hdeep
    | resolution own =>
      rw [ending, Ending.outcome_ofError] at herror
      cases herror
      rw [own.reason_attributed] at hdeep
      rw [own.chain_attributed, own.origin_attributed]
      refine (h own rfl hdeep).imp_left (And.imp_left fun hchain => ?_)
      exact List.forall_mem_cons.mpr
        ⟨hself, fun other hmem => (hchain other hmem).of_keeps (Progress.keeps_begin hopen)⟩

end Novel

/-- A pass goes through new instances only. -/
theorem novel (b : Basis) (kind : Thrown → Prop) :
    b.Passage kind (fun _ _ p outcome q => p.Keeps q ∧ Novel kind p outcome)
      (fun _ _ p outcome q => p.Keeps q ∧ Novel kind p outcome)
      (fun _ p outcome q => p.Keeps q ∧ Novel kind p outcome) where
  resolved _ := ⟨.refl _, fun _ herror => by cases herror⟩
  failed {path id p error} horderly hstanding := by
    refine ⟨.refl p, fun own hown hdeep => ?_⟩
    cases hown
    rw [(horderly.attributed hstanding).1] at hdeep
    cases hdeep
  built _ _ hopen hran := ⟨.attempt hopen hran.1 _, .attempt hopen hran.2⟩
  missing _ := by
    refine ⟨.refl _, fun error herror hdeep => ?_⟩
    cases herror
    cases hdeep
  deferred htested event := ⟨⟨id, id⟩, .of_faults htested⟩
  refused _ _ _ _ := by
    refine ⟨⟨id, id⟩, fun error herror _ => .inl ?_⟩
    cases herror
    exact ⟨List.forall_mem_nil _, nofun⟩
  below {path target p q outcome tested} _ hentered htested := by
    refine ⟨hentered.1, ?_⟩
    cases outcome with
    | ok value => exact .of_faults htested
    | error thrown => exact hentered.2.pass
  done {path p outcome} hown := by
    refine ⟨.refl p, fun error herror hdeep => ?_⟩
    rcases hown _ herror with hfault | hkind
    · rw [hfault.isTooDeep] at hdeep
      cases hdeep
    · exact .inr ⟨error, hkind, hdeep⟩
  stopped hvisited := ⟨hvisited.1, hvisited.2.pass⟩
  passed hvisited hran := ⟨hvisited.1.trans hran.1, hran.2.of_keeps hvisited.1⟩

/-! ## References that are refused -/

/-- Whatever was refused has a record. -/
def RefusesPresent (b : Basis) (p q : Progress) : Prop :=
  ∃ turns, q.history = p.history ++ turns ∧
    ∀ referrer target, .refused referrer target ∈ turns → b.population.contains target = true

namespace RefusesPresent

variable {p q s : Progress}

theorem of_quiet {turns : List Turn} (hhistory : q.history = p.history ++ turns)
    (hquiet : ∀ referrer target, .refused referrer target ∉ turns) : b.RefusesPresent p q :=
  ⟨turns, hhistory, fun referrer target hmem => absurd hmem (hquiet referrer target)⟩

theorem refl (p : Progress) : b.RefusesPresent p p :=
  of_quiet (List.append_nil _).symm fun _ _ => List.not_mem_nil

theorem trans (hfirst : b.RefusesPresent p q) (hsecond : b.RefusesPresent q s) :
    b.RefusesPresent p s := by
  obtain ⟨first, hq, hpresent⟩ := hfirst
  obtain ⟨second, hs, hlater⟩ := hsecond
  refine ⟨first ++ second, by rw [hs, hq, List.append_assoc], fun referrer target hmem => ?_⟩
  exact (List.mem_append.mp hmem).elim (hpresent referrer target) (hlater referrer target)

end RefusesPresent

theorem visit_refusesPresent
    {enter : Pass → Int → Progress → Except Thrown Instance × Progress}
    (henter : ∀ pass id p, b.RefusesPresent p (enter pass id p).2) (pass : Pass) (referrer id : Int)
    (expected : TypeDef) (place : Text) (p : Progress) :
    b.RefusesPresent p (b.visit enter pass referrer id expected place p).2 := by
  unfold visit
  split
  · exact .refl p
  · rename_i r hr
    split
    · exact .refl p
    · split
      · have hentered := henter pass id p
        split <;> rename_i hresult <;> rw [hresult] at hentered <;> exact hentered
      · refine ⟨[.refused referrer id], rfl, fun other target hmem => ?_⟩
        cases List.mem_singleton.mp hmem
        exact Population.contains_of_find? hr

/-- Wherever resolution goes, only references to instances that have a record are refused. -/
theorem enter_refusesPresent (b : Basis) (buildings : Nat) (pass : Pass) (id : Int) (p : Progress) :
    b.RefusesPresent p (b.enter buildings pass id p).2 := by
  induction buildings generalizing pass id p with
  | zero => exact .refl p
  | succ buildings ih =>
    unfold enter
    split
    · exact .refl p
    · split
      · exact .refl p
      · exact .refl p
      · exact .refl p
      · have hbegun : b.RefusesPresent p (p.begin id) :=
          .of_quiet (p.history_begin id) (by simp)
        have hfinished (q : Progress) (ending : Ending) : b.RefusesPresent q (q.finish id ending) :=
          .of_quiet (q.history_finish id ending) (by simp)
        refine (hbegun.trans
          (Build.run_rel RefusesPresent.refl RefusesPresent.trans ?_ ?_ _ _)).trans (hfinished _ _)
        · exact fun target expected place q => visit_refusesPresent ih _ id target expected place q
        · exact fun target q => ih ⟨none, []⟩ target q

/-- The path of an error that says that a reference was refused goes on to that reference. -/
theorem RefusedAt.isSimplePath {referrer target : Int} {error : ResolutionError}
    (h : b.RefusedAt [] referrer target error) (hrecord : b.population.contains target = true) :
    b.population.IsSimplePath (error.chain ++ [target]) := by
  have hpath : b.population.IsSimplePath error.chain.reverse.reverse := by
    rw [List.reverse_reverse]
    exact h.isPath
  have hlast : ∀ other ∈ error.chain.reverse.head?, b.population.Refers other target := by
    intro other hother
    rw [List.head?_reverse, show error.chain.getLast? = some referrer from h.last] at hother
    exact Option.some.inj hother ▸ h.refers
  have hlonger := hpath.extend hlast hrecord fun hmem => h.new (List.mem_reverse.mp hmem)
  rwa [List.reverse_cons, List.reverse_reverse] at hlonger

/-! ## Resolutions -/

variable {id : Int} {p : Progress}

/-- The chain of an error by which references go too deep has as many instances as the limit, and
goes on to one more. -/
theorem longer_of_outOfDepth (hmakers : b.makers.HandOn kind)
    (hbrought : Blueprint.HandOn brought kind) (hclosed : ∀ other, p.standing other ≠ .inProgress)
    (horderly : p.Orderly b.population) {error : ResolutionError}
    (h : (b.resolve brought id p).1 = .error (.resolution error)) (hdepth : error.OutOfDepth) :
    (error.chain.length = b.settings.maxDepth ∧
      ∃ target, b.population.IsSimplePath (error.chain ++ [target])) ∨
    ∃ other, kind (.resolution other) ∧ other.reason.isTooDeep = true := by
  obtain ⟨turns, hlimited⟩ := limited_resolve hmakers hbrought hclosed horderly id
  rcases hlimited.beyond error h hdepth with ⟨referrer, target, hturn⟩ | ⟨other, hother, hdeep, _⟩
  · obtain ⟨own, hown, hrefused⟩ := hlimited.refused referrer target hturn
    obtain rfl : error = own := by
      rw [h] at hown
      exact Thrown.resolution.inj (Except.error.inj hown)
    obtain ⟨present, hhistory, hpresent⟩ :=
      b.enter_refusesPresent b.nesting ⟨brought, []⟩ id p
    obtain rfl : turns = present :=
      List.append_cancel_left (hlimited.history.symm.trans hhistory)
    exact .inl ⟨hrefused.length, target, hrefused.isSimplePath (hpresent referrer target hturn)⟩
  · exact .inr ⟨other, hother, hdeep⟩

/-- An error of depth comes from a row of new instances as long as the limit, from a recursion that
has failed, or from a factory. -/
theorem depth_of_unsettled (hmakers : b.makers.HandOn kind)
    (hbrought : Blueprint.HandOn brought kind) (hclosed : ∀ other, p.standing other ≠ .inProgress)
    (horderly : p.Orderly b.population) {error : ResolutionError}
    (h : (b.resolve brought id p).1 = .error (.resolution error))
    (hdeep : error.reason.isTooDeep = true) :
    (error.chain.head? = some id ∧ (∀ other ∈ error.chain, p.Unsettled other) ∧
      ((error.chain.length = b.settings.maxDepth ∧
          ∃ target, b.population.IsSimplePath (error.chain ++ [target])) ∨
        ∃ original, error.origin = some original ∧ original.isExhausted = true)) ∨
    ∃ other, kind (.resolution other) ∧ other.reason.isTooDeep = true := by
  cases hr : b.population.find? id with
  | none =>
    rw [resolve_of_find?_eq_none hr] at h
    cases h
    cases hdeep
  | some r =>
    have hhead := head?_chain_of_resolve hclosed horderly hr h
    have hnovel := (b.novel kind).resolve hmakers hbrought hclosed horderly hr
    rcases hnovel.2 error h hdeep with ⟨hchain, hexhausted⟩ | hkind
    · cases horigin : error.origin with
      | some original =>
        exact .inl ⟨hhead, hchain, .inr ⟨original, rfl, hexhausted original horigin⟩⟩
      | none =>
        refine (longer_of_outOfDepth hmakers hbrought hclosed horderly h
          ⟨hdeep, horigin⟩).imp_left fun hlonger => ?_
        exact ⟨hhead, hchain, .inl hlonger⟩
    · exact .inr hkind

end Basis

namespace Table

variable {t : Table}

/-- An instance is asked for at a table where anything may have been done before, and default
holders or others that hand errors on build the instances.  Nothing is begun that was not unvisited
before, so what is known already is never gone into again.  If the answer is an error of depth, then
its chain begins with the instance asked for, and all instances on the chain were unvisited before.
Either there are as many as the limit, and the chain goes on along references to yet another
instance; or a recursion of something else has failed.  There are no other errors of depth but those
that factories raise themselves. -/
theorem depth_of_unvisited {registry : Registry} {makers : Makers} {settings : Settings}
    (hdeeds : (empty registry makers settings).Deeds t) {kind : Thrown → Prop}
    (hmakers : t.basis.makers.HandOn kind) {expected : Option Expected}
    (hbrought : Blueprint.HandOn (expected.bind Expected.brought?) kind) (id : Int) :
    (∃ turns, (t.resolve id expected).2.progress.history = t.progress.history ++ turns ∧
      ∀ other, .begun other ∈ turns → t.standing other = .unvisited) ∧
    ∀ error, (t.resolve id expected).1 = .error (.resolution error) →
      error.reason.isTooDeep = true →
      (error.chain.head? = some id ∧ (∀ other ∈ error.chain, t.standing other = .unvisited) ∧
        ((error.chain.length = t.basis.settings.maxDepth ∧
            ∃ target, t.basis.population.IsSimplePath (error.chain ++ [target])) ∨
          ∃ original, error.origin = some original ∧ original.isExhausted = true)) ∨
      ∃ other, kind (.resolution other) ∧ other.reason.isTooDeep = true := by
  have hidle : t.Idle := (idle_empty registry makers settings).deeds hdeeds
  constructor
  · obtain ⟨turns, htells⟩ := Progress.tells_of_moves (t.advances_resolve id expected).moves
    refine ⟨turns, htells.history, fun other hbegun => ?_⟩
    exact Progress.Unsettled.unvisited (htells.begun hbegun) (hidle.closed other)
  · intro error herror hdeep
    rcases resolve_fst_eq_error herror with hpass | ⟨own, _, hcheck⟩
    · refine (Basis.depth_of_unsettled hmakers hbrought hidle.closed hidle.orderly hpass
        hdeep).imp_left (And.imp_right (And.imp_left fun hchain => ?_))
      exact fun other hmem => (hchain other hmem).unvisited (hidle.closed other)
    · rw [isTooDeep_of_checkExpected hcheck] at hdeep
      cases hdeep

end Table

namespace Sample

/-- One instance at a time. -/
def solitary : Settings := ⟨1, true, true, by decide, by decide⟩

/-- A node that has been resolved, and another one that refers to it. -/
def remembering : Table :=
  (Table.empty registry .initial solitary).session
    [.add (record 1 []), .add (record 2 [1]), .resolve 1 none]

end Sample

namespace Table

theorem depth_of_unvisited_remembering :
    ∃ error target, (Sample.remembering.resolve 2 none).1 = .error (.resolution error) ∧
      error.chain.head? = some 2 ∧ Sample.remembering.standing 2 = .unvisited ∧
      error.chain.length = 1 ∧
      Sample.remembering.basis.population.IsSimplePath (error.chain ++ [target]) := by
  have hdeeds : (empty Sample.registry .initial Sample.solitary).Deeds Sample.remembering :=
    deeds_session _ [.add (Sample.record 1 []), .add (Sample.record 2 [1]), .resolve 1 none]
  obtain ⟨error, herror, hdeep, horigin⟩ : ∃ error,
      (Sample.remembering.resolve 2 none).1 = .error (.resolution error) ∧
        error.reason.isTooDeep = true ∧ error.origin = none := ⟨_, rfl, rfl, rfl⟩
  have hmakers : Sample.remembering.basis.makers.HandOn fun _ => False := Makers.handOn_initial _
  have hbrought :
      Blueprint.HandOn ((none : Option Expected).bind Expected.brought?) fun _ => False := nofun
  obtain ⟨_, hdepth⟩ := depth_of_unvisited hdeeds hmakers hbrought 2
  rcases hdepth error herror hdeep with ⟨hhead, hchain, ⟨hlength, target, hpath⟩ | hraised⟩ | hkind
  · exact ⟨error, target, herror, hhead, hchain 2 (List.mem_of_mem_head? hhead), hlength, hpath⟩
  · obtain ⟨original, hraised, _⟩ := hraised
    rw [horigin] at hraised
    cases hraised
  · obtain ⟨other, hother, _⟩ := hkind
    exact hother.elim

/-- A reference goes too deep though no row of new instances is longer than the limit: the instance
that it leads to has been resolved before. -/
theorem not_depth_of_unvisited :
    (∃ value, Sample.remembering.standing 1 = .resolved value) ∧
    (∃ error, (Sample.remembering.resolve 2 none).1 = .error (.resolution error) ∧
      error.reason = .tooDeep Sample.remembering.basis.settings.maxDepth) ∧
    ∀ path, path.head? = some 2 → Sample.remembering.basis.population.IsSimplePath path →
      (∀ other ∈ path, Sample.remembering.progress.Unsettled other) →
      path.length ≤ Sample.remembering.basis.settings.maxDepth := by
  refine ⟨⟨_, rfl⟩, ⟨_, rfl, rfl⟩, fun path hhead hpath hunsettled => ?_⟩
  rcases path with _ | ⟨first, _ | ⟨second, rest⟩⟩
  · cases hhead
  · exact Nat.le_refl 1
  · obtain rfl : first = 2 := Option.some.inj hhead
    obtain ⟨r, hr, hmem⟩ := (List.isChain_cons_cons.mp hpath.linked).1
    obtain rfl : Sample.record 2 [1] = r := Option.some.inj hr
    obtain rfl : second = 1 := List.mem_singleton.mp hmem
    exact absurd rfl ((hunsettled 1 (by simp)).1 _)

end Table

end Part21
