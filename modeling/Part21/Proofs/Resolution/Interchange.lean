import Part21.Proofs.Resolution.Filling
import Part21.Proofs.Resolution.Resemblance

set_option autoImplicit false

/-!
# One record for another

Two populations may differ in one record only.  While its instance is in progress, nothing but the
tests of references to it depends on that record: it is not built again, and nobody is answered
with its instance.  So where these tests resemble each other, what is resolved meanwhile goes the
same way on both populations, up to descriptions of what was found (`Basis.enter_inStep`).
-/

namespace Part21

/-! ## Progress -/

/-- While an instance is in progress, two resolutions are equally far, up to descriptions of what
was found. -/
structure Progress.Mirrors (i : Int) (p q : Progress) : Prop where
  standing : ∀ id, (p.standing id).Resembles (q.standing id)
  history : List.Forall₂ Turn.Resembles p.history q.history
  inProgress : p.standing i = .inProgress

namespace Progress

variable {i : Int} {p q : Progress}

theorem mirrors_begin_initial (i : Int) : (initial.begin i).Mirrors i (initial.begin i) where
  standing id := by
    rw [standing_begin]
    split
    · exact .inProgress
    · exact .unvisited
  history := .cons (.begun i) .nil
  inProgress := standing_begin_self initial i

namespace Mirrors

theorem inProgress' (h : p.Mirrors i q) : q.standing i = .inProgress := by
  have hstanding := h.standing i
  rw [h.inProgress] at hstanding
  generalize q.standing i = standing at hstanding ⊢
  cases hstanding
  rfl

theorem report (h : p.Mirrors i q) (event : Event) : (p.report event).Mirrors i (q.report event) :=
  ⟨h.standing, h.history, h.inProgress⟩

theorem note (h : p.Mirrors i q) {turn other : Turn} (hturn : turn.Resembles other) :
    (p.note turn).Mirrors i (q.note other) :=
  ⟨h.standing, List.rel_append h.history (.cons hturn .nil), h.inProgress⟩

theorem begin (h : p.Mirrors i q) (id : Int) : (p.begin id).Mirrors i (q.begin id) where
  standing other := by
    rw [standing_begin, standing_begin]
    split
    · exact .inProgress
    · exact h.standing other
  history := List.rel_append h.history (.cons (.begun id) .nil)
  inProgress := by
    rw [standing_begin]
    split
    · rfl
    · exact h.inProgress

theorem finish (h : p.Mirrors i q) {id : Int} (hid : id ≠ i) {ending other : Ending}
    (hending : ending.Resembles other) : (p.finish id ending).Mirrors i (q.finish id other) where
  standing own := by
    rw [standing_finish, standing_finish]
    split
    · exact hending.standing
    · exact h.standing own
  history := List.rel_append h.history (.cons (.ended id hending) .nil)
  inProgress := by rw [standing_finish_other p ending hid.symm, h.inProgress]

end Mirrors

end Progress

/-! ## Populations -/

/-- Two populations differ in one record only. -/
structure Population.Replaces (records others : Population) (i : Int) (r s : Record) : Prop where
  size : others.size = records.size
  elsewhere : ∀ id, id ≠ i → others.find? id = records.find? id
  first : records.find? i = some r
  second : others.find? i = some s

namespace Basis

/-- The same basis with other records. -/
abbrev withPopulation (b : Basis) (records : Population) : Basis :=
  { b with population := records }

variable {b : Basis} {records : Population}

theorem sameSchema_withPopulation (b : Basis) (records : Population) :
    b.SameSchema (b.withPopulation records) := ⟨rfl, rfl, rfl⟩

/-- A reference is tested alike whichever of two records it leads to. -/
def TestsAlike (b : Basis) (id : Int) (r s : Record) : Prop :=
  ∀ expected place, Thrown.Resemble (b.checkTarget none id r expected place)
    (b.checkTarget none id s expected place)

/-! ## Passes -/

variable {i : Int} {r s : Record}

/-- Every record is tested alike, or there is none in either population. -/
theorem find?_cases (h : b.population.Replaces records i r s) (htests : b.TestsAlike i r s)
    (id : Int) :
    (b.population.find? id = none ∧ records.find? id = none) ∨
    ∃ own other, b.population.find? id = some own ∧ records.find? id = some other ∧
      b.TestsAlike id own other := by
  by_cases hid : id = i
  · subst hid
    exact .inr ⟨r, s, h.first, h.second, htests⟩
  · rw [h.elsewhere id hid]
    cases hfind : b.population.find? id with
    | none => exact .inl ⟨rfl, rfl⟩
    | some own => exact .inr ⟨own, own, rfl, rfl, fun _ _ => .refl _⟩

/-- References are followed in step if what they lead to is entered in step. -/
theorem visit_inStep (h : b.population.Replaces records i r s) (htests : b.TestsAlike i r s)
    {enter other : Pass → Int → Progress → Except Thrown Instance × Progress} {path : List Int}
    (henter : ∀ id {p q : Progress}, p.Mirrors i q →
      Thrown.InStep (Progress.Mirrors i) (enter ⟨none, path⟩ id p) (other ⟨none, path⟩ id q))
    (referrer id : Int) (expected : TypeDef) (place : Text) {p q : Progress}
    (hmirrors : p.Mirrors i q) :
    Thrown.InStep (Progress.Mirrors i) (b.visit enter ⟨none, path⟩ referrer id expected place p)
      ((b.withPopulation records).visit other ⟨none, path⟩ referrer id expected place q) := by
  unfold visit
  rcases find?_cases h htests id with ⟨hfind, hfind'⟩ | ⟨own, own', hfind, hfind', htest⟩
  · rw [hfind, hfind']
    exact ⟨.refl _, hmirrors⟩
  · rw [hfind, hfind']
    dsimp only
    split
    · exact ⟨htest expected place, hmirrors.report _⟩
    · split
      · have hentered := henter id hmirrors
        generalize enter ⟨none, path⟩ id p = first at hentered ⊢
        generalize other ⟨none, path⟩ id q = second at hentered ⊢
        obtain ⟨answer, p⟩ := first
        obtain ⟨answer', q⟩ := second
        obtain ⟨hanswer, hstate⟩ := hentered
        cases hanswer with
        | ok value => exact ⟨htest expected place, hstate⟩
        | error h => exact ⟨.error h, hstate⟩
      · exact ⟨.refl _, hmirrors.note (.refused referrer id)⟩

/-- While the instance of the record that differs is in progress, all others are resolved in
step. -/
theorem enter_inStep (h : b.population.Replaces records i r s) (htests : b.TestsAlike i r s)
    (hdiscreet : b.makers.Discreet) (buildings : Nat) (path : List Int) (id : Int) {p q : Progress}
    (hmirrors : p.Mirrors i q) :
    Thrown.InStep (Progress.Mirrors i) (b.enter buildings ⟨none, path⟩ id p)
      ((b.withPopulation records).enter buildings ⟨none, path⟩ id q) := by
  induction buildings generalizing path id p q with
  | zero => exact ⟨.refl _, hmirrors⟩
  | succ buildings ih =>
    unfold enter
    by_cases hid : id = i
    · subst hid
      rw [h.first, h.second]
      dsimp only
      rw [hmirrors.inProgress, hmirrors.inProgress']
      exact ⟨.refl _, hmirrors⟩
    · rw [h.elsewhere id hid]
      cases b.population.find? id with
      | none => exact ⟨.refl _, hmirrors⟩
      | some own =>
        dsimp only
        have hstanding := hmirrors.standing id
        generalize p.standing id = standing at hstanding ⊢
        generalize q.standing id = standing' at hstanding ⊢
        cases hstanding with
        | resolved value => exact ⟨.ok value, hmirrors⟩
        | failed herror => exact ⟨.error (.resolution herror), hmirrors⟩
        | inProgress => exact ⟨.refl _, hmirrors⟩
        | unvisited =>
          dsimp only
          rw [← (b.sameSchema_withPopulation records).build_eq]
          have hvisited : ∀ target expected place {p q : Progress}, p.Mirrors i q →
              Thrown.InStep (Progress.Mirrors i)
                (b.visit (b.enter buildings) ⟨none, id :: path⟩ id target expected place p)
                ((b.withPopulation records).visit ((b.withPopulation records).enter buildings)
                  ⟨none, id :: path⟩ id target expected place q) := by
            intro target expected place p q
            exact visit_inStep h htests (fun other _ _ => ih (id :: path) other) id target expected
              place
          have hsite : Site.Resembles
              ⟨id, (id :: path).length, p.history, b.registry, b.settings⟩
              ⟨id, (id :: path).length, q.history, b.registry, b.settings⟩ :=
            ⟨rfl, rfl, hmirrors.history, rfl, rfl⟩
          obtain ⟨hanswer, hstate⟩ := Build.run_inStep hvisited (fun target _ _ => ih [] target)
            (build_resembles hdiscreet own rfl rfl hsite) (hmirrors.begin id)
          have hending := b.ending_resembles id own hanswer
          exact ⟨hending.outcome, hstate.finish hid hending⟩

end Basis

/-! ## Tables -/

namespace Table

/-- A new table that takes some records takes others that differ from them in one record of the
same name. -/
theorem extend_replace {registry : Registry} {makers : Makers} {settings : Settings}
    {before after : List Record} {r s : Record} {i : Int} (hr : r.id = some i)
    (hs : s.id = some i) {t : Table}
    (h : (empty registry makers settings).extend (before ++ r :: after) = (.ok (), t)) :
    ∃ population records, t = ⟨⟨registry, makers, settings, population⟩, false, .initial⟩ ∧
      (empty registry makers settings).extend (before ++ s :: after) =
        (.ok (), ⟨⟨registry, makers, settings, records⟩, false, .initial⟩) ∧
      population.Replaces records i r s := by
  have hids : (before ++ s :: after).map Record.id = (before ++ r :: after).map Record.id := by
    simp only [List.map_append, List.map_cons, hr, hs]
  have hnamed := named_of_extend h
  have hdistinct := distinct_of_extend_empty h
  have hnamed' : ∀ own ∈ before ++ s :: after, own.id.isSome = true := by
    rw [List.forall_mem_append, List.forall_mem_cons] at hnamed ⊢
    exact ⟨hnamed.1, Option.isSome_of_mem hs, hnamed.2.2⟩
  obtain ⟨population, hextend, hfind⟩ :=
    extend_empty_eq_ok registry makers settings hnamed hdistinct
  obtain ⟨records, hextend', hfind'⟩ :=
    extend_empty_eq_ok registry makers settings hnamed' (hids ▸ hdistinct)
  -- A record of another name stands in the rest of either list.
  have hrest : ∀ {x own : Record} {id : Int}, x.id = some i → id ≠ i →
      (own ∈ before ++ x :: after ∧ own.id = some id ↔
        own ∈ before ++ after ∧ own.id = some id) := by
    intro x own id hx hid
    refine and_congr_left fun hown => ?_
    have hother : own ≠ x := by
      rintro rfl
      exact hid (Option.some.inj (hown.symm.trans hx))
    rw [List.mem_append, List.mem_append, List.mem_cons, or_iff_right hother]
  refine ⟨population, records, (Prod.mk.inj (h.symm.trans hextend)).2, hextend', ?_, ?_, ?_, ?_⟩
  · have hnames : records.ids = population.ids := by
      have hfirst : population.ids = [] ++ _ := ids_extend hextend
      have hsecond : records.ids = [] ++ _ := ids_extend hextend'
      rw [hfirst, hsecond]
      simp only [List.filterMap_append, List.filterMap_cons, hr, hs]
    rw [Population.size, Population.size, ← List.length_map Prod.fst, ← List.length_map Prod.fst]
    exact congrArg List.length hnames
  · intro id hid
    refine Option.ext fun own => ?_
    rw [hfind', hfind, hrest hs hid, hrest hr hid]
  · exact (hfind i r).mpr ⟨by simp, hr⟩
  · exact (hfind' i s).mpr ⟨by simp, hs⟩

end Table

end Part21
