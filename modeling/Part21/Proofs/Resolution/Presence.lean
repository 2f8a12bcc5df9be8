import Part21.Proofs.Resolution.Errors
import Part21.Proofs.Resolution.Filling
import Part21.Proofs.Resolution.Regular
import Part21.Proofs.Resolution.Slots
import Part21.Proofs.Resolution.Soundness

set_option autoImplicit false

/-!
# Missing records

Resolution follows exactly the references that the text of a record names.  So what it says of
missing records can be read off the text: that a record is missing is said only of the target
of a dangling reference, and an instance of which a reference dangles is never resolved
(`Basis.explained_course`).

The main statement is `Table.references_followed`, about single records and, as a consequence,
about tables at any time.
-/

namespace Part21

namespace Population

variable {records : Population}

/-- A reference dangles if it stands in a record and leads to none. -/
theorem mem_dangling {referrer target : Int} :
    (referrer, target) ∈ records.dangling ↔
      records.Refers referrer target ∧ records.contains target = false := by
  simp only [dangling, List.mem_flatMap, List.mem_map, List.mem_filter, Prod.mk.injEq,
    Bool.not_eq_true']
  constructor
  · rintro ⟨⟨id, r⟩, hentry, other, ⟨hmem, hnone⟩, rfl, rfl⟩
    exact ⟨⟨r, find?_eq_some.mpr hentry, hmem⟩, hnone⟩
  · rintro ⟨⟨r, hr, hmem⟩, hnone⟩
    exact ⟨(referrer, r), find?_eq_some.mp hr, target, ⟨hmem, hnone⟩, rfl, rfl⟩

/-- No reference in the record of an instance dangles. -/
def Complete (records : Population) (id : Int) : Prop :=
  ∀ target, (id, target) ∉ records.dangling

/-- If the reason is that a record is missing, some reference to it dangles. -/
def Explains (records : Population) (reason : Reason) : Prop :=
  ∀ target, reason.missing? = some target → ∃ referrer, (referrer, target) ∈ records.dangling

/-- The reason of the error that something ends with is explained. -/
def ExplainsError {α : Type} (records : Population) (outcome : Except Thrown α) : Prop :=
  ∀ error, outcome = .error (.resolution error) → records.Explains error.reason

theorem explains_of_missing?_eq_none {reason : Reason} (h : reason.missing? = none) :
    records.Explains reason := by
  intro target htarget
  rw [h] at htarget
  cases htarget

theorem explainsError_ok {α : Type} (value : α) : records.ExplainsError (.ok value) := by
  intro error h
  cases h

theorem ExplainsError.pass {α β : Type} {thrown : Thrown}
    (h : records.ExplainsError (.error thrown : Except Thrown α)) :
    records.ExplainsError (.error thrown : Except Thrown β) := by
  intro error herror
  cases herror
  exact h error rfl

/-- A new error says of no record that it is missing. -/
theorem explainsError_of_raises {α : Type} {outcome : Except Thrown α}
    (h : Thrown.Raises outcome) : records.ExplainsError outcome := by
  intro error herror
  cases h _ herror with
  | reason hpresent => exact explains_of_missing?_eq_none hpresent

end Population

namespace Basis

variable {b : Basis} {brought : Option Blueprint}

/-- What is resolved is complete, and what has failed is explained. -/
def Explained (b : Basis) (p : Progress) : Prop :=
  p.Found (fun id _ => b.population.Complete id) fun _ error => b.population.Explains error.reason

/-- A step leaves everything explained that was explained before, and so is its own error. -/
def KeepsExplained {α : Type} (b : Basis) (p : Progress) (outcome : Except Thrown α)
    (q : Progress) : Prop :=
  b.Explained p → b.Explained q ∧ b.population.ExplainsError outcome

/-- The error of an attempt is explained if that of its building is. -/
theorem explainsError_ending (id : Int) (r : Record) {outcome : Except Thrown Instance}
    (h : b.population.ExplainsError outcome) :
    b.population.ExplainsError (b.ending id r outcome).outcome := by
  intro error herror
  rcases ending_eq_resolution herror with ⟨own, hown, rfl⟩ | ⟨original, _, rfl⟩
  · rw [own.reason_attributed]
    exact h own hown
  · apply Population.explains_of_missing?_eq_none
    dsimp only
    split <;> rfl

/-- An attempt leaves everything explained. -/
theorem Explained.finish {q : Progress} (h : b.Explained q) {id : Int} {r : Record}
    {outcome : Except Thrown Instance} (herror : b.population.ExplainsError outcome)
    (hcomplete : ∀ value, outcome = .ok value → b.population.Complete id) :
    b.Explained (q.finish id (b.ending id r outcome)) ∧
      b.population.ExplainsError (b.ending id r outcome).outcome := by
  have hending := explainsError_ending id r herror
  refine ⟨Progress.Found.finish h ?_ ?_, hending⟩
  · intro value hcompleted
    cases outcome with
    | ok own => exact hcomplete own rfl
    | error thrown => exact absurd hcompleted (b.ending_error_ne_completed id r thrown value)
  · intro error hfailed
    exact hending error (congrArg Ending.outcome hfailed)

/-- The links of a record that is held lead to what its text refers to. -/
theorem refers_of_link {id : Int} {r : Record} {held : HeldRecord}
    (hr : b.population.find? id = some r) (hheld : b.hold brought id r = .ok held) {l : Link}
    (hmem : l ∈ held.links) : b.population.Refers id l.target := by
  refine ⟨r, hr, ?_⟩
  rw [← targets_hold hheld]
  exact List.mem_map_of_mem hmem

/-- Where the links of a record could all be followed, no reference in it dangles. -/
theorem complete_of_passed {path : List Int} {q : Progress} {id : Int} {r : Record}
    {held : HeldRecord} (hr : b.population.find? id = some r)
    (hheld : b.hold brought id r = .ok held)
    (hpassed : ∀ l ∈ held.links, b.Passed brought path q l) : b.population.Complete id := by
  intro target hdangling
  obtain ⟨⟨own, hown, hmem⟩, hnone⟩ := Population.mem_dangling.mp hdangling
  obtain rfl : own = r := Option.some.inj (hown.symm.trans hr)
  rw [← targets_hold hheld] at hmem
  obtain ⟨l, hl, rfl⟩ := List.mem_map.mp hmem
  obtain ⟨found, hfound, _⟩ := (hpassed l hl).checked
  rw [Population.contains_of_find? hfound] at hnone
  cases hnone

/-- Along a pass, everything that is found out about missing records is explained by the
references that dangle. -/
theorem explained_course (hmakers : b.makers.Use fun _ => False)
    (hbrought : Blueprint.Brings (fun _ => False) brought) :
    b.Course brought (fun _ _ p outcome q => b.KeepsExplained p outcome q)
      (fun _ l p outcome q =>
        (∃ referrer, b.population.Refers referrer l.target) → b.KeepsExplained p outcome q)
      (fun _ links p outcome q =>
        (∀ l ∈ links, ∃ referrer, b.population.Refers referrer l.target) →
          b.KeepsExplained p outcome q) where
  resolved _ _ := fun h => ⟨h, Population.explainsError_ok _⟩
  failed _ hstanding := by
    intro h
    refine ⟨h, fun own hown => ?_⟩
    cases hown
    exact h.failed hstanding
  unheld {path id p r thrown} _ _ _ hheld := by
    intro h
    have hlapses := b.lapses_hold brought id r
    rw [hheld] at hlapses
    exact Explained.finish (Progress.Found.begin h id)
      (Population.explainsError_of_raises hlapses.faults.raises.pass) nofun
  built {path id p q r held outcome made} _ hr _ hheld _ hfollowed hpassed hmade := by
    intro h
    obtain ⟨hq, herror⟩ := hfollowed (fun l hmem => ⟨id, refers_of_link hr hheld hmem⟩)
      (Progress.Found.begin h id)
    obtain ⟨value, rfl⟩ : ∃ value, made = .ok value := by
      rcases b.made_cases brought (b.siteOf path id p) r held with ⟨value, hvalue⟩ | ⟨_, hmake, _⟩
      · exact ⟨value, Build.done.inj (hmade.symm.trans hvalue)⟩
      · exact (kind_of_factory? hmakers hbrought r _ hmake).elim
    cases outcome with
    | ok done =>
      exact Explained.finish hq (Population.explainsError_ok value) fun _ _ =>
        complete_of_passed hr hheld (hpassed rfl)
    | error thrown => exact Explained.finish hq herror.pass nofun
  missing {path l p} hr := by
    rintro ⟨referrer, hrefers⟩ h
    refine ⟨h, fun error herror target htarget => ?_⟩
    cases herror
    cases htarget
    refine ⟨referrer, Population.mem_dangling.mpr ⟨hrefers, ?_⟩⟩
    rw [Population.contains, hr]
    rfl
  deferred _ _ _ _ := fun _ h =>
    ⟨Progress.Found.report h _,
      Population.explainsError_of_raises (b.raises_checkTarget brought _ _ _ _)⟩
  refused _ _ _ _ _ := by
    intro _ h
    refine ⟨Progress.Found.refuse h _ _, fun error herror => ?_⟩
    cases herror
    exact Population.explains_of_missing?_eq_none rfl
  below {path l p q r outcome} _ _ _ hentered := by
    intro _ h
    obtain ⟨hq, herror⟩ := hentered h
    refine ⟨hq, ?_⟩
    cases outcome with
    | ok value => exact Population.explainsError_of_raises (b.raises_checkTarget brought _ _ _ _)
    | error thrown => exact herror.pass
  nil := fun _ h => ⟨h, Population.explainsError_ok ()⟩
  stopped hvisited := fun hrefers => hvisited (List.forall_mem_cons.mp hrefers).1
  passed hvisited _ hfollowed := by
    intro hrefers h
    obtain ⟨hfirst, hrest⟩ := List.forall_mem_cons.mp hrefers
    exact hfollowed hrest (hvisited hfirst h).1

end Basis

namespace Table

variable {t : Table}

/-- Of an instance that has a record it may be said that it is not what is expected, and not
that it is missing. -/
theorem explainsError_checkExpected {id : Int} (hpresent : t.basis.population.contains id = true)
    (expected : Expected) : t.basis.population.ExplainsError (t.checkExpected id expected) := by
  intro error herror
  unfold checkExpected at herror
  split at herror
  · rename_i hnone
    rw [Population.contains, hnone] at hpresent
    cases hpresent
  · dsimp only at herror
    split at herror <;> cases herror
    exact Population.explains_of_missing?_eq_none rfl

/-- A resolution leaves everything explained, and so is its own error if the instance has a
record. -/
theorem Regular.explained_resolve (hregular : t.Regular fun _ => False)
    (h : t.basis.Explained t.progress) {id : Int} {expected : Option Expected}
    (hbrings : Blueprint.Brings (fun _ => False) (expected.bind Expected.brought?)) :
    t.basis.Explained (t.resolve id expected).2.progress ∧
      (t.basis.population.contains id = true →
        t.basis.population.ExplainsError (t.resolve id expected).1) := by
  rw [resolve_snd]
  dsimp only
  cases hr : t.basis.population.find? id with
  | none =>
    rw [Basis.resolve_of_find?_eq_none hr, Population.contains, hr]
    exact ⟨h, fun habsent => by cases habsent⟩
  | some r =>
    obtain ⟨hkept, herror⟩ := (Basis.explained_course hregular.makers hbrings).resolve
      (Basis.heldByDefault_of_use hregular.makers hbrings)
      (fun r make hmake => (Basis.kind_of_factory? hregular.makers hbrings r make hmake).elim)
      hregular.idle.closed hr h
    refine ⟨hkept, fun _ error hthrown => ?_⟩
    rcases resolve_fst_eq_error hthrown with hpass | ⟨own, _, hunexpected⟩
    · exact herror error hpass
    · have hsame := basis_resolve t id expected
      rw [← hsame]
      refine explainsError_checkExpected ?_ own error hunexpected
      rw [hsame]
      exact Population.contains_of_find? hr

/-- At any time, everything that was found out about missing records is explained. -/
theorem explained_steps {registry : Registry} {settings : Settings}
    (hsteps : (empty registry .initial settings).Steps (fun _ => False) t) :
    (t.Regular fun _ => False) ∧ t.basis.Explained t.progress := by
  refine Regular.steps (P := fun t => t.basis.Explained t.progress) ?_ ?_ ?_ hsteps
    ⟨regular_empty registry settings (Makers.use_initial _), .of_untouched fun _ => rfl⟩
  · intro t u hpopulation hstanding h
    refine ⟨fun hvalue => ?_, fun herror => ?_⟩
    · rw [hstanding] at hvalue
      rw [hpopulation]
      exact h.resolved hvalue
    · rw [hstanding] at herror
      rw [hpopulation]
      exact h.failed herror
  · intro t _ huntouched
    exact .of_untouched huntouched
  · intro t id expected hregular hbrings h
    rw [basis_resolve]
    exact (hregular.explained_resolve h hbrings).1

/-- Resolution follows exactly the references in the text.  Where a record is held, be it simple
or complex, the references held for it are those that its text names, in the same order, and
following these and no others is what its building by the default holder consists in, up to what
a factory may do then; without a factory the instance is there.  At a table without holders and
factories, whatever was done there before: if no reference dangles, it is said of no record that
it is missing where an instance that has a record is asked for; and no reference of an instance
that is resolved dangles. -/
theorem references_followed :
    (∀ (b : Basis) (brought : Option Blueprint) (site : Site) (r : Record) (held : HeldRecord),
      b.hold brought site.id r = .ok held →
        held.references = r.references ∧ held.links.map Link.target = r.references ∧
          (b.HeldByDefault brought r → site.registry = b.registry →
            site.settings = b.settings →
            b.build brought site r = Build.after held.links (b.made brought site r held)) ∧
          (b.factory? brought r = none → b.made brought site r held =
            .done (.ok (held.toInstance site.registry site.id)))) ∧
    ∀ (registry : Registry) (settings : Settings) (t : Table),
      (empty registry .initial settings).Steps (fun _ => False) t →
        (t.basis.population.dangling = [] → ∀ id expected,
          t.basis.population.contains id = true →
          Blueprint.Brings (fun _ => False) (expected.bind Expected.brought?) →
          ∀ error, (t.resolve id expected).1 = .error (.resolution error) →
            ∀ target, error.reason ≠ .unresolved target) ∧
        ∀ id value, t.standing id = .resolved value →
          ∀ referrer target, (referrer, target) ∈ t.basis.population.dangling →
            referrer ≠ id := by
  refine ⟨fun b brought site r held hheld => ⟨Basis.references_hold hheld,
    Basis.targets_hold hheld, fun hholder hregistry hsettings => ?_, fun hnone => ?_⟩,
    fun registry settings t hsteps => ?_⟩
  · rw [Basis.build_eq_made hholder hregistry hsettings, hheld]
  · exact Basis.made_of_factory?_eq_none hnone site held
  · obtain ⟨hregular, hexplained⟩ := explained_steps hsteps
    refine ⟨fun hnone id expected hpresent hbrings error herror target hreason => ?_,
      fun id value hvalue referrer target hdangling hid => ?_⟩
    · have hexplains :=
        (hregular.explained_resolve hexplained hbrings).2 hpresent error herror target
      rw [hreason] at hexplains
      obtain ⟨referrer, hmem⟩ := hexplains rfl
      rw [hnone] at hmem
      cases hmem
    · exact hexplained.resolved hvalue target (hid ▸ hdangling)

end Table

namespace Sample

/-- A tag, and a node that refers to it. -/
def labelled : List Request :=
  [.add (record 1 [2]), .add ⟨some 2, .simple ⟨"TAG", []⟩, none, none⟩]

/-- The circle after one of its nodes was asked for. -/
def closed : List Request := circle ++ [.resolve 1 none]

end Sample

namespace Table

theorem references_followed_circle :
    (∃ held, (Sample.table []).basis.hold none 3 (Sample.record 3 [4, 3]) = .ok held ∧
      held.references = [4, 3] ∧ held.links.map Link.target = [4, 3]) ∧
    (((Sample.table Sample.labelled).resolve 1 none).1.toBool = false ∧
      ∀ error, ((Sample.table Sample.labelled).resolve 1 none).1 = .error (.resolution error) →
        ∀ target, error.reason ≠ .unresolved target) ∧
    ∃ value, (Sample.table Sample.closed).standing 1 = .resolved value ∧
      ∀ referrer target,
        (referrer, target) ∈ (Sample.table Sample.closed).basis.population.dangling →
          referrer ≠ 1 := by
  have hsteps : ∀ requests : List Request, (∀ q ∈ requests, q.Expects fun own => own = none) →
      (empty Sample.registry .initial .default).Steps (fun _ => False)
        (Sample.table requests) := by
    intro requests hrequests
    refine steps_session _ fun q hq => ?_
    have hnone := hrequests q hq
    cases q with
    | resolve id expected => exact (hnone : expected = none) ▸ nofun
    | _ => trivial
  have hlabelled := hsteps Sample.labelled (by simp [Sample.labelled, Request.Expects])
  have hclosed := hsteps Sample.closed (by simp [Sample.closed, Sample.circle, Request.Expects])
  have hname : ((Sample.table Sample.closed).standing 1).name = "resolved" := by decide +kernel
  refine ⟨⟨_, rfl, ?_⟩, ⟨by decide +kernel, ?_⟩, ?_⟩
  · obtain ⟨hreferences, htargets, _⟩ := references_followed.1 (Sample.table []).basis none
      ⟨3, 1, [], Sample.registry, .default⟩ (Sample.record 3 [4, 3]) _ rfl
    exact ⟨hreferences, htargets⟩
  · exact (references_followed.2 _ _ _ hlabelled).1 (by decide +kernel) 1 none
      (by decide +kernel) nofun
  · cases hstanding : (Sample.table Sample.closed).standing 1 with
    | resolved value =>
      exact ⟨value, rfl, (references_followed.2 _ _ _ hclosed).2 1 value hstanding⟩
    | _ =>
      rw [hstanding] at hname
      exact absurd hname (by dsimp only [Standing.name]; decide)

end Table

end Part21
