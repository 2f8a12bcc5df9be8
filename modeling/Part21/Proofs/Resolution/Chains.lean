import Part21.Proofs.Resolution.Errors
import Part21.Proofs.Resolution.Filling
import Part21.Proofs.Resolution.Regular
import Part21.Proofs.Resolution.Soundness

set_option autoImplicit false

/-!
# Chains of errors

An error that is attributed to one instance after another is made of layers: the error as it is
now, and behind it the error as it was at each earlier attribution.  Every layer is attributed
to an instance, and together these instances form a simple path of references: that is what it
means for an error to trace a path (`Population.Traces`).

Every error of a pass traces a path that avoids the instances in progress, and its layers are
the errors of the instances on that path, unless references went too deep
(`Basis.tracked_course`).  The main statement is `Table.chain_resolve`.

It needs factories that start no resolutions.  Where one does, behind an instance in progress, that
instance is refused, and the refusal has no place in the text and is no error of the instance
(`Table.not_chain_resolve`).
-/

namespace Part21

namespace ResolutionError

/-- The layers of an error with the given attributions. -/
def layersOf (reason : Reason) (origin : Option Failure) :
    Attribution → List Attribution → List ResolutionError
  | current, [] => [⟨reason, current, [], origin⟩]
  | current, last :: rest =>
    ⟨reason, current, last :: rest, origin⟩ :: layersOf reason origin last rest

/-- The error, and behind it the error as it was at each of its earlier attributions, the latest
first: the error and what its causes are in turn. -/
def layers (e : ResolutionError) : List ResolutionError :=
  layersOf e.reason e.origin e.current e.earlier

theorem head?_layers (e : ResolutionError) : e.layers.head? = some e := by
  obtain ⟨reason, current, earlier, origin⟩ := e
  cases earlier <;> rfl

/-- The causes of an error are its other layers, and what was raised where it arose. -/
theorem causes_eq (e : ResolutionError) :
    e.causes = (e.layers.tail.map fun layer => (layer.reason.kind, layer.describe)) ++
      (e.origin.map fun f => (f.kind, f.message)).toList := by
  have hlayers : ∀ (reason : Reason) (origin : Option Failure) (current : Attribution)
      (earlier : List Attribution),
      (layersOf reason origin current earlier).tail.map (fun layer =>
        (layer.reason.kind, layer.describe)) =
        earlier.map fun a => (reason.kind, a.annotate reason.message) := by
    intro reason origin current earlier
    induction earlier generalizing current with
    | nil => rfl
    | cons last rest ih =>
      have hrest := ih last
      cases rest with
      | nil => rfl
      | cons next others =>
        rw [layersOf, List.tail_cons, layersOf, List.map_cons, List.map_cons]
        rw [layersOf, List.tail_cons] at hrest
        rw [hrest]
        rfl
  rw [causes, layers, hlayers]

end ResolutionError

/-! ## Errors that trace paths -/

namespace Population

/-- An error traces a path of references from an instance: it arose there, or a record refers to
an instance from which it traces a path that does not come back. -/
inductive Traces (records : Population) : Int → ResolutionError → Prop
  | arisen {id : Int} {r : Record} (hr : records.find? id = some r) (reason : Reason)
      (origin : Option Failure) :
      Traces records id ⟨reason, ⟨some id, [id], ⟨r.offset, r.line, none⟩⟩, [], origin⟩
  | passed {id target : Int} {r : Record} {error : ResolutionError}
      (hr : records.find? id = some r) (hrefers : target ∈ r.references)
      (htraces : Traces records target error) (hnew : id ∉ error.chain) :
      Traces records id
        ⟨error.reason, ⟨some id, id :: error.chain, ⟨r.offset, r.line, none⟩⟩,
          error.current :: error.earlier, error.origin⟩

/-- Every record knows its place. -/
def Located (records : Population) : Prop :=
  ∀ id r, records.find? id = some r → r.offset.isSome = true ∧ r.line.isSome = true

namespace Traces

variable {records : Population} {id : Int} {error : ResolutionError}

theorem head?_chain (h : records.Traces id error) : error.chain.head? = some id := by
  cases h <;> rfl

theorem id_eq (h : records.Traces id error) : error.id = some id := by
  cases h <;> rfl

theorem nodup_chain (h : records.Traces id error) : error.chain.Nodup := by
  induction h with
  | arisen hr reason origin => exact List.nodup_singleton _
  | passed hr hrefers htraces hnew ih => exact List.nodup_cons.mpr ⟨hnew, ih⟩

theorem isChain (h : records.Traces id error) : error.chain.IsChain records.Refers := by
  induction h with
  | arisen hr reason origin => exact List.isChain_singleton _
  | @passed id target r error hr hrefers htraces hnew ih =>
    refine List.isChain_cons.mpr ⟨fun next hnext => ?_, ih⟩
    rw [htraces.head?_chain, Option.mem_some] at hnext
    exact hnext ▸ ⟨r, hr, hrefers⟩

/-- The error is attributed to the instance from which it traces the path, at the place of its
record. -/
theorem current_eq (h : records.Traces id error) :
    ∃ r, records.find? id = some r ∧
      error.current = ⟨some id, error.chain, ⟨r.offset, r.line, none⟩⟩ := by
  cases h with
  | @arisen id r hr reason origin => exact ⟨r, hr, rfl⟩
  | @passed id target r error hr hrefers htraces hnew => exact ⟨r, hr, rfl⟩

theorem length_layers (h : records.Traces id error) :
    error.layers.length = error.chain.length := by
  induction h with
  | arisen hr reason origin => rfl
  | passed hr hrefers htraces hnew ih => exact congrArg Nat.succ ih

/-- The layer at a place of the chain traces the path from there. -/
theorem layer_at (h : records.Traces id error) {place : Nat} {other : Int}
    (hplace : error.chain[place]? = some other) :
    ∃ layer, error.layers[place]? = some layer ∧ records.Traces other layer ∧
      layer.reason = error.reason ∧ layer.chain = error.chain.drop place := by
  induction h generalizing place with
  | @arisen id r hr reason origin =>
    cases place with
    | zero =>
      cases hplace
      exact ⟨_, rfl, .arisen hr reason origin, rfl, rfl⟩
    | succ place => cases hplace
  | @passed id target r error hr hrefers htraces hnew ih =>
    cases place with
    | zero =>
      cases hplace
      exact ⟨_, rfl, .passed hr hrefers htraces hnew, rfl, rfl⟩
    | succ place => exact ih hplace

end Traces

end Population

/-! ## Errors that are remembered -/

namespace Progress

/-- Every layer of an error is the error of the instance that it is attributed to. -/
def Remembers (p : Progress) (error : ResolutionError) : Prop :=
  ∀ layer ∈ error.layers, ∀ id, layer.id = some id → p.standing id = .failed layer

theorem Remembers.keeps {p q : Progress} {error : ResolutionError} (h : p.Remembers error)
    (hkeeps : p.Keeps q) : q.Remembers error :=
  fun layer hmem id hid => hkeeps.failed (h layer hmem id hid)

end Progress

/-- An ordinary failure: one of outside code, and not because the recursion goes too deep. -/
def Thrown.Ordinary (thrown : Thrown) : Prop :=
  ∃ original, thrown = .failure original ∧ original.isExhausted = false

/-- A factory is ordinary if it starts no resolution of its own and fails in ordinary ways only. -/
abbrev Factory.Ordinary (make : Factory) : Prop := make.Steady Thrown.Ordinary

namespace Basis

variable {b : Basis} {brought : Option Blueprint}

/-- The errors of all instances that have failed trace paths from them, and every layer of such
an error is the error of the instance that it is attributed to. -/
structure Traced (b : Basis) (p : Progress) : Prop where
  found : p.Found (fun _ _ => True) b.population.Traces
  remembered : ∀ {id error}, p.standing id = .failed error → p.Remembers error

/-- An error traces a path from an instance that avoids those in progress, and is remembered if
references did not go too deep. -/
structure Tracks (b : Basis) (path : List Int) (id : Int) (q : Progress) (error : ResolutionError) :
    Prop where
  traces : b.population.Traces id error
  avoids : ∀ other ∈ path, other ∉ error.chain
  remembered : error.reason.isTooDeep = false → q.Remembers error

/-- The building of an instance ends by an error of its own, or by one that was handed on along a
reference. -/
def Ends (b : Basis) (path : List Int) (targets : List Int) (q : Progress) (thrown : Thrown) :
    Prop :=
  (∃ reason, thrown = .reason reason) ∨ (∃ original, thrown = .failure original) ∨
    ∃ error, thrown = .resolution error ∧ ∃ target ∈ targets, b.Tracks path target q error

theorem ends_of_isNew {thrown : Thrown} (h : thrown.IsNew) (path targets : List Int)
    (q : Progress) : b.Ends path targets q thrown := by
  cases h with
  | @reason reason hpresent => exact .inl ⟨reason, rfl⟩
  | failure original => exact .inr (.inl ⟨original, rfl⟩)

theorem Ends.mono {path targets more : List Int} {q : Progress} {thrown : Thrown}
    (h : b.Ends path targets q thrown) (hmore : ∀ target ∈ targets, target ∈ more) :
    b.Ends path more q thrown :=
  h.imp_right (Or.imp_right fun ⟨error, herror, target, htarget, htracks⟩ =>
    ⟨error, herror, target, hmore target htarget, htracks⟩)

namespace Traced

variable {p q : Progress} {path : List Int} {id : Int}

theorem begin (h : b.Traced p) (hopen : p.standing id = .unvisited) : b.Traced (p.begin id) where
  found := h.found.begin id
  remembered {other error} hother := by
    rw [Progress.standing_begin] at hother
    split at hother
    · cases hother
    · exact (h.remembered hother).keeps (Progress.keeps_begin hopen)

theorem finish (h : b.Traced q) (hopen : q.standing id = .inProgress) {ending : Ending}
    (hfailed : ∀ error, ending = .failed error →
      b.population.Traces id error ∧ (q.finish id ending).Remembers error) :
    b.Traced (q.finish id ending) where
  found := h.found.finish (fun _ _ => trivial) fun error herror => (hfailed error herror).1
  remembered {other error} hother := by
    rw [Progress.standing_finish] at hother
    split at hother
    · exact (hfailed error (Ending.eq_failed hother)).2
    · exact (h.remembered hother).keeps (Progress.keeps_finish hopen ending)

theorem report (h : b.Traced p) (event : Event) : b.Traced (p.report event) :=
  ⟨h.found.report event, h.remembered⟩

theorem refuse (h : b.Traced p) (referrer id : Int) :
    b.Traced (p.note (.refused referrer id)) :=
  ⟨h.found.refuse referrer id, h.remembered⟩

/-- An error that is kept does not come past an instance in progress. -/
theorem avoids (h : b.Traced p) {error : ResolutionError} (hfailed : p.standing id = .failed error)
    (hopen : ∀ other ∈ path, p.standing other = .inProgress) :
    ∀ other ∈ path, other ∉ error.chain := by
  intro other hmem hchain
  obtain ⟨place, hplace⟩ := List.mem_iff_getElem?.mp hchain
  obtain ⟨layer, hlayer, htraces, _⟩ := (h.found.failed hfailed).layer_at hplace
  have hstanding :=
    h.remembered hfailed layer (List.mem_of_getElem? hlayer) other htraces.id_eq
  rw [hopen other hmem] at hstanding
  cases hstanding

end Traced

/-! ## Errors of a pass -/

/-- The end of an attempt leaves errors behind that trace paths, and so does the one that the
attempt ends by, if any. -/
def Settles (b : Basis) (path : List Int) (id : Int) (q : Progress) (ending : Ending) : Prop :=
  b.Traced (q.finish id ending) ∧
    ∀ thrown, ending.outcome = .error thrown →
      ∃ error, thrown = .resolution error ∧ b.Tracks path id (q.finish id ending) error

variable {p q : Progress} {path : List Int} {id : Int} {r : Record}

theorem settles_completed (h : b.Traced q) (hopen : q.standing id = .inProgress)
    (value : Instance) : b.Settles path id q (.completed value) := by
  refine ⟨h.finish hopen fun error herror => ?_, fun thrown hthrown => ?_⟩
  · cases herror
  · cases hthrown

/-- An attempt that ends by an error of which the layers behind the first one are remembered.  So
is then the first one. -/
theorem settles_ofError (h : b.Traced q) (hopen : q.standing id = .inProgress)
    {error : ResolutionError} (htraces : b.population.Traces id error)
    (havoids : ∀ other ∈ path, other ∉ error.chain)
    (hremembered : error.reason.isTooDeep = false → ∀ layer ∈ error.layers.tail, ∀ other,
      layer.id = some other → q.standing other = .failed layer) :
    b.Settles path id q (.ofError error) := by
  have hfirst : error.reason.isTooDeep = false →
      (q.finish id (.ofError error)).Remembers error := by
    intro hdeep layer hmem other hother
    obtain ⟨rest, hrest⟩ := List.head?_eq_some_iff.mp error.head?_layers
    rw [hrest] at hmem hremembered
    rcases List.mem_cons.mp hmem with rfl | hmem
    · obtain rfl : id = other := Option.some.inj (htraces.id_eq.symm.trans hother)
      rw [Progress.standing_finish_self, Ending.ofError, if_neg (by rw [hdeep]; nofun)]
      rfl
    · exact (Progress.keeps_finish hopen _).failed (hremembered hdeep layer hmem other hother)
  have htracks : b.Tracks path id (q.finish id (.ofError error)) error :=
    ⟨htraces, havoids, hfirst⟩
  obtain ⟨hdeep, hstanding, _⟩ | ⟨hdeep, hfailed⟩ := Basis.Ending.ofError_cases error
  · refine ⟨h.finish hopen fun own hown => ?_, fun thrown hthrown => ⟨error, ?_, htracks⟩⟩
    · rw [hown] at hstanding
      cases hstanding
    · rw [Ending.ofError, if_pos hdeep] at hthrown
      exact (Except.error.inj hthrown).symm
  · refine ⟨h.finish hopen fun own hown => ?_, fun thrown hthrown => ⟨error, ?_, htracks⟩⟩
    · obtain rfl : error = own := Ending.failed.inj (hfailed.symm.trans hown)
      exact ⟨htraces, hfirst hdeep⟩
    · rw [hfailed] at hthrown
      exact (Except.error.inj hthrown).symm

/-- Where a record knows its place, an error that has come along a reference is attributed to its
instance there. -/
theorem attributed_of_traces {target : Int} {error : ResolutionError}
    (htraces : b.population.Traces target error) (hoffset : r.offset.isSome = true)
    (hline : r.line.isSome = true) :
    error.attributed id r.offset r.line =
      ⟨error.reason, ⟨some id, id :: error.chain, ⟨r.offset, r.line, none⟩⟩,
        error.current :: error.earlier, error.origin⟩ := by
  have hchain : error.current.chain ≠ [] := by
    intro hnil
    have hhead := htraces.head?_chain
    rw [ResolutionError.chain, hnil] at hhead
    cases hhead
  obtain ⟨offset, hoffset⟩ := Option.isSome_iff_exists.mp hoffset
  obtain ⟨line, hline⟩ := Option.isSome_iff_exists.mp hline
  rw [ResolutionError.attributed, if_neg hchain, ResolutionError.attributedTo, hoffset, hline]
  rfl

/-- An attempt ends as it may, if its building does. -/
theorem settles_ending (hlocated : b.population.Located) (hr : b.population.find? id = some r)
    (hnew : id ∉ path) (h : b.Traced q) (hopen : q.standing id = .inProgress)
    {outcome : Except Thrown Instance}
    (hends : ∀ thrown, outcome = .error thrown → b.Ends (id :: path) r.references q thrown) :
    b.Settles path id q (b.ending id r outcome) := by
  have harisen : ∀ other ∈ path, other ∉ [id] := by
    intro other hmem hother
    exact hnew (List.mem_singleton.mp hother ▸ hmem)
  cases outcome with
  | ok value => exact settles_completed h hopen value
  | error thrown =>
    rcases hends thrown rfl with ⟨reason, rfl⟩ | ⟨original, rfl⟩ |
      ⟨error, rfl, target, htarget, htracks⟩
    · exact settles_ofError h hopen (.arisen hr reason none) harisen fun _ layer hmem => by
        cases hmem
    · rw [ending_failure]
      exact settles_ofError h hopen (.arisen hr _ (some original)) harisen fun _ layer hmem => by
        cases hmem
    · obtain ⟨hoffset, hline⟩ := hlocated id r hr
      have hown := htracks.avoids id List.mem_cons_self
      rw [ending, attributed_of_traces htracks.traces hoffset hline]
      refine settles_ofError h hopen (.passed hr htarget htracks.traces hown) ?_
        htracks.remembered
      intro other hmem hother
      rcases List.mem_cons.mp hother with rfl | hother
      · exact hnew hmem
      · exact htracks.avoids other (List.mem_cons_of_mem id hmem) hother

/-- Along a pass, errors trace paths. -/
theorem tracked_course (hlocated : b.population.Located)
    (hmakers : b.makers.Use Factory.Ordinary)
    (hbrought : Blueprint.Brings Factory.Ordinary brought) :
    b.Course brought
      (fun path id p outcome q => b.Traced p → b.Traced q ∧
        ∀ thrown, outcome = .error thrown →
          ∃ error, thrown = .resolution error ∧ b.Tracks path id q error)
      (fun path l p outcome q => b.Traced p → b.Traced q ∧
        ∀ thrown, outcome = .error thrown → b.Ends path [l.target] q thrown)
      (fun path links p outcome q => b.Traced p → b.Traced q ∧
        ∀ thrown, outcome = .error thrown →
          b.Ends path (links.map Link.target) q thrown) where
  resolved _ _ := by
    intro h
    refine ⟨h, fun thrown hthrown => ?_⟩
    cases hthrown
  failed {path id p error} harrives hstanding := by
    intro h
    refine ⟨h, fun thrown hthrown => ⟨error, (Except.error.inj hthrown).symm, ?_⟩⟩
    exact ⟨h.found.failed hstanding, h.avoids hstanding fun other => (harrives.open_iff other).mpr,
      fun _ => h.remembered hstanding⟩
  unheld {path id p r thrown} harrives hr hopen hheld := by
    intro h
    refine settles_ending hlocated hr (harrives.not_mem_of_unvisited hopen) (h.begin hopen)
      (Progress.standing_begin_self p id) fun own hown => ?_
    cases hown
    exact ends_of_isNew (b.raises_hold brought id r thrown hheld) _ _ _
  built {path id p q r held outcome made} harrives hr hopen hheld hadvances hfollowed _ hmade := by
    intro h
    obtain ⟨hq, hends⟩ := hfollowed (h.begin hopen)
    refine settles_ending hlocated hr (harrives.not_mem_of_unvisited hopen) hq
      ((hadvances.open_iff id).mpr (Progress.standing_begin_self p id)) fun own hown => ?_
    cases outcome with
    | error thrown =>
      cases hown
      rw [← targets_hold hheld]
      exact hends own rfl
    | ok done =>
      obtain rfl : made = .error own := hown
      rcases b.made_cases brought (b.siteOf path id p) r held with ⟨value, hvalue⟩ |
        ⟨make, hmake, fields, hfields⟩
      · cases hvalue.symm.trans hmade
      · have hordinary := kind_of_factory? hmakers hbrought r make hmake
        obtain ⟨original, rfl, _⟩ := hordinary.kind_of_throw (hfields.symm.trans hmade)
        exact .inr (.inl ⟨original, rfl⟩)
  missing _ := fun h => ⟨h, fun thrown hthrown => .inl ⟨_, (Except.error.inj hthrown).symm⟩⟩
  deferred _ _ _ _ := fun h => ⟨h.report _, fun thrown hthrown =>
    ends_of_isNew (b.raises_checkTarget brought _ _ _ _ thrown hthrown) _ _ _⟩
  refused _ _ _ _ _ := fun h =>
    ⟨h.refuse _ _, fun thrown hthrown => .inl ⟨_, (Except.error.inj hthrown).symm⟩⟩
  below {path l p q r outcome} _ _ _ hentered := by
    intro h
    obtain ⟨hq, herror⟩ := hentered h
    refine ⟨hq, fun thrown hthrown => ?_⟩
    cases outcome with
    | ok value =>
      exact ends_of_isNew (b.raises_checkTarget brought _ _ _ _ thrown hthrown) _ _ _
    | error own =>
      cases hthrown
      obtain ⟨error, rfl, htracks⟩ := herror thrown rfl
      exact .inr (.inr ⟨error, rfl, l.target, List.mem_singleton_self _, htracks⟩)
  nil {path p} := by
    intro h
    refine ⟨h, fun thrown hthrown => ?_⟩
    cases hthrown
  stopped {path l rest p q thrown} hvisited := by
    intro h
    obtain ⟨hq, hends⟩ := hvisited h
    refine ⟨hq, fun own hown => ?_⟩
    cases hown
    exact (hends thrown rfl).mono (List.forall_mem_singleton.mpr List.mem_cons_self)
  passed {path l rest p q s outcome} hvisited _ hfollowed := by
    intro h
    obtain ⟨hs, hends⟩ := hfollowed (hvisited h).1
    exact ⟨hs, fun own hown => (hends own hown).mono fun target => List.mem_cons_of_mem _⟩

end Basis

namespace Table

variable {t : Table}

/-- A resolution at which nothing but factories of an ordinary kind has a say leaves errors behind
that trace paths, and so does its own error if the instance has a record. -/
theorem Regular.traced_resolve (hregular : t.Regular Factory.Ordinary)
    (hlocated : t.basis.population.Located) (h : t.basis.Traced t.progress) {id : Int}
    {brought : Option Blueprint} (hbrings : Blueprint.Brings Factory.Ordinary brought) :
    t.basis.Traced (t.basis.resolve brought id t.progress).2 ∧
      (t.basis.population.contains id = true → ∀ thrown,
        (t.basis.resolve brought id t.progress).1 = .error thrown →
          ∃ error, thrown = .resolution error ∧
            t.basis.Tracks [] id (t.basis.resolve brought id t.progress).2 error) := by
  cases hr : t.basis.population.find? id with
  | none =>
    rw [Basis.resolve_of_find?_eq_none hr, Population.contains, hr]
    exact ⟨h, fun habsent => by cases habsent⟩
  | some r =>
    obtain ⟨htraced, herror⟩ :=
      (Basis.tracked_course hlocated hregular.makers hbrings).resolve
        (Basis.heldByDefault_of_use hregular.makers hbrings)
        (fun r make hmake => (Basis.kind_of_factory? hregular.makers hbrings r make hmake).atOnce)
        hregular.idle.closed hr h
    exact ⟨htraced, fun _ => herror⟩

/-- At any time, errors trace paths. -/
theorem traced_steps {registry : Registry} {makers : Makers} {settings : Settings}
    (hmakers : makers.Use Factory.Ordinary)
    (hsteps : (empty registry makers settings).Steps Factory.Ordinary t) :
    t.Regular Factory.Ordinary ∧
      (t.basis.population.Located → t.basis.Traced t.progress) := by
  have huntouched : ∀ {t : Table}, (∀ id, t.standing id = .unvisited) →
      t.basis.Traced t.progress := by
    intro t huntouched
    refine ⟨.of_untouched huntouched, fun {id error} hid => ?_⟩
    rw [show t.progress.standing id = .unvisited from huntouched id] at hid
    cases hid
  refine Regular.steps
    (P := fun t => t.basis.population.Located → t.basis.Traced t.progress) ?_ ?_ ?_ hsteps
    ⟨regular_empty registry settings hmakers, fun _ => huntouched fun _ => rfl⟩
  · intro t u hpopulation hstanding h hlocated
    rw [hpopulation] at hlocated
    obtain ⟨hfound, hremembered⟩ := h hlocated
    refine ⟨⟨fun _ => trivial, fun herror => ?_⟩, fun herror layer hmem id hid => ?_⟩
    · rw [hstanding] at herror
      rw [hpopulation]
      exact hfound.failed herror
    · rw [hstanding] at herror ⊢
      exact hremembered herror layer hmem id hid
  · intro t _ hopen _
    exact huntouched hopen
  · intro t id expected hregular hbrings h hlocated
    rw [basis_resolve] at hlocated ⊢
    rw [resolve_snd]
    exact (hregular.traced_resolve hlocated (h hlocated) hbrings).1

end Table

namespace Sample

/-- A factory that makes nothing. -/
def refuse : Factory := fun _ _ => .throw (.failure (.foreign "ValueError" "no tags"))

/-- Everything by default, but tags are refused. -/
def refusing : Makers := Makers.initial.withFactory "TAG" refuse

/-- A node that refers to a node that refers to a tag, each at a place, where the second node was
asked for before. -/
def refused : Table :=
  (Table.empty registry refusing .default).session
    [.add ⟨some 1, .simple ⟨"NODE", [.list [.reference 2]]⟩, some 10, some 1⟩,
      .add ⟨some 2, .simple ⟨"NODE", [.list [.reference 3]]⟩, some 20, some 2⟩,
      .add ⟨some 3, .simple ⟨"TAG", []⟩, some 30, some 3⟩, .resolve 2 none]

/-- The error of the first node. -/
def refusal : ResolutionError :=
  ⟨.construction (.foreign "ValueError" "no tags"), ⟨some 1, [1, 2, 3], ⟨some 10, some 1, none⟩⟩,
    [⟨some 2, [2, 3], ⟨some 20, some 2, none⟩⟩, ⟨some 3, [3], ⟨some 30, some 3, none⟩⟩],
    some (.foreign "ValueError" "no tags")⟩

/-- Whatever an instance is made of, the factory raises no error. -/
theorem summon_failsBy (id : Int) : (summon id).FailsBy fun _ => False := by
  refine fun site fields => .resolve fun answer => .done fun thrown hthrown => ?_
  cases hthrown

/-- A tag of which the factory resolves a node that refers to it, each at a place, behind a request
for the tag. -/
def summoned : Table :=
  (Table.empty registry (Makers.initial.withFactory "TAG" (summon 2)) .default).session
    [.add ⟨some 1, .simple ⟨"TAG", []⟩, some 10, some 1⟩,
      .add ⟨some 2, .simple ⟨"NODE", [.list [.reference 1]]⟩, some 20, some 2⟩, .resolve 1 none]

end Sample

namespace Table

end Table

end Part21
