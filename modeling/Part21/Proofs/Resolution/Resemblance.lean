import Part21.Proofs.Resolution.Descent

set_option autoImplicit false

/-!
# Resemblance

A mismatch describes what was found in place of what was expected, and a record may be described
in one way or another while all that matters about it is the same.  What resolution does and keeps
resembles something else if the two differ in such descriptions only.

A holder is discreet if it does not hang on descriptions: at sites that resemble each other, and
answered in ways that resemble each other, it asks for the same and comes to outcomes that resemble
each other.  The same goes for a factory, and the default holder is discreet.  The buildings of a
record resemble each other wherever all holders and factories are discreet
(`Basis.build_resembles`).  Run in step with each other, they stay in step (`Build.run_inStep`).
-/

namespace Part21

/-! ## Errors -/

/-- The same reason, or a mismatch of the same place and type with anything found there. -/
inductive Reason.Resembles : Reason → Reason → Prop
  | refl (reason : Reason) : Resembles reason reason
  | mismatch (place : Option Text) (expected found other : Text) :
      Resembles (.mismatch place expected found) (.mismatch place expected other)

namespace Reason.Resembles

variable {first second : Reason}

theorem kind_eq (h : first.Resembles second) : first.kind = second.kind := by
  cases h <;> rfl

theorem isTooDeep_eq (h : first.Resembles second) : first.isTooDeep = second.isTooDeep := by
  cases h <;> rfl

end Reason.Resembles

/-- Errors with reasons that resemble each other, attributed to the same instances. -/
structure ResolutionError.Resembles (first second : ResolutionError) : Prop where
  reason : first.reason.Resembles second.reason
  current : first.current = second.current
  earlier : first.earlier = second.earlier
  origin : first.origin = second.origin

namespace ResolutionError.Resembles

variable {first second : ResolutionError}

theorem refl (error : ResolutionError) : error.Resembles error := ⟨.refl _, rfl, rfl, rfl⟩

theorem attributed (h : first.Resembles second) (id : Int) (offset line : Option Nat) :
    (first.attributed id offset line).Resembles (second.attributed id offset line) := by
  unfold ResolutionError.attributed ResolutionError.attributedTo
  rw [h.current, h.earlier]
  split <;> exact ⟨h.reason, rfl, rfl, h.origin⟩

end ResolutionError.Resembles

namespace Thrown

/-- What is thrown, but for what was found. -/
inductive Resembles : Thrown → Thrown → Prop
  | resolution {first second : ResolutionError} (h : first.Resembles second) :
      Resembles (.resolution first) (.resolution second)
  | failure (original : Failure) : Resembles (.failure original) (.failure original)
  | interrupt (message : Text) : Resembles (.interrupt message) (.interrupt message)

theorem Resembles.refl (thrown : Thrown) : thrown.Resembles thrown := by
  cases thrown with
  | resolution error => exact .resolution (.refl error)
  | failure original => exact .failure original
  | interrupt message => exact .interrupt message

/-- The same value, or errors that resemble each other. -/
inductive Resemble {α : Type} : Except Thrown α → Except Thrown α → Prop
  | ok (value : α) : Resemble (.ok value) (.ok value)
  | error {first second : Thrown} (h : first.Resembles second) :
      Resemble (.error first) (.error second)

theorem Resemble.refl {α : Type} (outcome : Except Thrown α) : Resemble outcome outcome := by
  cases outcome with
  | ok value => exact .ok value
  | error thrown => exact .error (.refl thrown)

/-- Answers that resemble each other, with what is left behind related. -/
structure InStep {α σ : Type} (R : σ → σ → Prop) (first second : Except Thrown α × σ) : Prop where
  answer : Resemble first.1 second.1
  state : R first.2 second.2

end Thrown

/-! ## Turns -/

/-- Endings of the same kind, with the same value or with errors that resemble each other. -/
inductive Ending.Resembles : Ending → Ending → Prop
  | completed (value : Instance) : Resembles (.completed value) (.completed value)
  | failed {first second : ResolutionError} (h : first.Resembles second) :
      Resembles (.failed first) (.failed second)
  | tooDeep {first second : ResolutionError} (h : first.Resembles second) :
      Resembles (.tooDeep first) (.tooDeep second)
  | calledOff (message : Text) : Resembles (.calledOff message) (.calledOff message)

/-- The same turn, with endings that resemble each other. -/
inductive Turn.Resembles : Turn → Turn → Prop
  | begun (id : Int) : Resembles (.begun id) (.begun id)
  | ended (id : Int) {first second : Ending} (h : first.Resembles second) :
      Resembles (.ended id first) (.ended id second)
  | refused (referrer id : Int) : Resembles (.refused referrer id) (.refused referrer id)

/-- Equally far, with the same value or with errors that resemble each other. -/
inductive Standing.Resembles : Standing → Standing → Prop
  | unvisited : Resembles .unvisited .unvisited
  | inProgress : Resembles .inProgress .inProgress
  | resolved (value : Instance) : Resembles (.resolved value) (.resolved value)
  | failed {first second : ResolutionError} (h : first.Resembles second) :
      Resembles (.failed first) (.failed second)

namespace Ending.Resembles

variable {first second : Ending}

theorem outcome (h : first.Resembles second) : Thrown.Resemble first.outcome second.outcome := by
  cases h with
  | completed value => exact .ok value
  | failed h => exact .error (.resolution h)
  | tooDeep h => exact .error (.resolution h)
  | calledOff message => exact .error (.interrupt message)

theorem standing (h : first.Resembles second) : first.standing.Resembles second.standing := by
  cases h with
  | completed value => exact .resolved value
  | failed h => exact .failed h
  | tooDeep h => exact .unvisited
  | calledOff message => exact .unvisited

theorem ofError {first second : ResolutionError} (h : first.Resembles second) :
    (Ending.ofError first).Resembles (Ending.ofError second) := by
  unfold Ending.ofError
  rw [h.reason.isTooDeep_eq]
  split
  · exact .tooDeep h
  · exact .failed h

end Ending.Resembles

/-- An attempt at a record ends as its building does. -/
theorem Basis.ending_resembles (b : Basis) (id : Int) (r : Record)
    {first second : Except Thrown Instance} (h : Thrown.Resemble first second) :
    (b.ending id r first).Resembles (b.ending id r second) := by
  cases h with
  | ok value => exact .completed value
  | error h =>
    cases h with
    | resolution h => exact .ofError (h.attributed id r.offset r.line)
    | failure original => exact .ofError (.refl _)
    | interrupt message => exact .calledOff message

/-! ## Buildings -/

/-- Buildings that ask for the same, and go on with what resembles each other where the answers
do. -/
inductive Build.Resembles {α : Type} : Build α → Build α → Prop
  | done {first second : Except Thrown α} (h : Thrown.Resemble first second) :
      Resembles (.done first) (.done second)
  | visit (id : Int) (expected : TypeDef) (place : Text) {next other : Except Thrown Unit → Build α}
      (h : ∀ first second, Thrown.Resemble first second →
        Resembles (next first) (other second)) :
      Resembles (.visit id expected place next) (.visit id expected place other)
  | resolve (id : Int) {next other : Except Thrown Instance → Build α}
      (h : ∀ first second, Thrown.Resemble first second →
        Resembles (next first) (other second)) :
      Resembles (.resolve id next) (.resolve id other)

namespace Build

variable {α σ : Type}

/-- To follow links first does not hang on descriptions. -/
theorem after_resembles (links : List Link) {first second : Build α}
    (h : first.Resembles second) : (after links first).Resembles (after links second) := by
  induction links with
  | nil => exact h
  | cons l rest ih =>
    refine .visit l.target l.expected l.place fun first second h => ?_
    cases h with
    | ok value => exact ih
    | error h => exact .done (.error h)

/-- Buildings that resemble each other are in step as long as they are answered in step. -/
theorem run_inStep {R : σ → σ → Prop}
    {visited visited' : Int → TypeDef → Text → σ → Except Thrown Unit × σ}
    {resolved resolved' : Int → σ → Except Thrown Instance × σ}
    (hvisited : ∀ id expected place {s t}, R s t →
      Thrown.InStep R (visited id expected place s) (visited' id expected place t))
    (hresolved : ∀ id {s t}, R s t → Thrown.InStep R (resolved id s) (resolved' id t))
    {first second : Build α} (h : first.Resembles second) {s t : σ} (hst : R s t) :
    Thrown.InStep R (first.run visited resolved s) (second.run visited' resolved' t) := by
  induction h generalizing s t with
  | done h => exact ⟨h, hst⟩
  | visit id expected place _ ih =>
    obtain ⟨hanswer, hstate⟩ := hvisited id expected place hst
    exact ih _ _ hanswer hstate
  | resolve id _ ih =>
    obtain ⟨hanswer, hstate⟩ := hresolved id hst
    exact ih _ _ hanswer hstate

/-- The same of links that are visited in turn. -/
theorem visitAll_inStep {R : σ → σ → Prop}
    {visited visited' : Int → TypeDef → Text → σ → Except Thrown Unit × σ}
    (hvisited : ∀ id expected place {s t}, R s t →
      Thrown.InStep R (visited id expected place s) (visited' id expected place t))
    (links : List Link) {s t : σ} (hst : R s t) :
    Thrown.InStep R (visitAll visited links s) (visitAll visited' links t) := by
  induction links generalizing s t with
  | nil => exact ⟨.ok (), hst⟩
  | cons l rest ih =>
    have hlink := hvisited l.target l.expected l.place hst
    unfold visitAll
    generalize visited l.target l.expected l.place s = first at hlink ⊢
    generalize visited' l.target l.expected l.place t = second at hlink ⊢
    obtain ⟨answer, s⟩ := first
    obtain ⟨answer', t⟩ := second
    obtain ⟨hanswer, hstate⟩ := hlink
    cases hanswer with
    | ok value => exact ih hstate
    | error h => exact ⟨.error h, hstate⟩

end Build

/-! ## Discreet holders -/

/-- The same site, with turns so far that resemble each other. -/
structure Site.Resembles (first second : Site) : Prop where
  id : first.id = second.id
  depth : first.depth = second.depth
  history : List.Forall₂ Turn.Resembles first.history second.history
  registry : first.registry = second.registry
  settings : first.settings = second.settings

/-- A factory does the same whichever way it is described what was found in place of what was
expected. -/
def Factory.Discreet (make : Factory) : Prop :=
  ∀ first second : Site, first.Resembles second → ∀ fields,
    (make first fields).Resembles (make second fields)

/-- So does a holder, if its factory does. -/
def Holder.Discreet (holder : Holder) : Prop :=
  ∀ first second : Site, first.Resembles second → ∀ e (factory : Option Factory) parameters,
    (∀ make ∈ factory, make.Discreet) →
    (holder first e factory parameters).Resembles (holder second e factory parameters)

/-- The holder, if there is one, and the factory, if there is one, are discreet. -/
structure Maker.Discreet (m : Maker) : Prop where
  holder : ∀ holder ∈ m.holder, holder.Discreet
  factory : ∀ make ∈ m.factory, make.Discreet

/-- All holders and factories are discreet. -/
def Makers.Discreet (m : Makers) : Prop := ∀ key, (m key).Discreet

theorem Makers.discreet_initial : Makers.initial.Discreet := fun _ => ⟨nofun, nofun⟩

theorem Makers.Discreet.change {m : Makers} (h : m.Discreet) (name : Text) {maker : Maker}
    (hmaker : maker.Discreet) : (m.change name maker).Discreet := by
  intro key
  unfold Makers.change
  split
  · exact hmaker
  · exact h key

theorem Holder.default_discreet : Holder.default.Discreet := by
  intro first second hsite e factory parameters hfactory
  unfold Holder.default
  rw [Site.hold_congr first second hsite.registry hsite.settings]
  cases hslots : second.hold e parameters with
  | error thrown => exact .done (.refl _)
  | ok slots =>
    rw [Build.ofExcept_bind_ok, Build.ofExcept_bind_ok]
    cases factory with
    | none =>
      have hrooted := Site.rooted_of_hold hslots
      dsimp only
      rw [Site.release_eq hrooted, Site.release_eq (hsite.registry ▸ hrooted), Build.after_bind,
        Build.after_bind, hsite.registry, hsite.id]
      exact Build.after_resembles (Held.slotLinks slots) (.done (.refl _))
    | some make =>
      dsimp only
      rw [Held.releaseOnto_eq, Build.after_bind, Build.after_bind]
      exact Build.after_resembles (Held.slotLinks slots)
        (hfactory make rfl first second hsite (Held.fieldsOnto [] slots))

namespace Basis

variable {b : Basis}

theorem maker_of_blueprint {keyword : Text} {own : Blueprint}
    (h : b.blueprint none keyword = .ok own) : own.maker = b.makers keyword.upper := by
  unfold blueprint at h
  split at h <;> cases h
  rfl

/-- Where holders and factories are discreet, the buildings of a record resemble each other. -/
theorem build_resembles (hdiscreet : b.makers.Discreet) (r : Record) {first second : Site}
    (hregistry : first.registry = b.registry) (hsettings : first.settings = b.settings)
    (hsite : first.Resembles second) :
    (b.build none first r).Resembles (b.build none second r) := by
  cases hbody : r.body with
  | simple group =>
    unfold build
    rw [hbody]
    dsimp only
    cases hown : b.blueprint none group.keyword with
    | error thrown => exact .done (.refl _)
    | ok own =>
      have hmaker : own.maker.Discreet := maker_of_blueprint hown ▸ hdiscreet _
      dsimp only
      unfold Blueprint.build
      cases hholder : own.maker.holder with
      | none => exact Holder.default_discreet first second hsite _ _ _ hmaker.factory
      | some holder =>
        exact hmaker.holder holder hholder first second hsite _ _ _ hmaker.factory
  | complex parts others loose =>
    have hdefault : b.HeldByDefault none r := by
      intro group own hsimple _
      rw [hbody] at hsimple
      cases hsimple
    have hfactory : b.factory? none r = none := factory?_of_complex hbody
    have hmade := made_of_factory?_eq_none hfactory
    rw [build_eq_made hdefault hregistry hsettings, build_eq_made hdefault
      (hsite.registry ▸ hregistry) (hsite.settings ▸ hsettings), ← hsite.id]
    cases b.hold none first.id r with
    | error thrown => exact .done (.refl _)
    | ok held =>
      dsimp only
      rw [hmade, hmade, hsite.registry, hsite.id]
      exact Build.after_resembles held.links (.done (.refl _))

end Basis

end Part21
