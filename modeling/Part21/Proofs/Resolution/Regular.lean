import Part21.Proofs.Resolution.Descent

set_option autoImplicit false

/-!
# Regular tables

A table is regular if records are held by the default holder and factories, where there are
any, are of some kind that is agreed on: none at all, or those that fail in ordinary ways.  It
stays regular whatever is done at it, be it that requests are served, that further types are
registered or that factories are bound, as long as what comes is of the same kind.

A property that depends only on the records and on the standings of instances holds at every
time, if it holds as long as no instance has been visited and every resolution preserves it
(`Table.Regular.steps`).
-/

namespace Part21

/-- Instances are built by the default holder, and made by factories of some kind only. -/
structure Maker.Uses (m : Maker) (kind : Factory → Prop) : Prop where
  holder : m.holder = none
  factory : ∀ make ∈ m.factory, kind make

namespace Maker

theorem uses_default (kind : Factory → Prop) : Maker.default.Uses kind :=
  ⟨rfl, fun _ hmake => absurd hmake (Option.not_mem_none _)⟩

end Maker

/-- All makers are of that kind. -/
def Makers.Use (m : Makers) (kind : Factory → Prop) : Prop := ∀ key, (m key).Uses kind

namespace Makers

theorem use_initial (kind : Factory → Prop) : Makers.initial.Use kind :=
  fun _ => Maker.uses_default kind

theorem Use.change {m : Makers} {kind : Factory → Prop} (h : m.Use kind) (name : Text)
    {maker : Maker} (hmaker : maker.Uses kind) : (m.change name maker).Use kind := by
  intro key
  unfold Makers.change
  split
  · exact hmaker
  · exact h key

end Makers

/-- What is brought along, if anything, is of that kind. -/
def Blueprint.Brings (kind : Factory → Prop) (brought : Option Blueprint) : Prop :=
  ∀ own, brought = some own → own.maker.Uses kind

theorem Blueprint.brings_none (kind : Factory → Prop) : Blueprint.Brings kind none :=
  fun _ hown => by cases hown

namespace Basis

variable {b : Basis} {brought : Option Blueprint} {kind : Factory → Prop}

theorem uses_blueprint (hmakers : b.makers.Use kind) (hbrought : Blueprint.Brings kind brought)
    {keyword : Text} {own : Blueprint} (h : b.blueprint brought keyword = .ok own) :
    own.maker.Uses kind := by
  unfold blueprint at h
  split at h
  · cases h
    exact hmakers _
  · split at h
    · rename_i other _
      split at h
      · cases h
        exact hbrought own rfl
      · cases h
    · cases h

theorem heldByDefault_of_use (hmakers : b.makers.Use kind)
    (hbrought : Blueprint.Brings kind brought) (r : Record) : b.HeldByDefault brought r :=
  fun _ _ _ hown => (uses_blueprint hmakers hbrought hown).holder

/-- The factory of a record is of that kind. -/
theorem kind_of_factory? (hmakers : b.makers.Use kind) (hbrought : Blueprint.Brings kind brought)
    (r : Record) : ∀ make ∈ b.factory? brought r, kind make := by
  intro make hmake
  unfold factory? at hmake
  split at hmake
  · split at hmake
    · cases hmake
    · rename_i own hown
      exact (uses_blueprint hmakers hbrought hown).factory make hmake
  · cases hmake

end Basis

namespace Table

/-- What is done at a table: a request is served, another type is registered, or a factory is
bound. -/
inductive Step (kind : Factory → Prop) : Table → Table → Prop
  | served {t : Table} (q : Request)
      (hq : q.Expects fun expected => Blueprint.Brings kind (expected.bind Expected.brought?)) :
      Step kind t (t.serve q)
  | registered {t u : Table} {type : TypeDef} {factory : Option Factory}
      (hfactory : ∀ make ∈ factory, kind make) (hu : t.register type factory = .ok u) :
      Step kind t u
  | bound {t u : Table} {name : Text} {factory : Factory} (hfactory : kind factory)
      (hu : t.bind name factory = .ok u) : Step kind t u

/-- Whatever is done at a table, any number of times. -/
abbrev Steps (kind : Factory → Prop) : Table → Table → Prop :=
  Relation.ReflTransGen (Step kind)

/-- A session is a row of steps. -/
theorem steps_session {kind : Factory → Prop} {requests : List Request} (t : Table)
    (hrequests : ∀ q ∈ requests, q.Expects fun expected =>
      Blueprint.Brings kind (expected.bind Expected.brought?)) :
    t.Steps kind (t.session requests) := by
  induction requests generalizing t with
  | nil => exact .refl
  | cons q rest ih =>
    obtain ⟨hq, hrest⟩ := List.forall_mem_cons.mp hrequests
    exact .head (.served q hq) (ih (t.serve q) hrest)

/-- A table at which makers are of some kind, between two steps.  As long as it takes records,
no instance has been visited. -/
structure Regular (kind : Factory → Prop) (t : Table) : Prop where
  makers : t.basis.makers.Use kind
  idle : t.Idle
  untouched : t.isSealed = false → ∀ id, t.standing id = .unvisited

variable {kind : Factory → Prop} {t u : Table}

theorem regular_empty (registry : Registry) {makers : Makers} (settings : Settings)
    (hmakers : makers.Use kind) : (empty registry makers settings).Regular kind :=
  ⟨hmakers, idle_empty registry makers settings, fun _ _ => rfl⟩

namespace Regular

theorem add {r : Record} (hadd : t.add r = .ok u) (h : t.Regular kind) :
    u.Regular kind ∧ ∀ id, u.standing id = .unvisited := by
  have hidle := Idle.add hadd h.idle
  obtain ⟨hopen, population, _, rfl⟩ := add_eq_ok hadd
  exact ⟨⟨h.makers, hidle, h.untouched⟩, h.untouched hopen⟩

theorem resolve (h : t.Regular kind) (id : Int) (expected : Option Expected) :
    (t.resolve id expected).2.Regular kind := by
  refine ⟨?_, h.idle.resolve id expected, ?_⟩
  · rw [basis_resolve]
    exact h.makers
  · rw [resolve_snd]
    nofun

theorem report (h : t.Regular kind) (event : Event) : (t.report event).Regular kind :=
  ⟨h.makers, h.idle.report event, h.untouched⟩

/-- Other types and other makers leave the records and the standings as they are. -/
theorem rebase (h : t.Regular kind) {c : Basis} (hmakers : c.makers.Use kind)
    (hpopulation : c.population = t.basis.population) : ({ t with basis := c }).Regular kind := by
  refine ⟨hmakers, ⟨h.idle.closed, ?_⟩, h.untouched⟩
  dsimp only
  rw [hpopulation]
  exact h.idle.orderly

variable {P : Table → Prop}

/-- A property that depends on the records and the standings of instances only is preserved by a
step, if resolutions preserve it and it holds as long as no instance has been visited. -/
theorem step
    (hsame : ∀ {t u : Table}, u.basis.population = t.basis.population →
      u.progress.standing = t.progress.standing → P t → P u)
    (huntouched : ∀ {t : Table}, t.Regular kind → (∀ id, t.standing id = .unvisited) → P t)
    (hresolve : ∀ {t : Table} (id : Int) {expected : Option Expected}, t.Regular kind →
      Blueprint.Brings kind (expected.bind Expected.brought?) → P t →
      P (t.resolve id expected).2)
    (hstep : t.Step kind u) (h : t.Regular kind ∧ P t) : u.Regular kind ∧ P u := by
  have hresolved : ∀ {t : Table} (id : Int) {expected : Option Expected},
      Blueprint.Brings kind (expected.bind Expected.brought?) → t.Regular kind ∧ P t →
      (t.resolve id expected).2.Regular kind ∧ P (t.resolve id expected).2 :=
    fun id _ hbrings h => ⟨h.1.resolve id _, hresolve id h.1 hbrings h.2⟩
  cases hstep with
  | served q hq =>
    cases q with
    | add r =>
      simp only [serve]
      split
      · rename_i u hu
        obtain ⟨hregular, hopen⟩ := add hu h.1
        exact ⟨hregular, huntouched hregular hopen⟩
      · exact h
    | lookup id => exact h
    | resolve id expected => exact hresolved id hq h
    | resolveAll =>
      refine resolveAll_invariant (P := fun t => t.Regular kind ∧ P t)
        (fun t id => hresolved id (Blueprint.brings_none kind)) (fun t event h => ?_) h
      exact ⟨h.1.report event, hsame (t := t) rfl rfl h.2⟩
  | @registered u type factory hfactory hu =>
    unfold register at hu
    split at hu
    · cases hu
    · cases hu
      exact ⟨h.1.rebase (h.1.makers.change _ ⟨rfl, hfactory⟩) rfl, hsame (t := t) rfl rfl h.2⟩
  | @bound u name factory hfactory hu =>
    unfold bind at hu
    split at hu
    · cases hu
    · cases hu
      have hmaker : (({ t.basis.makers name.upper with factory := some factory }) : Maker).Uses
          kind :=
        ⟨(h.1.makers _).holder, fun make hmake => Option.some.inj hmake ▸ hfactory⟩
      exact ⟨h.1.rebase (h.1.makers.change _ hmaker) rfl, hsame (t := t) rfl rfl h.2⟩

/-- So the property holds at every time. -/
theorem steps
    (hsame : ∀ {t u : Table}, u.basis.population = t.basis.population →
      u.progress.standing = t.progress.standing → P t → P u)
    (huntouched : ∀ {t : Table}, t.Regular kind → (∀ id, t.standing id = .unvisited) → P t)
    (hresolve : ∀ {t : Table} (id : Int) {expected : Option Expected}, t.Regular kind →
      Blueprint.Brings kind (expected.bind Expected.brought?) → P t →
      P (t.resolve id expected).2)
    (hsteps : t.Steps kind u) (h : t.Regular kind ∧ P t) : u.Regular kind ∧ P u := by
  induction hsteps with
  | refl => exact h
  | tail _ hstep ih => exact step hsame huntouched hresolve hstep ih

end Regular

end Table

end Part21
