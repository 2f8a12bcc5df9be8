import Part21.Proofs.Resolution.FirstUse

set_option autoImplicit false

/-!
# Origins

Whatever other entity types are built by, a record that falls to the default holder becomes what its
parameters are held as (`Basis.makes_of_run`).  An instance that is resolved was built once, in some
resolution and with the entity type that was brought along there.  So it is what its record was held
as, with one of the types that were brought along or with none (`Table.makes_of_resolve`).
-/

namespace Part21

namespace Basis

variable {b : Basis} {kind : Option Blueprint → Prop} {brought : Option Blueprint} {r : Record}
  {id : Int} {value : Instance}

/-- Something comes of a held record: what is done about it once its links are followed comes to the
instance, whoever answers what it may ask for. -/
def Makes (b : Basis) (brought : Option Blueprint) (id : Int) (r : Record) (held : HeldRecord)
    (value : Instance) : Prop :=
  ∃ (site : Site) (visited : Int → TypeDef → Text → Progress → Except Thrown Unit × Progress)
    (resolved : Int → Progress → Except Thrown Instance × Progress) (p : Progress),
    site.id = id ∧ site.registry = b.registry ∧
      ((b.made brought site r held).run visited resolved p).1 = .ok value

/-- Where no factory has a say, the instance that a record is held as comes of it. -/
theorem Makes.eq_toInstance {held : HeldRecord} (h : b.Makes brought id r held value)
    (hfactory : b.factory? brought r = none) : value = held.toInstance b.registry id := by
  obtain ⟨site, visited, resolved, p, rfl, hregistry, hrun⟩ := h
  rw [made_of_factory?_eq_none hfactory, hregistry] at hrun
  exact (Except.ok.inj hrun).symm

/-- The instance is what its record is held as with one of the given types brought along, if the
default holder has the record with each of them. -/
def Originates (b : Basis) (kind : Option Blueprint → Prop) (id : Int) (value : Instance) : Prop :=
  ∃ r, b.population.find? id = some r ∧
    ((∀ brought, kind brought → b.HeldByDefault brought r) →
      ∃ brought held, kind brought ∧ b.hold brought id r = .ok held ∧
        b.Makes brought id r held value)

/-- A building by the default holder that comes to an instance has made it of what the record is
held as, whoever answers what it asks for. -/
theorem makes_of_run (h : b.HeldByDefault brought r) {site : Site}
    (hregistry : site.registry = b.registry) (hsettings : site.settings = b.settings)
    {visited : Int → TypeDef → Text → Progress → Except Thrown Unit × Progress}
    {resolved : Int → Progress → Except Thrown Instance × Progress} {p : Progress}
    (hrun : ((b.build brought site r).run visited resolved p).1 = .ok value) :
    ∃ held, b.hold brought site.id r = .ok held ∧ b.Makes brought site.id r held value := by
  rw [build_eq_made h hregistry hsettings] at hrun
  cases hheld : b.hold brought site.id r with
  | error thrown =>
    rw [hheld] at hrun
    cases hrun
  | ok held =>
    rw [hheld] at hrun
    dsimp only at hrun
    rw [Build.run_after] at hrun
    rcases hvisited : Build.visitAll visited held.links p with ⟨_ | done, q⟩
    · rw [hvisited] at hrun
      cases hrun
    · rw [hvisited] at hrun
      exact ⟨held, rfl, site, visited, resolved, q, rfl, hregistry, hrun⟩

theorem eq_ok_of_completed {outcome : Except Thrown Instance}
    (h : b.ending id r outcome = .completed value) : outcome = .ok value := by
  cases outcome with
  | ok own =>
    cases h
    rfl
  | error thrown => exact absurd h (b.ending_error_ne_completed id r thrown value)

/-- To follow a reference leaves all instances with their origins, if to enter one does. -/
theorem visit_originates {enter : Pass → Int → Progress → Except Thrown Instance × Progress}
    {pass : Pass} (henter : ∀ target p, p.Found (b.Originates kind) (fun _ _ => True) →
      (enter pass target p).2.Found (b.Originates kind) fun _ _ => True)
    (referrer target : Int) (expected : TypeDef) (place : Text) {p : Progress}
    (h : p.Found (b.Originates kind) fun _ _ => True) :
    (b.visit enter pass referrer target expected place p).2.Found (b.Originates kind)
      fun _ _ => True := by
  unfold visit
  split
  · exact h
  · split
    · exact h.report _
    · split
      · have hentered := henter target p h
        split <;> rename_i hresult <;> rw [hresult] at hentered <;> exact hentered
      · exact h.refuse _ _

/-- Wherever resolution goes, every instance that is resolved has its origin. -/
theorem enter_originates (hnone : kind none) (buildings : Nat) {pass : Pass}
    (hpass : kind pass.brought) (target : Int) {p : Progress}
    (h : p.Found (b.Originates kind) fun _ _ => True) :
    (b.enter buildings pass target p).2.Found (b.Originates kind) fun _ _ => True := by
  induction buildings generalizing pass target p with
  | zero => exact h
  | succ buildings ih =>
    unfold enter
    split
    · exact h
    · rename_i r hr
      split
      · exact h
      · exact h
      · exact h
      · dsimp only
        -- What the building asks for is found before its own end.
        refine Progress.Found.finish (Build.run_rel
          (R := fun p q : Progress => p.Found (b.Originates kind) (fun _ _ => True) →
            q.Found (b.Originates kind) fun _ _ => True)
          (fun _ h => h) (fun first second h => second (first h)) ?_ ?_ _ _ (h.begin target))
          (fun value hcompleted => ⟨r, hr, fun hheld => ?_⟩) fun _ _ => trivial
        · exact fun other expected place q hq =>
            visit_originates
              (fun next s hs => @ih ⟨pass.brought, target :: pass.path⟩ hpass next s hs)
              target other expected place hq
        · exact fun other q hq => ih hnone other hq
        · obtain ⟨held, hhold, hmade⟩ :=
            makes_of_run (hheld pass.brought hpass) rfl rfl (eq_ok_of_completed hcompleted)
          exact ⟨pass.brought, held, hpass, hhold, hmade⟩

end Basis

namespace Table

variable {t u : Table} {kind : Option Blueprint → Prop}

/-- Between two requests every instance that is resolved has its origin, and nothing is known as
long as records are taken. -/
structure Originated (kind : Option Blueprint → Prop) (t : Table) : Prop where
  untouched : t.isSealed = false → ∀ id, t.standing id = .unvisited
  found : t.progress.Found (t.basis.Originates kind) fun _ _ => True

theorem originated_session (hnone : kind none) {requests : List Request}
    (hkind : ∀ q ∈ requests, q.Expects fun expected => kind (expected.bind Expected.brought?))
    (h : t.Originated kind) : (t.session requests).Originated kind := by
  refine session_invariant (P := Originated kind) hnone ?_ ?_ ?_ hkind h
  · intro u v r hadd h
    obtain ⟨hopen, records, _, rfl⟩ := add_eq_ok hadd
    exact ⟨h.untouched, .of_untouched (h.untouched hopen)⟩
  · intro u target expected hexpected h
    rw [resolve_snd]
    exact ⟨nofun, u.basis.enter_originates hnone _ hexpected target h.found⟩
  · exact fun u event h => ⟨h.untouched, h.found.report event⟩

/-- Requests of any kind are made of a table with any holders and factories, with or without types
brought along, and then an instance is asked for and answered.  If the default holder has its record
with every type that was brought along, the instance is what the record is held as with one of these
types or with none. -/
theorem makes_of_resolve {registry : Registry} {makers : Makers} {settings : Settings}
    {requests : List Request} (ht : (empty registry makers settings).session requests = t) {id : Int}
    {expected : Option Expected} {r : Record} (hr : t.basis.population.find? id = some r)
    (hheld : ∀ brought, BroughtBy (requests ++ [.resolve id expected]) brought →
      t.basis.HeldByDefault brought r)
    {value : Instance} (h : (t.resolve id expected).1 = .ok value) :
    ∃ brought held, BroughtBy (requests ++ [.resolve id expected]) brought ∧
      t.basis.hold brought id r = .ok held ∧ t.basis.Makes brought id r held value := by
  have hstart : (empty registry makers settings).Originated
      (BroughtBy (requests ++ [.resolve id expected])) :=
    ⟨fun _ _ => rfl, .of_untouched fun _ => rfl⟩
  have hend := originated_session nofun (expects_of_brings _) hstart
  rw [session_append, ht] at hend
  obtain ⟨own, hown, horigin⟩ := hend.found.resolved (standing_of_resolve_ok h)
  rw [session_cons, session_nil, serve, basis_resolve] at hown horigin
  obtain rfl : r = own := Option.some.inj (hr.symm.trans hown)
  exact horigin hheld

end Table

end Part21
