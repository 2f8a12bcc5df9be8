import Part21.Proofs.Resolution.Passage
import Part21.Proofs.Resolution.Soundness

set_option autoImplicit false

/-!
# First use

An entity type that is not registered may be brought along for one resolution.  What comes of an
instance is remembered under its name alone, and not under the type that it was built by.  So the
type counts at the first use only, where the instance is built; it makes no difference any more once
the instance is resolved or has failed (`Table.not_resolve_of_brought`).

A record without references is built at once, and to the same outcome wherever that is
(`Basis.EndsAtOnce`).  So whatever is known of such an instance is what came of it by one of the
types that were brought along before, or without any (`Basis.enter_stems`), and a resolution
answers as it would at a table where nothing was done yet: by the type that is brought along now if
nothing is known, and else by that earlier one (`Table.resolve_of_brought`).
-/

namespace Part21

namespace Basis

variable {b : Basis} {brought : Option Blueprint} {id : Int} {r : Record} {group : Group}

/-! ## Buildings that end at once -/

/-- The building of a record asks for nothing, and has the same outcome wherever and whenever it is
begun. -/
def EndsAtOnce (b : Basis) (brought : Option Blueprint) (id : Int) (r : Record)
    (outcome : Except Thrown Instance) : Prop :=
  ∀ site : Site, site.id = id → site.registry = b.registry → site.settings = b.settings →
    b.build brought site r = .done outcome

/-- The default holder is at its end at once with a record that has no references, if no factory has
a say. -/
theorem endsAtOnce_of_heldByDefault (hholder : b.HeldByDefault brought r)
    (hfactory : b.factory? brought r = none) (hreferences : r.references = []) (id : Int) :
    ∃ outcome, b.EndsAtOnce brought id r outcome := by
  cases hheld : b.hold brought id r with
  | error thrown =>
    refine ⟨.error thrown, ?_⟩
    rintro site rfl hregistry hsettings
    rw [build_eq_made hholder hregistry hsettings, hheld]
    rfl
  | ok held =>
    have hlinks : held.links = [] := by
      have htargets := targets_hold hheld
      rwa [hreferences, List.map_eq_nil_iff] at htargets
    refine ⟨.ok (held.toInstance b.registry id), ?_⟩
    rintro site rfl hregistry hsettings
    rw [build_eq_made hholder hregistry hsettings, hheld, ← hregistry]
    dsimp only
    rw [hlinks, made_of_factory?_eq_none hfactory]
    rfl

/-- A keyword that is not registered stays unknown without a type of its name. -/
theorem endsAtOnce_of_unknown (hbody : r.body = .simple group)
    (hunknown : b.registry.entity? group.keyword = none)
    (hother : ∀ own ∈ brought, own.definition.key ≠ group.keyword.upper) :
    b.EndsAtOnce brought id r (.error (.reason (.unknownType group.keyword))) := by
  intro site _ _ _
  have hblueprint : b.blueprint brought group.keyword =
      .error (.reason (.unknownType group.keyword)) := by
    unfold blueprint
    rw [hunknown]
    cases brought with
    | none => rfl
    | some own => exact if_neg (hother own rfl)
  unfold build
  rw [hbody]
  dsimp only
  rw [hblueprint]
  rfl

/-- A building that ends at once leaves its instance as it ended. -/
theorem enter_of_endsAtOnce {outcome : Except Thrown Instance}
    (hends : b.EndsAtOnce brought id r outcome) (hr : b.population.find? id = some r)
    (buildings : Nat) (path : List Int) {p : Progress} (hopen : p.standing id = .unvisited) :
    b.enter (buildings + 1) ⟨brought, path⟩ id p =
      ((b.ending id r outcome).outcome, (p.begin id).finish id (b.ending id r outcome)) := by
  unfold enter
  rw [hr]
  dsimp only
  rw [hopen]
  dsimp only
  rw [hends _ rfl rfl rfl]
  rfl

/-! ## What is known, and whence -/

/-- What is known of an instance, if anything, stems from a building by one of the given types that
were brought along. -/
def StemsFrom (b : Basis) (kind : Option Blueprint → Prop) (id : Int) (r : Record)
    (standing : Standing) : Prop :=
  standing = .unvisited ∨ ∃ brought outcome, kind brought ∧ b.EndsAtOnce brought id r outcome ∧
    standing = (b.ending id r outcome).standing

variable {kind : Option Blueprint → Prop}

/-- Following a reference leaves that so, if entering an instance does. -/
theorem visit_stems {enter : Pass → Int → Progress → Except Thrown Instance × Progress}
    {pass : Pass} (henter : ∀ target p, b.StemsFrom kind id r (p.standing id) →
      b.StemsFrom kind id r ((enter pass target p).2.standing id))
    (referrer target : Int) (expected : TypeDef) (place : Text) {p : Progress}
    (h : b.StemsFrom kind id r (p.standing id)) :
    b.StemsFrom kind id r
      ((b.visit enter pass referrer target expected place p).2.standing id) := by
  unfold visit
  split
  · exact h
  · split
    · exact h
    · split
      · have hentered := henter target p h
        split <;> rename_i hresult <;> rw [hresult] at hentered <;> exact hentered
      · exact h

/-- Wherever resolution goes, and whatever other holders do on the way, what is known of the
instance is how its building ended. -/
theorem enter_stems (hr : b.population.find? id = some r) (hnone : kind none)
    (hends : ∀ brought, kind brought → ∃ outcome, b.EndsAtOnce brought id r outcome)
    (buildings : Nat) {pass : Pass} (hpass : kind pass.brought) (target : Int) {p : Progress}
    (h : b.StemsFrom kind id r (p.standing id)) :
    b.StemsFrom kind id r ((b.enter buildings pass target p).2.standing id) := by
  induction buildings generalizing pass target p with
  | zero => exact h
  | succ buildings ih =>
    unfold enter
    split
    · exact h
    · rename_i own hown
      split
      · exact h
      · exact h
      · exact h
      · dsimp only
        by_cases hid : id = target
        · subst target
          obtain rfl : r = own := Option.some.inj (hr.symm.trans hown)
          obtain ⟨outcome, houtcome⟩ := hends pass.brought hpass
          rw [Progress.standing_finish_self, houtcome _ rfl rfl rfl]
          exact .inr ⟨pass.brought, outcome, hpass, houtcome, rfl⟩
        · -- The building of another instance may ask for this one, on its pass or from outside.
          have hbegun : b.StemsFrom kind id r ((p.begin target).standing id) := by
            rwa [Progress.standing_begin_other p hid]
          rw [Progress.standing_finish_other _ _ hid]
          refine Build.run_rel
            (R := fun p q : Progress =>
              b.StemsFrom kind id r (p.standing id) → b.StemsFrom kind id r (q.standing id))
            (fun _ h => h) (fun first second h => second (first h)) ?_ ?_ _ _ hbegun
          · exact fun other expected place q hq =>
              visit_stems (fun next s hs => @ih ⟨pass.brought, target :: pass.path⟩ hpass next s hs)
                target other expected place hq
          · exact fun other q hq => ih hnone other hq

/-! ## Answers -/

/-- Where nothing is known, the answer is how the building ends. -/
theorem resolve_fst_of_endsAtOnce {outcome : Except Thrown Instance}
    (hends : b.EndsAtOnce brought id r outcome) (hr : b.population.find? id = some r) {p : Progress}
    (hopen : p.standing id = .unvisited) :
    (b.resolve brought id p).1 = (b.ending id r outcome).outcome := by
  unfold resolve nesting
  rw [enter_of_endsAtOnce hends hr _ _ hopen]

/-- What is known is the answer, whatever is brought along, and it is how the building ended by an
earlier type. -/
theorem resolve_fst_of_stems (hr : b.population.find? id = some r) {p : Progress}
    (h : b.StemsFrom kind id r (p.standing id)) (hvisited : p.standing id ≠ .unvisited) :
    ∃ earlier outcome, kind earlier ∧ b.EndsAtOnce earlier id r outcome ∧
      ∀ brought, (b.resolve brought id p).1 = (b.ending id r outcome).outcome := by
  obtain ⟨earlier, outcome, hkind, hends, hstanding⟩ := h.resolve_left hvisited
  refine ⟨earlier, outcome, hkind, hends, fun brought => ?_⟩
  unfold resolve nesting enter
  rw [hr]
  dsimp only
  cases hending : b.ending id r outcome with
  | completed value =>
    rw [hstanding, hending]
    rfl
  | failed error =>
    rw [hstanding, hending]
    rfl
  | _ =>
    rw [hending] at hstanding
    exact absurd hstanding hvisited

theorem EndsAtOnce.unique {outcome other : Except Thrown Instance}
    (h : b.EndsAtOnce brought id r outcome) (hother : b.EndsAtOnce brought id r other) :
    outcome = other := by
  have hsame := h (b.outset id) rfl rfl rfl
  rw [hother (b.outset id) rfl rfl rfl] at hsame
  exact (Build.done.inj hsame).symm

/-- What comes of a record of an unknown keyword comes of it by a type of that name. -/
theorem EndsAtOnce.key {value : Instance} (hbody : r.body = .simple group)
    (hunknown : b.registry.entity? group.keyword = none)
    (h : b.EndsAtOnce brought id r (.ok value)) :
    ∀ own ∈ brought, own.definition.key = group.keyword.upper := by
  rintro own ⟨rfl⟩
  by_contra hother
  have hnone := h.unique (endsAtOnce_of_unknown hbody hunknown fun other hmem =>
    Option.some.inj hmem ▸ hother)
  cases hnone

end Basis

namespace Table

variable {t u : Table} {id : Int} {r : Record} {group : Group}

/-- Whatever is asked of a table, what is known of the instance is how its building ended, by one
of the types that were brought along; and nothing is known as long as records are taken. -/
structure StemsFrom (kind : Option Blueprint → Prop) (id : Int) (t : Table) : Prop where
  untouched : t.isSealed = false → t.standing id = .unvisited
  stems : ∀ r, t.basis.population.find? id = some r →
    (∀ brought, kind brought → ∃ outcome, t.basis.EndsAtOnce brought id r outcome) →
    t.basis.StemsFrom kind id r (t.standing id)

theorem stems_session {kind : Option Blueprint → Prop} (hnone : kind none)
    {requests : List Request}
    (hkind : ∀ q ∈ requests, q.Expects fun expected => kind (expected.bind Expected.brought?))
    (h : t.StemsFrom kind id) : (t.session requests).StemsFrom kind id := by
  refine session_invariant (P := StemsFrom kind id) hnone ?_ ?_ ?_ hkind h
  · intro u v r hadd h
    obtain ⟨hopen, records, _, rfl⟩ := add_eq_ok hadd
    exact ⟨h.untouched, fun _ _ _ => .inl (h.untouched hopen)⟩
  · intro u target expected hexpected h
    rw [resolve_snd]
    refine ⟨nofun, fun r hr hends => ?_⟩
    exact u.basis.enter_stems hr hnone hends _ hexpected target (h.stems r hr hends)
  · exact fun u event h => ⟨h.untouched, h.stems⟩

/-! ## Answers -/

/-- The type was brought along by one of the requests. -/
def Brings (requests : List Request) (own : Blueprint) : Prop :=
  ∃ id, .resolve id (some (.blueprint own)) ∈ requests

/-- What is brought along, if anything, was so by one of the requests. -/
def BroughtBy (requests : List Request) (brought : Option Blueprint) : Prop :=
  ∀ own ∈ brought, Brings requests own

/-- A table with the same records, types and settings at which nothing was done yet. -/
def anew (t : Table) : Table := ⟨t.basis, false, .initial⟩

/-- A simple record is of the type that is brought along for its keyword. -/
theorem checkExpected_of_key (hr : t.basis.population.find? id = some r)
    (hbody : r.body = .simple group) {own : Blueprint}
    (hkey : own.definition.key = group.keyword.upper) :
    t.checkExpected id (.blueprint own) = .ok () := by
  have hkeyword (brought : Option Blueprint) :
      t.basis.recordIs brought r [group.keyword.upper] = .ok true := by
    simp [Basis.recordIs, Record.keywords, Record.groups, hbody, Body.groups, Basis.anyOf,
      Basis.keywordIs]
  unfold checkExpected
  rw [hr]
  dsimp only
  rw [show (Expected.blueprint own).name.upper = group.keyword.upper from hkey, hkeyword]

/-- An instance that is what is expected is the answer. -/
theorem resolve_fst_of_checked {own : Expected} {value : Instance}
    (hpass : (t.basis.resolve own.brought? id t.progress).1 = .ok value)
    (hchecked : (t.resolve id (some own)).2.checkExpected id own = .ok ()) :
    (t.resolve id (some own)).1 = .ok value := by
  rw [resolve_snd] at hchecked
  unfold resolve
  rw [Option.bind_some] at hchecked ⊢
  rcases hanswer : t.basis.resolve own.brought? id t.progress with ⟨outcome, p⟩
  rw [hanswer] at hpass hchecked
  obtain rfl : outcome = .ok value := hpass
  dsimp only at hchecked ⊢
  rw [hchecked]

/-- The answer is that of the pass, also where a type is brought along that the instance is then
tested against. -/
theorem resolve_fst_of_brought (hr : t.basis.population.find? id = some r)
    (hbody : r.body = .simple group) {brought : Option Blueprint}
    (hkey : ∀ value, (t.basis.resolve brought id t.progress).1 = .ok value →
      ∀ own ∈ brought, own.definition.key = group.keyword.upper) :
    (t.resolve id (brought.map .blueprint)).1 = (t.basis.resolve brought id t.progress).1 := by
  cases brought with
  | none => exact t.resolve_none_fst id
  | some own =>
    cases hpass : (t.basis.resolve (some own) id t.progress).1 with
    | error thrown => exact resolve_fst_of_error hpass
    | ok value =>
      refine resolve_fst_of_checked hpass (checkExpected_of_key ?_ hbody (hkey value hpass own rfl))
      rw [basis_resolve]
      exact hr

/-- At a table where nothing was done yet, the answer is how the building ends. -/
theorem anew_resolve_fst {brought : Option Blueprint} {outcome : Except Thrown Instance}
    (hr : t.basis.population.find? id = some r) (hbody : r.body = .simple group)
    (hunknown : t.basis.registry.entity? group.keyword = none)
    (hends : t.basis.EndsAtOnce brought id r outcome) :
    (t.anew.resolve id (brought.map .blueprint)).1 = (t.basis.ending id r outcome).outcome := by
  have hpass : (t.anew.basis.resolve brought id t.anew.progress).1 =
      (t.basis.ending id r outcome).outcome :=
    Basis.resolve_fst_of_endsAtOnce hends hr rfl
  rw [resolve_fst_of_brought (t := t.anew) hr hbody, hpass]
  intro value hvalue
  rw [hpass] at hvalue
  cases outcome with
  | ok own => exact hends.key hbody hunknown
  | error thrown =>
    exact absurd (Basis.outcome_eq_ok hvalue) (t.basis.ending_error_ne_completed id r thrown value)

/-- What a request brings along, if it is one that asks for an instance. -/
theorem expects_of_brings (requests : List Request) :
    ∀ q ∈ requests,
      q.Expects fun expected => BroughtBy requests (expected.bind Expected.brought?) := by
  intro q hmem
  cases q with
  | resolve id expected =>
    rintro other hother
    rcases expected with _ | _ | own
    · cases hother
    · cases hother
    · obtain rfl : own = other := Option.some.inj hother
      exact ⟨id, hmem⟩
  | _ => trivial

theorem stems_empty (registry : Registry) (makers : Makers) (settings : Settings)
    (kind : Option Blueprint → Prop) (id : Int) :
    (empty registry makers settings).StemsFrom kind id :=
  ⟨fun _ => rfl, fun _ _ _ => .inl rfl⟩

/-- The record is built at once by whatever the requests bring along: by a type of its keyword it is
said to be, and by no other it is built at all. -/
theorem endsAtOnce_of_brings {requests : List Request} {own : Blueprint}
    (hbody : r.body = .simple group) (hunknown : t.basis.registry.entity? group.keyword = none)
    (hends : ∀ other, other = own ∨ Brings requests other →
      other.definition.key = group.keyword.upper →
      ∃ outcome, t.basis.EndsAtOnce (some other) id r outcome) :
    ∀ brought, BroughtBy requests brought →
      ∃ outcome, t.basis.EndsAtOnce brought id r outcome := by
  intro brought hbrought
  by_cases hother : ∀ other ∈ brought, other.definition.key ≠ group.keyword.upper
  · exact ⟨_, Basis.endsAtOnce_of_unknown hbody hunknown hother⟩
  · obtain ⟨other, hmem, hsame⟩ :
        ∃ other ∈ brought, other.definition.key = group.keyword.upper := by
      simpa using hother
    obtain rfl := Option.mem_def.mp hmem
    exact hends other (.inr (hbrought other rfl)) hsame

/-- Requests of any kind were made of a table, with or without types brought along, and then an
instance is asked for with a type of one's own.  Its record is simple and of a keyword that is not
registered, the type has that name, and by this type and by all those of this name that were brought
along before the record is built at once, to the same outcome each time.  Then the answer is one
that a table gives at which nothing was done yet.  If nothing is known of the instance, it is the
answer for the type that is brought along now.  Otherwise it is the answer for a type that was
brought along before, or without any. -/
theorem resolve_of_brought {registry : Registry} {makers : Makers} {settings : Settings}
    {requests : List Request} (ht : (empty registry makers settings).session requests = t)
    (hr : t.basis.population.find? id = some r) (hbody : r.body = .simple group)
    (hunknown : t.basis.registry.entity? group.keyword = none) {own : Blueprint}
    (hkey : own.definition.key = group.keyword.upper)
    (hends : ∀ other, other = own ∨ Brings requests other →
      other.definition.key = group.keyword.upper →
      ∃ outcome, t.basis.EndsAtOnce (some other) id r outcome) :
    ∃ brought, (t.resolve id (some (.blueprint own))).1 =
        (t.anew.resolve id (brought.map .blueprint)).1 ∧
      ((t.standing id = .unvisited ∧ brought = some own) ∨
        (t.standing id ≠ .unvisited ∧ BroughtBy requests brought)) := by
  have hpass : (t.resolve id ((some own).map .blueprint)).1 =
      (t.basis.resolve (some own) id t.progress).1 :=
    resolve_fst_of_brought hr hbody fun _ _ other hmem => Option.some.inj hmem ▸ hkey
  rw [Option.map_some] at hpass
  rw [hpass]
  by_cases hopen : t.standing id = .unvisited
  · obtain ⟨outcome, houtcome⟩ := hends own (.inl rfl) hkey
    refine ⟨some own, ?_, .inl ⟨hopen, rfl⟩⟩
    rw [anew_resolve_fst hr hbody hunknown houtcome,
      Basis.resolve_fst_of_endsAtOnce houtcome hr hopen]
  · have hempty := stems_empty registry makers settings (BroughtBy requests) id
    have hstems := stems_session nofun (expects_of_brings requests) hempty
    rw [ht] at hstems
    obtain ⟨brought, outcome, hbrought, houtcome, hanswer⟩ := Basis.resolve_fst_of_stems hr
      (hstems.stems r hr (endsAtOnce_of_brings hbody hunknown hends)) hopen
    refine ⟨brought, ?_, .inr ⟨hopen, hbrought⟩⟩
    rw [anew_resolve_fst hr hbody hunknown houtcome, hanswer]

end Table

namespace Sample

/-- A type to be brought along. -/
def spare : Blueprint := ⟨tag, .default⟩

/-- A tag. -/
def tagged : Record := ⟨some 10, .simple ⟨"TAG", []⟩, none, none⟩

/-- A table at which no entity type is registered, with the given requests. -/
def bare (requests : List Request) : Table :=
  (Table.empty (.initial "bare") .initial .default).session requests

/-- The tag is added and asked for without its type. -/
def unaided : List Request := [.add tagged, .resolve 10 none]

end Sample

namespace Table

theorem resolve_of_brought_unaided :
    ∃ brought, ((Sample.bare Sample.unaided).resolve 10 (some (.blueprint Sample.spare))).1 =
        ((Sample.bare Sample.unaided).anew.resolve 10 (brought.map .blueprint)).1 ∧
      BroughtBy Sample.unaided brought := by
  have hr : (Sample.bare Sample.unaided).basis.population.find? 10 = some Sample.tagged := rfl
  have hbody : Sample.tagged.body = .simple ⟨"TAG", []⟩ := rfl
  have hunknown : (Sample.bare Sample.unaided).basis.registry.entity? "TAG" = none := rfl
  have hkey : Sample.spare.definition.key = ("TAG" : Text).upper := rfl
  obtain ⟨brought, hanswer, ⟨hopen, _⟩ | ⟨_, hbrought⟩⟩ :=
    resolve_of_brought rfl hr hbody hunknown hkey fun other hother _ => by
      rcases hother with rfl | ⟨id, hmem⟩
      · refine Basis.endsAtOnce_of_heldByDefault ?_ rfl rfl 10
        rintro group own ⟨⟩ hown
        cases hown
        rfl
      · simp [Sample.unaided] at hmem
  · cases hopen
  · exact ⟨brought, hanswer, hbrought⟩

/-- A type that is brought along makes an instance of a record at a table where nothing was done
yet, and none where the record was asked for without it before. -/
theorem not_resolve_of_brought :
    (∃ value, ((Sample.bare [.add Sample.tagged]).resolve 10
      (some (.blueprint Sample.spare))).1 = .ok value) ∧
    ∃ error, ((Sample.bare Sample.unaided).resolve 10
      (some (.blueprint Sample.spare))).1 = .error (.resolution error) :=
  ⟨⟨_, rfl⟩, _, rfl⟩

end Table

end Part21
