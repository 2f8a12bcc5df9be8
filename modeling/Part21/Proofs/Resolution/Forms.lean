import Part21.Proofs.Resolution.Interchange
import Part21.Proofs.Resolution.Parts

set_option autoImplicit false

/-!
# Instances in two forms

An instance of an entity type may be written as one group or part by part.  The two records are held
alike, and a reference to either is tested alike.  So the outcome of resolving the instance in a new
table is the same in either form: the attributes and types of an instance, or the kind and path of
an error (`Table.resolve_split`).  Only an error text may tell which form the record has, and so
holders and factories must not hang on such texts (`Table.not_resolve_split`).
-/

namespace Part21

/-! ## Answers -/

/-- Answers agree if they are instances with the same attributes and types, the one of an entity
type and the other one of parts, or errors of one kind with one path. -/
inductive Thrown.Agree : Except Thrown Instance → Except Thrown Instance → Prop
  | instances {entity : Entity} {complex : ComplexEntity}
      (hattributes : complex.attributes = entity.attributes)
      (htypes : ∀ name, name ∈ complex.typeNames ↔ name ∈ entity.typeNames) :
      Agree (.ok (.entity entity)) (.ok (.complex complex))
  | errors {first second : ResolutionError} (hkind : first.reason.kind = second.reason.kind)
      (hchain : first.chain = second.chain) :
      Agree (.error (.resolution first)) (.error (.resolution second))
  | interrupts (message : Text) :
      Agree (.error (.interrupt message)) (.error (.interrupt message))

namespace Basis

variable {b : Basis} {records : Population} {i : Int}

/-- Attempts at two records of one name that end by errors which resemble each other. -/
theorem ending_agree (b : Basis) (records : Population) (i : Int) (r s : Record)
    {first second : Thrown} (h : first.Resembles second) :
    Thrown.Agree (b.ending i r (.error first)).outcome
      ((b.withPopulation records).ending i s (.error second)).outcome := by
  cases h with
  | @resolution error other h =>
    change Thrown.Agree (Ending.ofError _).outcome (Ending.ofError _).outcome
    rw [Ending.outcome_ofError, Ending.outcome_ofError]
    refine .errors ?_ ?_
    · rw [ResolutionError.reason_attributed, ResolutionError.reason_attributed]
      exact h.reason.kind_eq
    · rw [ResolutionError.chain_attributed, ResolutionError.chain_attributed,
        ResolutionError.chain, h.current]
      rfl
  | failure original =>
    rw [ending_failure, ending_failure, Ending.outcome_ofError, Ending.outcome_ofError]
    exact .errors rfl rfl
  | interrupt message => exact .interrupts message

variable {e : EntityType} {chain : List EntityType} {whole split : Record}

/-- A reference to either of the two forms is tested alike. -/
theorem testsAlike_twoForms (h : TwoForms b.registry e chain whole split) (id : Int) :
    b.TestsAlike id whole split := by
  intro expected place
  unfold checkTarget
  cases hallowed : b.allowed expected with
  | error fault => exact .refl _
  | ok names =>
    dsimp only
    rw [h.recordIs_eq (upper_of_allowed hallowed)]
    split
    · exact .refl _
    · exact .refl _
    · exact .error (.resolution ⟨.mismatch _ _ _ _, rfl, rfl, rfl⟩)

theorem heldByDefault_whole (h : TwoForms b.registry e chain whole split)
    (hmaker : b.makers e.key = .default) : b.HeldByDefault none whole := by
  intro group own hbody hown
  obtain ⟨group', hbody', hkeyword, _⟩ := h.groups
  obtain rfl := Body.simple.inj (hbody.symm.trans hbody')
  rw [maker_of_blueprint hown, hkeyword, hmaker]
  rfl

theorem heldByDefault_split (h : TwoForms b.registry e chain whole split) :
    (b.withPopulation records).HeldByDefault none split := by
  intro group own hbody _
  have hcomplex := h.isComplex
  rw [Record.isComplex, hbody] at hcomplex
  cases hcomplex

theorem factory?_whole (h : TwoForms b.registry e chain whole split)
    (hmaker : b.makers e.key = .default) : b.factory? none whole = none := by
  obtain ⟨group, hbody, hkeyword, _⟩ := h.groups
  unfold factory?
  rw [hbody]
  dsimp only
  rw [blueprint_eq_ok h.registered hkeyword, hmaker]
  rfl

theorem factory?_split (h : TwoForms b.registry e chain whole split) :
    (b.withPopulation records).factory? none split = none := by
  have hcomplex := h.isComplex
  cases hbody : split.body with
  | simple group =>
    rw [Record.isComplex, hbody] at hcomplex
    cases hcomplex
  | complex first others loose => exact factory?_of_complex hbody

/-- Either of the two forms is resolved with the same outcome. -/
theorem resolve_agree (h : TwoForms b.registry e chain whole split)
    (hmaker : b.makers e.key = .default) (hdiscreet : b.makers.Discreet)
    (hreplaces : b.population.Replaces records i whole split) :
    Thrown.Agree (b.resolve none i .initial).1
      ((b.withPopulation records).resolve none i .initial).1 := by
  unfold resolve nesting
  rw [hreplaces.size,
    enter_of_heldByDefault (heldByDefault_whole h hmaker) _ _ hreplaces.first rfl
      (made_of_factory?_eq_none (factory?_whole h hmaker) _),
    enter_of_heldByDefault (heldByDefault_split h) _ _ hreplaces.second rfl
      (made_of_factory?_eq_none (factory?_split h) _)]
  rw [← (b.sameSchema_withPopulation records).hold_eq]
  rcases h.hold_cases i with ⟨thrown, hwhole, hsplit⟩ | ⟨parts, hparts, hwhole, hsplit⟩
  · rw [hwhole, hsplit]
    exact b.ending_agree records i whole split (.refl thrown)
  · have hlinks : (HeldRecord.complex parts).links =
        (HeldRecord.simple e (parts.flatMap Prod.snd)).links := HeldRecord.links_eq _
    have htests : b.TestsAlike i whole split := testsAlike_twoForms h i
    have henter : ∀ id {p q : Progress}, p.Mirrors i q → Thrown.InStep (Progress.Mirrors i)
        (b.enter b.population.size ⟨none, [i]⟩ id p)
        ((b.withPopulation records).enter b.population.size ⟨none, [i]⟩ id q) :=
      fun id _ _ => enter_inStep hreplaces htests hdiscreet b.population.size [i] id
    have hvisited := Build.visitAll_inStep
      (fun target expected place _ _ =>
        visit_inStep hreplaces htests henter i target expected place)
      (HeldRecord.simple e (parts.flatMap Prod.snd)).links (Progress.mirrors_begin_initial i)
    rw [hwhole, hsplit]
    dsimp only
    rw [hlinks]
    generalize Build.visitAll (b.visit _ _ _) _ _ = first at hvisited ⊢
    generalize Build.visitAll ((b.withPopulation records).visit _ _ _) _ _ = second at hvisited ⊢
    obtain ⟨answer, p⟩ := first
    obtain ⟨answer', q⟩ := second
    obtain ⟨hanswer, -⟩ := hvisited
    cases hanswer with
    | ok value => exact .instances (h.attributes_eq hparts i) (h.mem_typeNames hparts i)
    | error herror => exact b.ending_agree records i whole split herror

end Basis

/-! ## Tables -/

namespace Table

/-- An instance of a rooted entity type that is built by default may be written part by part.  The
type has a linearization, and whatever parameters it takes can be spread over it.  In a new table
with any other records the outcome of resolving the instance is then the same as with the one
group.

Other types may have any holders and factories that are discreet: a mismatch describes the record
that was found, and that is the only thing by which the two forms can be told apart. -/
theorem resolve_split {registry : Registry} {makers : Makers} {settings : Settings}
    {e : EntityType} (hregistered : registry.IsRegistered e) (hrooted : registry.Rooted e)
    (hmaker : makers e.key = .default) (hdiscreet : makers.Discreet) :
    ∃ chain attributes, registry.linearization e = .ok chain ∧
      registry.attributesOf e = .ok attributes ∧
      ∀ parameters : List Parameter, parameters.length = attributes.length →
        (∃ groups, Spreads chain parameters groups) ∧
        ∀ (whole split : Record) (i : Int) (keyword : Text),
          whole.id = some i → whole.body = .simple ⟨keyword, parameters⟩ →
          keyword.upper = e.key →
          split.id = some i → split.isComplex = true → Spreads chain parameters split.groups →
          ∀ (before after : List Record) (t : Table),
            (empty registry makers settings).extend (before ++ whole :: after) = (.ok (), t) →
            ∃ u, (empty registry makers settings).extend (before ++ split :: after) =
                (.ok (), u) ∧
              Thrown.Agree (t.resolve i none).1 (u.resolve i none).1 := by
  obtain ⟨chain, hchain, _⟩ := Registry.linearization_of_rooted hregistered hrooted
  have hattributes : registry.attributesOf e =
      .ok (chain.flatMap (Registry.declaredAttributes chain)) := by
    rw [Registry.attributesOf, hchain]
  refine ⟨chain, _, hchain, hattributes, fun parameters hlength => ⟨exists_spreads hlength, ?_⟩⟩
  intro whole split i keyword hwhole hbody hkeyword hsplit hcomplex hspreads before after t ht
  obtain ⟨population, records, rfl, hextend, hreplaces⟩ := extend_replace hwhole hsplit ht
  have hforms : TwoForms registry e chain whole split :=
    ⟨hregistered, hchain, ⟨_, hbody, hkeyword, hspreads⟩, hcomplex⟩
  refine ⟨_, hextend, ?_⟩
  rw [resolve_none_fst, resolve_none_fst]
  exact Basis.resolve_agree (b := ⟨registry, makers, settings, population⟩) hforms hmaker
    hdiscreet hreplaces

end Table

/-! ## Samples -/

namespace Sample

/-- Shapes have a name and an area. -/
def shape : EntityType :=
  ⟨"SHAPE", [⟨"name", .simple .string, false, false⟩, ⟨"area", .simple .real, false, false⟩], [],
    false, []⟩

/-- Discs are shapes of which the area is derived.  They have a radius and a note. -/
def disc : EntityType :=
  ⟨"DISC", [⟨"radius", .simple .real, false, false⟩, ⟨"note", .ref "NOTE", false, false⟩],
    ["SHAPE"], false, [("SHAPE", "area")]⟩

/-- Notes are about shapes. -/
def note : EntityType := ⟨"NOTE", [⟨"about", .ref "SHAPE", false, false⟩], [], false, []⟩

/-- A registry of shapes, discs and notes. -/
def discRegistry : Registry :=
  [shape, disc, note].foldl (fun r e => (r.register (.entity e) false).toOption.getD r)
    (.initial "DISCS")

/-- A disc as one group. -/
def whole : Record :=
  ⟨some 1, .simple ⟨"DISC", [.string "round", .inapplicable, .integer 1, .reference 2]⟩, none, none⟩

/-- The same disc part by part. -/
def split : Record :=
  ⟨some 1, .complex ⟨"SHAPE", [.string "round", .inapplicable]⟩
    [⟨"DISC", [.integer 1, .reference 2]⟩] [], none, none⟩

/-- A note about it. -/
def remark : Record := ⟨some 2, .simple ⟨"NOTE", [.reference 1]⟩, none, none⟩

/-- A new table with a disc and the note about it. -/
def noted (makers : Makers) (disc : Record) : Table :=
  ((Table.empty discRegistry makers .default).extend [disc, remark]).2

/-- A holder that builds an instance for itself or because of one other, and not from further
away. -/
def nearby : Holder := fun site e factory parameters =>
  if site.depth ≤ 2 then Holder.default site e factory parameters
  else .throw (.failure (.foreign "ValueError" "too far away"))

theorem nearby_discreet : nearby.Discreet := by
  intro first second hsite e factory parameters hfactory
  unfold nearby
  rw [hsite.depth]
  split
  · exact Holder.default_discreet first second hsite e factory parameters hfactory
  · exact .done (.refl _)

/-- Notes are built by this holder, and all else by default. -/
def noteMakers : Makers := Makers.initial.withHolder "NOTE" nearby

theorem noteMakers_discreet : noteMakers.Discreet := by
  refine Makers.discreet_initial.change "NOTE" ⟨fun holder hholder => ?_, nofun⟩
  exact Option.some.inj hholder ▸ nearby_discreet

theorem linearization_disc : discRegistry.linearization disc = .ok [shape, disc] := rfl

theorem isRegistered_disc : discRegistry.IsRegistered disc := ⟨"DISC", rfl⟩

theorem spreads_split :
    Spreads [shape, disc] [.string "round", .inapplicable, .integer 1, .reference 2] split.groups :=
  @Spreads.cons shape _ ⟨"SHAPE", [.string "round", .inapplicable]⟩ _ _ rfl rfl
    (@Spreads.cons disc _ ⟨"DISC", [.integer 1, .reference 2]⟩ _ _ rfl rfl .nil)

/-- A holder that looks at the first instance, of which it is told that it is no note, and fails
unless that is described as a disc and nothing else. -/
def gossip : Holder := fun _ _ _ _ =>
  .visit 1 (.entity note) "about" fun answer =>
    match answer with
    | .error (.resolution ⟨.mismatch _ _ found, _, _, _⟩) =>
      if found = "#1 DISC" then .done (.ok (.value .nothing))
      else .throw (.failure (.foreign "ValueError" found))
    | other => .done (other.map fun _ => .value .nothing)

/-- Notes are built by that holder, and all else by default. -/
def gossipMakers : Makers := Makers.initial.withHolder "NOTE" gossip

end Sample

namespace Table

theorem resolve_split_disc :
    Sample.discRegistry.IsRegistered Sample.disc ∧ Sample.discRegistry.Rooted Sample.disc ∧
      Sample.noteMakers Sample.disc.key = .default ∧ Sample.noteMakers.Discreet ∧
      Spreads [Sample.shape, Sample.disc] [.string "round", .inapplicable, .integer 1, .reference 2]
        Sample.split.groups ∧
      ((Sample.noted Sample.noteMakers Sample.whole).resolve 1 none).1.isOk = true ∧
      Thrown.Agree ((Sample.noted Sample.noteMakers Sample.whole).resolve 1 none).1
        ((Sample.noted Sample.noteMakers Sample.split).resolve 1 none).1 := by
  have hregistered := Sample.isRegistered_disc
  have hrooted := Registry.rooted_of_linearization Sample.linearization_disc
  have hmaker : Sample.noteMakers Sample.disc.key = .default := rfl
  refine ⟨hregistered, hrooted, hmaker, Sample.noteMakers_discreet, Sample.spreads_split,
    by decide +kernel, ?_⟩
  obtain ⟨chain, attributes, hchain, hattributes, hall⟩ :=
    @resolve_split _ _ .default _ hregistered hrooted hmaker Sample.noteMakers_discreet
  obtain rfl := Except.ok.inj (hchain.symm.trans Sample.linearization_disc)
  obtain ⟨_, hagrees⟩ := hall [.string "round", .inapplicable, .integer 1, .reference 2] (by
    obtain rfl := Except.ok.inj hattributes
    rfl)
  obtain ⟨u, hu, hagree⟩ := hagrees Sample.whole Sample.split 1 "DISC" rfl rfl rfl rfl rfl
    Sample.spreads_split [] [Sample.remark] (Sample.noted Sample.noteMakers Sample.whole) rfl
  have hsplit : Sample.noted Sample.noteMakers Sample.split = u := congrArg Prod.snd hu
  exact hsplit ▸ hagree

/-- A holder of another type may tell the two forms apart.  Where one hangs on the description
of the instance, the instance is resolved as one group and fails part by part. -/
theorem not_resolve_split :
    Sample.discRegistry.IsRegistered Sample.disc ∧ Sample.discRegistry.Rooted Sample.disc ∧
      Sample.gossipMakers Sample.disc.key = .default ∧
      Spreads [Sample.shape, Sample.disc] [.string "round", .inapplicable, .integer 1, .reference 2]
        Sample.split.groups ∧
      ((Sample.noted Sample.gossipMakers Sample.whole).resolve 1 none).1.isOk = true ∧
      ((Sample.noted Sample.gossipMakers Sample.split).resolve 1 none).1.isOk = false :=
  ⟨Sample.isRegistered_disc, Registry.rooted_of_linearization Sample.linearization_disc, rfl,
    Sample.spreads_split, by decide +kernel, by decide +kernel⟩

end Table

end Part21
