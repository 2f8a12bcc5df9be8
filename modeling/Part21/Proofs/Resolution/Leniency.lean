import Part21.Proofs.Resolution.Filling
import Part21.Proofs.Resolution.Soundness

set_option autoImplicit false

/-!
# Lenient settings

Settings decide how deep references may go and which parameters are taken.  Settings that
allow at least as much depth, and have each leniency of others, lose none of their results: a
pass that comes to an instance under the stricter ones takes the very same turns under the
more lenient ones.

For a conversion this says that what is held under the one is held in the same way under the
other (`Basis.relaxes_hold`).  A pass that comes to an instance meets no error at all on its
way, as every error ends the buildings that led to it.  So it neither meets an error of a
conversion nor the limit, and goes the same way under both (`Basis.enter_lenient`).
-/

namespace Part21

/-- Settings are no stricter than others. -/
structure Settings.NoStricter (lenient strict : Settings) : Prop where
  depth : strict.maxDepth ≤ lenient.maxDepth
  enumerations : lenient.strictEnumerations = true → strict.strictEnumerations = true
  integers : strict.acceptIntegerAsReal = true → lenient.acceptIntegerAsReal = true

/-- An outcome relaxes to another one: where it is a value, the other one is the same value. -/
def RelaxesTo {ε α : Type} (strict lenient : Except ε α) : Prop :=
  ∀ value, strict = .ok value → lenient = .ok value

namespace RelaxesTo

variable {ε α β : Type}

theorem refl (outcome : Except ε α) : RelaxesTo outcome outcome := fun _ h => h

theorem of_error (thrown : ε) (outcome : Except ε α) : RelaxesTo (.error thrown) outcome :=
  fun _ h => nomatch h

theorem map {strict lenient : Except ε α} (h : RelaxesTo strict lenient) (f : α → β) :
    RelaxesTo (strict.map f) (lenient.map f) := by
  cases strict with
  | error thrown => exact of_error thrown _
  | ok value =>
    rw [h value rfl]
    exact refl _

end RelaxesTo

/-! ## Conversions -/

namespace Held

variable {r : Registry} {strict lenient : Settings}

theorem relaxes_simple (h : lenient.NoStricter strict) (place : Text) (type : SimpleType)
    (p : Parameter) : RelaxesTo (simple strict place type p) (simple lenient place type p) := by
  cases hinteger : strict.acceptIntegerAsReal with
  | true =>
    -- Integers are taken for reals in both cases, and nothing else depends on settings.
    have hlenient := h.integers hinteger
    unfold simple
    rw [hinteger, hlenient]
    exact .refl _
  | false =>
    unfold simple
    split
    case h_3 n =>
      rw [if_neg (by rw [hinteger]; exact Bool.false_ne_true)]
      exact .of_error _ _
    all_goals exact .refl _

theorem relaxes_item (h : lenient.NoStricter strict) (place name : Text) (items : List Text)
    (p : Parameter) : RelaxesTo (item strict place name items p) (item lenient place name items p) := by
  cases hlenient : lenient.strictEnumerations with
  | true =>
    have hstrict := h.enumerations hlenient
    unfold item
    rw [hlenient, hstrict]
    exact .refl _
  | false =>
    unfold item
    split
    · rename_i spelling
      cases TypeDef.item? items spelling with
      | some declared => exact .refl _
      | none =>
        dsimp only
        rw [hlenient]
        split
        · exact .of_error _ _
        · exact .refl _
    · exact .refl _

theorem relaxes_whole (h : lenient.NoStricter strict) (place : Text) (t : TypeDef) (p : Parameter) :
    RelaxesTo (whole strict place t p) (whole lenient place t p) := by
  unfold whole
  split
  · exact (relaxes_simple h place _ p).map _
  · exact (relaxes_item h place _ _ p).map _
  all_goals exact .refl _

mutual

/-- What stricter settings take, more lenient ones take, and they hold it in the same way. -/
theorem relaxes_ofParameter (h : lenient.NoStricter strict) (place : Text) (t : TypeDef)
    (p : Parameter) :
    RelaxesTo (ofParameter r strict place t p) (ofParameter r lenient place t p) := by
  match p with
  | .typed keyword inner =>
    rw [ofParameter, ofParameter]
    split
    · exact .refl _
    · exact relaxes_ofParameter h place _ inner
    · split
      · exact .refl _
      · exact (relaxes_ofParameter h place _ inner).map _
    · exact relaxes_whole h place _ _
  | .list items =>
    rw [ofParameter, ofParameter]
    split
    · exact .refl _
    · split
      · exact (relaxes_ofParameters h place _ items).map _
      · exact .refl _
    · exact relaxes_whole h place _ _
    · exact relaxes_whole h place _ _
  | .integer _ | .real _ | .string _ | .enumeration _ | .binary _ _ | .reference _ | .unset
  | .inapplicable =>
    rw [ofParameter, ofParameter]
    · split
      · exact .refl _
      · exact relaxes_whole h place _ _
      · exact relaxes_whole h place _ _
    all_goals nofun

theorem relaxes_ofParameters (h : lenient.NoStricter strict) (place : Text) (element : TypeDef)
    (items : List Parameter) :
    RelaxesTo (ofParameters r strict place element items)
      (ofParameters r lenient place element items) := by
  match items with
  | [] => exact .refl _
  | p :: rest =>
    have hfirst := relaxes_ofParameter h place element p
    have hothers := relaxes_ofParameters h place element rest
    rw [ofParameters, ofParameters]
    cases hheld : ofParameter r strict place element p with
    | error thrown => exact .of_error _ _
    | ok first =>
      rw [hfirst first hheld]
      cases hrest : ofParameters r strict place element rest with
      | error thrown => exact .of_error _ _
      | ok others =>
        rw [hothers others hrest]
        exact .refl _

end

theorem relaxes_ofSlot (h : lenient.NoStricter strict) (a : Attribute) (p : Parameter) :
    RelaxesTo (ofSlot r strict a p) (ofSlot r lenient a p) := by
  unfold ofSlot
  split
  · exact .refl _
  · split
    · exact .refl _
    · split
      · exact .refl _
      · exact relaxes_ofParameter h a.name a.type p

theorem relaxes_ofSlots (h : lenient.NoStricter strict) (attributes : List Attribute)
    (parameters : List Parameter) :
    RelaxesTo (ofSlots r strict attributes parameters) (ofSlots r lenient attributes parameters) := by
  induction attributes generalizing parameters with
  | nil => exact .refl _
  | cons a attributes ih =>
    cases parameters with
    | nil => exact .refl _
    | cons p parameters =>
      rw [ofSlots, ofSlots]
      cases hheld : ofSlot r strict a p with
      | error thrown => exact .of_error _ _
      | ok held =>
        rw [relaxes_ofSlot h a p held hheld]
        cases hrest : ofSlots r strict attributes parameters with
        | error thrown => exact .of_error _ _
        | ok rest =>
          rw [ih parameters rest hrest]
          exact .refl _

theorem relaxes_ofGroup (h : lenient.NoStricter strict) (typeName : Text)
    (attributes : List Attribute) (parameters : List Parameter) :
    RelaxesTo (ofGroup r strict typeName attributes parameters)
      (ofGroup r lenient typeName attributes parameters) := by
  unfold ofGroup
  split
  · exact relaxes_ofSlots h attributes parameters
  · exact .refl _

end Held

/-! ## Held records -/

namespace Basis

/-- The same basis with other settings. -/
def withSettings (b : Basis) (settings : Settings) : Basis := { b with settings := settings }

variable {b : Basis} {lenient : Settings}

theorem ByDefault.withSettings {brought : Option Blueprint} (h : b.ByDefault brought)
    (settings : Settings) : (b.withSettings settings).ByDefault brought :=
  ⟨h.makers, h.brought⟩

theorem partTypes_withSettings (b : Basis) (settings : Settings) (brought : Option Blueprint)
    (groups : List Group) :
    (b.withSettings settings).partTypes brought groups = b.partTypes brought groups := by
  induction groups with
  | nil => rfl
  | cons group rest ih =>
    rw [partTypes, partTypes, ih]
    rfl

theorem checkTarget_withSettings (b : Basis) (settings : Settings) :
    (b.withSettings settings).checkTarget = b.checkTarget := rfl

theorem relaxes_holdParts (h : lenient.NoStricter b.settings) (id : Int) (all : List EntityType)
    (parts : List (EntityType × Group)) :
    RelaxesTo ((b.outset id).holdParts all parts)
      (((b.withSettings lenient).outset id).holdParts all parts) := by
  induction parts with
  | nil => exact .refl _
  | cons part rest ih =>
    obtain ⟨e, group⟩ := part
    have hpart : RelaxesTo
        ((b.outset id).holdPart e (all.filter fun other => other.key ≠ e.key) group.parameters)
        (((b.withSettings lenient).outset id).holdPart e (all.filter fun other => other.key ≠ e.key)
          group.parameters) := by
      unfold Site.holdPart
      dsimp only [outset, withSettings]
      split
      · exact .refl _
      · exact Held.relaxes_ofGroup h _ _ _
    rw [Site.holdParts, Site.holdParts]
    cases hslots : (b.outset id).holdPart e (all.filter fun other => other.key ≠ e.key)
        group.parameters with
    | error thrown => exact .of_error _ _
    | ok slots =>
      rw [hpart slots hslots]
      cases hrest : (b.outset id).holdParts all rest with
      | error thrown => exact .of_error _ _
      | ok others =>
        rw [ih others hrest]
        exact .refl _

/-- A record that is held under stricter settings is held in the same way under more lenient
ones. -/
theorem relaxes_hold (h : lenient.NoStricter b.settings) (brought : Option Blueprint) (id : Int)
    (r : Record) : RelaxesTo (b.hold brought id r) ((b.withSettings lenient).hold brought id r) := by
  unfold hold
  cases r.body with
  | simple group =>
    dsimp only
    cases hown : b.blueprint brought group.keyword with
    | error thrown => exact .of_error _ _
    | ok own =>
      have hsame : (b.withSettings lenient).blueprint brought group.keyword = .ok own := hown
      rw [hsame]
      dsimp only
      have hslots : RelaxesTo ((b.outset id).hold own.definition group.parameters)
          (((b.withSettings lenient).outset id).hold own.definition group.parameters) := by
        unfold Site.hold
        dsimp only [outset, withSettings]
        split
        · exact .refl _
        · exact Held.relaxes_ofGroup h _ _ _
      cases hheld : (b.outset id).hold own.definition group.parameters with
      | error thrown => exact .of_error _ _
      | ok slots =>
        rw [hslots slots hheld]
        exact .refl _
  | complex first others loose =>
    dsimp only
    rw [partTypes_withSettings]
    cases hparts : b.partTypes brought (first :: others) with
    | error thrown => exact .of_error _ _
    | ok parts =>
      dsimp only
      cases hheld : (b.outset id).holdParts (parts.map Prod.fst) parts with
      | error thrown => exact .of_error _ _
      | ok held =>
        rw [relaxes_holdParts h id _ parts held hheld]
        exact .refl _

/-! ## Passes -/

/-- Links that were followed to the last one under stricter settings are followed in the same way
under more lenient ones, if every instance is entered in the same way. -/
theorem visitAll_lenient (h : lenient.NoStricter b.settings) {buildings : Nat} {path : List Int}
    (hentered : ∀ {id p value q}, b.enter buildings ⟨none, path⟩ id p = (.ok value, q) →
      (b.withSettings lenient).enter buildings ⟨none, path⟩ id p = (.ok value, q))
    (referrer : Int) {links : List Link} {p q : Progress}
    (hvisited : Build.visitAll (b.visit (b.enter buildings) ⟨none, path⟩ referrer) links p =
      (.ok (), q)) :
    Build.visitAll ((b.withSettings lenient).visit ((b.withSettings lenient).enter buildings)
      ⟨none, path⟩ referrer) links p = (.ok (), q) := by
  induction links generalizing p with
  | nil => exact hvisited
  | cons l rest ih =>
    unfold Build.visitAll at hvisited ⊢
    split at hvisited
    · cases hvisited
    · rename_i s hlink
      have hsame : (b.withSettings lenient).visit ((b.withSettings lenient).enter buildings)
          ⟨none, path⟩ referrer l.target l.expected l.place p = (.ok (), s) := by
        unfold visit at hlink ⊢
        have hpopulation : (b.withSettings lenient).population = b.population := rfl
        rw [hpopulation, checkTarget_withSettings]
        split at hlink
        · cases hlink
        · dsimp only at hlink ⊢
          split at hlink
          · rename_i hmem
            rw [if_pos hmem]
            exact hlink
          · rename_i hmem
            rw [if_neg hmem]
            split at hlink
            · rename_i hroom
              have hmore : path.length < (b.withSettings lenient).settings.maxDepth :=
                hroom.trans_le h.depth
              rw [if_pos hmore]
              split at hlink
              · cases hlink
              · rename_i value s hbelow
                rw [hentered hbelow]
                exact hlink
            · cases hlink
      rw [hsame]
      exact ih hvisited

/-- A pass that comes to an instance under stricter settings takes the same turns under more
lenient ones. -/
theorem enter_lenient (hdefault : b.ByDefault none) (h : lenient.NoStricter b.settings)
    {buildings : Nat} {path : List Int} {id : Int} {p q : Progress} {value : Instance}
    (hentered : b.enter buildings ⟨none, path⟩ id p = (.ok value, q)) :
    (b.withSettings lenient).enter buildings ⟨none, path⟩ id p = (.ok value, q) := by
  induction buildings generalizing path id p q value with
  | zero => cases hentered
  | succ buildings ih =>
    cases hr : b.population.find? id with
    | none =>
      unfold enter at hentered
      rw [hr] at hentered
      cases hentered
    | some r =>
      have hsame : (b.withSettings lenient).population.find? id = some r := hr
      cases hstanding : p.standing id with
      | resolved known =>
        unfold enter at hentered ⊢
        rw [hr] at hentered
        rw [hsame]
        dsimp only at hentered ⊢
        rw [hstanding] at hentered ⊢
        exact hentered
      | failed error =>
        unfold enter at hentered
        rw [hr] at hentered
        dsimp only at hentered
        rw [hstanding] at hentered
        cases hentered
      | inProgress =>
        unfold enter at hentered
        rw [hr] at hentered
        dsimp only at hentered
        rw [hstanding] at hentered
        cases hentered
      | unvisited =>
        rw [enter_of_unvisited hdefault buildings path hr hstanding] at hentered
        rw [enter_of_unvisited (hdefault.withSettings lenient) buildings path hsame hstanding]
        cases hheld : b.hold none id r with
        | error thrown =>
          rw [hheld] at hentered
          have hfailed := outcome_eq_ok (Prod.mk.inj hentered).1
          exact absurd hfailed (b.ending_error_ne_completed id r thrown value)
        | ok held =>
          rw [hheld] at hentered
          rw [relaxes_hold h none id r held hheld]
          dsimp only at hentered ⊢
          rcases hlinks : Build.visitAll (b.visit (b.enter buildings) ⟨none, id :: path⟩ id)
            held.links (p.begin id) with ⟨outcome, s⟩
          rw [hlinks] at hentered
          cases outcome with
          | error thrown =>
            have hfailed := outcome_eq_ok (Prod.mk.inj hentered).1
            exact absurd hfailed (b.ending_error_ne_completed id r thrown value)
          | ok done =>
            rw [visitAll_lenient h ih id hlinks]
            exact hentered

theorem resolve_lenient (hdefault : b.ByDefault none) (h : lenient.NoStricter b.settings) {id : Int}
    {p : Progress} {value : Instance} (hresolved : (b.resolve none id p).1 = .ok value) :
    (b.withSettings lenient).resolve none id p = b.resolve none id p := by
  have hpair : b.resolve none id p = (.ok value, (b.resolve none id p).2) :=
    Prod.ext hresolved rfl
  rw [hpair]
  exact enter_lenient hdefault h hpair

end Basis

/-! ## Tables -/

namespace Table

/-- The same table with other settings. -/
def withSettings (t : Table) (settings : Settings) : Table :=
  { t with basis := t.basis.withSettings settings }

/-- Which records a table takes does not depend on its settings. -/
theorem extend_withSettings (t : Table) (settings : Settings) (rs : List Record) :
    (t.withSettings settings).extend rs =
      ((t.extend rs).1, (t.extend rs).2.withSettings settings) := by
  induction rs generalizing t with
  | nil => rfl
  | cons r rest ih =>
    have hadd : (t.withSettings settings).add r =
        (t.add r).map fun u => u.withSettings settings := by
      unfold add withSettings Basis.withSettings
      obtain ⟨basis, isSealed, progress⟩ := t
      cases isSealed with
      | true => rfl
      | false => cases basis.population.add r <;> rfl
    rw [extend, extend, hadd]
    cases t.add r with
    | error fault => rfl
    | ok u => exact ih u

/-- With default holders and without factories, a new table under more lenient settings takes
the same records as one under the stricter ones.  If the instance that is asked for first is
resolved under the stricter settings, it is resolved to the same under the others, and so is
every instance that was resolved on the way. -/
theorem resolve_of_noStricter {registry : Registry} {strict lenient : Settings}
    (h : lenient.NoStricter strict) (rs : List Record) {t u : Table}
    (ht : ((empty registry .initial strict).extend rs).2 = t)
    (hu : ((empty registry .initial lenient).extend rs).2 = u) {id : Int} {value : Instance}
    (hresolved : (t.resolve id none).1 = .ok value) :
    ((empty registry .initial lenient).extend rs).1 =
      ((empty registry .initial strict).extend rs).1 ∧
    (u.resolve id none).1 = .ok value ∧
    ∀ other own, (t.resolve id none).2.standing other = .resolved own →
      (u.resolve id none).2.standing other = .resolved own := by
  have hplain := extend_invariant (fun hadd h => (Plain.add hadd h).1) rs
    (plain_empty registry strict)
  have hextend := (empty registry .initial strict).extend_withSettings lenient rs
  change (empty registry .initial lenient).extend rs = _ at hextend
  rw [ht] at hplain hextend
  have hsame : u = t.withSettings lenient := by
    rw [← hu, hextend]
  have hbasis : lenient.NoStricter t.basis.settings := hplain.settings ▸ h
  rw [resolve_none_fst] at hresolved
  have hequal := Basis.resolve_lenient hplain.byDefault_none hbasis hresolved
  have hprogress : (u.resolve id none).2.progress = (t.resolve id none).2.progress := by
    rw [hsame, resolve_snd, resolve_snd]
    exact congrArg Prod.snd hequal
  refine ⟨by rw [hextend], ?_, fun other own hown => ?_⟩
  · rw [hsame, resolve_none_fst]
    exact (congrArg Prod.fst hequal).trans hresolved
  · rw [standing, hprogress]
    exact hown

end Table

namespace Sample

/-- Settings of the least depth for two instances, and without any leniency. -/
def exacting : Settings :=
  ⟨2, true, false, Nat.le_of_ble_eq_true rfl, Nat.le_of_ble_eq_true rfl⟩

/-- A new table with two nodes that refer to each other. -/
def pair (settings : Settings) : Table :=
  ((Table.empty registry .initial settings).extend [record 1 [2], record 2 [1]]).2

end Sample

namespace Table

theorem resolve_of_noStricter_pair : ∃ value own,
    ((Sample.pair .default).resolve 1 none).1 = .ok value ∧
    ((Sample.pair Sample.exacting).resolve 1 none).2.standing 2 = .resolved own ∧
    ((Sample.pair .default).resolve 1 none).2.standing 2 = .resolved own := by
  have hlenient : Settings.default.NoStricter Sample.exacting :=
    ⟨by decide, fun _ => rfl, nofun⟩
  obtain ⟨value, hvalue⟩ : ∃ value, ((Sample.pair Sample.exacting).resolve 1 none).1 = .ok value :=
    ⟨_, rfl⟩
  obtain ⟨own, hown⟩ :
      ∃ own, ((Sample.pair Sample.exacting).resolve 1 none).2.standing 2 = .resolved own := ⟨_, rfl⟩
  obtain ⟨_, hsame, hothers⟩ :=
    resolve_of_noStricter hlenient [Sample.record 1 [2], Sample.record 2 [1]] rfl rfl hvalue
  exact ⟨value, own, hsame, hown, hothers 2 own hown⟩

end Table

end Part21
