import Part21.Proofs.Number.Rounding
import Part21.Proofs.Resolution.Validity
import Part21.Proofs.Schema.Search
import Part21.Proofs.Schema.Validation

set_option autoImplicit false

/-!
# Parameters that conform

What a type takes is told by recursion on the type and the parameter: `Parameter.Conforms`.  A
conversion goes through references and defined types first and then takes the parameter apart, and
it succeeds exactly for the parameters that conform, if the integers among the reals have a finite
real next to them (`Held.decides_ofParameter`).  A parameter that conforms but for such an integer
fails as too large, and all others are refused, unless an integer in them is too large before.

So it is with the parameters of a record, one for each attribute, wherever the names that the types
of the registry refer to are registered and no type is defined by itself (`Site.decides_hold`).
-/

namespace Part21

/-! ## What types take -/

/-- The keyword of a typed parameter, in capitals. -/
def Parameter.keyword? : Parameter → Option Text
  | typed keyword _ => some keyword.upper
  | _ => none

/-- The kinds of parameters of a simple type.  `fits` says which integers are taken for reals. -/
inductive SimpleType.Takes (s : Settings) (fits : Int → Prop) : SimpleType → Parameter → Prop
  | integer (n : Int) : Takes s fits .integer (.integer n)
  | real (x : Binary64) : Takes s fits .real (.real x)
  | realInteger {n : Int} (haccept : s.acceptIntegerAsReal = true) (hfits : fits n) :
      Takes s fits .real (.integer n)
  | numberInteger (n : Int) : Takes s fits .number (.integer n)
  | numberReal (x : Binary64) : Takes s fits .number (.real x)
  | string (t : Text) : Takes s fits .string (.string t)
  | boolean {item : Text} (hitem : item = "T" ∨ item = "F") : Takes s fits .boolean (.enumeration item)
  | logical {item : Text} (hitem : item = "T" ∨ item = "F" ∨ item = "U") :
      Takes s fits .logical (.enumeration item)
  | binary (unusedBits : Int) (digits : Text) : Takes s fits .binary (.binary unusedBits digits)

/-- A parameter conforms to a type. -/
inductive Parameter.Conforms (r : Registry) (s : Settings) (fits : Int → Prop) :
    TypeDef → Parameter → Prop
  | ref {name : Text} {t : TypeDef} {p : Parameter} (hfind : r.find? name = some t)
      (hconforms : Conforms r s fits t p) : Conforms r s fits (.ref name) p
  /-- a value of a defined type in a wrapper of its name -/
  | wrapped {name keyword : Text} {underlying : TypeDef} {inner : Parameter}
      (hkeyword : keyword.upper = name.upper) (hconforms : Conforms r s fits underlying inner) :
      Conforms r s fits (.defined name underlying) (.typed keyword inner)
  | defined {name : Text} {underlying : TypeDef} {p : Parameter}
      (hbare : p.keyword? ≠ some name.upper) (hconforms : Conforms r s fits underlying p) :
      Conforms r s fits (.defined name underlying) p
  | simple {type : SimpleType} {p : Parameter} (htakes : type.Takes s fits p) :
      Conforms r s fits (.simple type) p
  | item {name item : Text} {items : List Text}
      (hitem : (∃ declared ∈ items, declared.upper = item.upper) ∨ s.strictEnumerations = false) :
      Conforms r s fits (.enumeration name items) (.enumeration item)
  | entity (e : EntityType) (id : Int) : Conforms r s fits (.entity e) (.reference id)
  | member (name : Text) (options : List Text) (id : Int) :
      Conforms r s fits (.select name options) (.reference id)
  /-- a value of an option that is no entity type, in a wrapper of its name -/
  | option {name keyword : Text} {options : List Text} {option : TypeDef} {inner : Parameter}
      (hoffers : r.OffersPast name options option) (hkey : option.key = keyword.upper)
      (hentity : option.isEntity = false) (hconforms : Conforms r s fits option inner) :
      Conforms r s fits (.select name options) (.typed keyword inner)
  | list {name : Text} {element : TypeDef} {kind : AggregateKind} {lower : Int}
      {upper : Option Int} {items : List Parameter} (hlower : lower ≤ items.length)
      (hupper : ∀ greatest, upper = some greatest → (items.length : Int) ≤ greatest)
      (hitems : ∀ p ∈ items, Conforms r s fits element p) :
      Conforms r s fits (.aggregate name element kind lower upper) (.list items)

/-- A parameter is right in the place of an attribute. -/
inductive Parameter.Fits (r : Registry) (s : Settings) (fits : Int → Prop) :
    Attribute → Parameter → Prop
  | derived {a : Attribute} (hderived : a.derived = true) : Fits r s fits a .inapplicable
  | unset {a : Attribute} (hderived : a.derived = false) (hoptional : a.optional = true) :
      Fits r s fits a .unset
  | given {a : Attribute} {p : Parameter} (hderived : a.derived = false)
      (hconforms : p.Conforms r s fits a.type) : Fits r s fits a p

/-- An integer inside the parameter has no finite real next to it. -/
inductive Parameter.HasLarge : Parameter → Prop
  | integer {n : Int} (hfar : ¬ Binary64.IsNear n) : HasLarge (.integer n)
  | typed {keyword : Text} {inner : Parameter} (hlarge : HasLarge inner) :
      HasLarge (.typed keyword inner)
  | list {items : List Parameter} {p : Parameter} (hmem : p ∈ items) (hlarge : HasLarge p) :
      HasLarge (.list items)

namespace Parameter

variable {r : Registry} {s : Settings} {fits : Int → Prop} {t underlying : TypeDef}
  {p inner : Parameter} {name keyword : Text}

theorem conforms_ref_iff (hfind : r.find? name = some t) :
    p.Conforms r s fits (.ref name) ↔ p.Conforms r s fits t := by
  refine ⟨fun h => ?_, .ref hfind⟩
  cases h with
  | ref hother hconforms => exact Option.some.inj (hother.symm.trans hfind) ▸ hconforms

theorem conforms_defined_iff (hbare : p.keyword? ≠ some name.upper) :
    p.Conforms r s fits (.defined name underlying) ↔ p.Conforms r s fits underlying := by
  refine ⟨fun h => ?_, .defined hbare⟩
  cases h with
  | wrapped hkeyword _ => exact absurd (congrArg some hkeyword) hbare
  | defined _ hconforms => exact hconforms

theorem conforms_wrapped_iff (hkeyword : keyword.upper = name.upper) :
    (typed keyword inner).Conforms r s fits (.defined name underlying) ↔
      inner.Conforms r s fits underlying := by
  refine ⟨fun h => ?_, .wrapped hkeyword⟩
  cases h with
  | wrapped _ hconforms => exact hconforms
  | defined hbare _ => exact absurd (congrArg some hkeyword) hbare

theorem conforms_select_iff {options : List Text} :
    (typed keyword inner).Conforms r s fits (.select name options) ↔
      ∃ option, r.selectOption ⟨name, options⟩ keyword = some option ∧
        inner.Conforms r s fits option := by
  simp only [Registry.selectOption_eq_some_iff]
  refine ⟨fun h => ?_, ?_⟩
  · cases h with
    | option hoffers hkey hentity hconforms => exact ⟨_, ⟨hoffers, hkey, hentity⟩, hconforms⟩
  · rintro ⟨option, ⟨hoffers, hkey, hentity⟩, hconforms⟩
    exact .option hoffers hkey hentity hconforms

theorem conforms_list_iff {element : TypeDef} {kind : AggregateKind} {lower : Int}
    {upper : Option Int} {items : List Parameter} :
    (list items).Conforms r s fits (.aggregate name element kind lower upper) ↔
      Held.withinBounds lower upper items.length = true ∧
        ∀ p ∈ items, p.Conforms r s fits element := by
  have hbounds : Held.withinBounds lower upper items.length = true ↔ lower ≤ items.length ∧
      ∀ greatest, upper = some greatest → (items.length : Int) ≤ greatest := by
    simp [Held.withinBounds, Option.all_eq_true]
  rw [hbounds]
  refine ⟨fun h => ?_, ?_⟩
  · cases h with
    | list hlower hupper hitems => exact ⟨⟨hlower, hupper⟩, hitems⟩
  · rintro ⟨⟨hlower, hupper⟩, hitems⟩
    exact .list hlower hupper hitems

/-- What is left out conforms to no type. -/
theorem Conforms.isGiven (h : p.Conforms r s fits t) : p ≠ .unset ∧ p ≠ .inapplicable := by
  induction h with
  | ref _ _ ih => exact ih
  | defined _ _ ih => exact ih
  | simple htakes => cases htakes <;> exact ⟨nofun, nofun⟩
  | _ => exact ⟨nofun, nofun⟩

end Parameter

/-! ## Ways to what a type stands for -/

/-- Where the way from a type leads, a parameter conforms exactly if it does at the start, or
what is inside it if the way ends at the wrapper of its name. -/
inductive Parameter.Arrives (r : Registry) (s : Settings) (t : TypeDef) : Parameter → Ground → Prop
  | type {p : Parameter} {u : TypeDef} (hground : u.isGround = true)
      (hsame : ∀ fits, p.Conforms r s fits t ↔ p.Conforms r s fits u) : Arrives r s t p (.type u)
  | wrapper {keyword : Text} {inner : Parameter} {underlying : TypeDef}
      (hsame : ∀ fits, (typed keyword inner).Conforms r s fits t ↔
        inner.Conforms r s fits underlying) :
      Arrives r s t (.typed keyword inner) (.wrapper underlying)

namespace Parameter

variable {r : Registry} {s : Settings} {p : Parameter} {ground : Ground}

theorem Arrives.of_same {t u : TypeDef} (h : Arrives r s u p ground)
    (hsame : ∀ fits, p.Conforms r s fits t ↔ p.Conforms r s fits u) : Arrives r s t p ground := by
  cases h with
  | type hground hon => exact .type hground fun fits => (hsame fits).trans (hon fits)
  | wrapper hon => exact .wrapper fun fits => (hsame fits).trans (hon fits)

theorem arrives_of_groundThrough {follow : Text → Except Failure Ground}
    (hfollow : ∀ name ground, follow name = .ok ground → Arrives r s (.ref name) p ground)
    {t : TypeDef} {ground : Ground} (h : Registry.groundThrough p.keyword? follow t = .ok ground) :
    Arrives r s t p ground := by
  match t with
  | .ref name => exact hfollow name ground h
  | .defined name underlying =>
    rw [Registry.groundThrough] at h
    split at h
    · rename_i hkeyword
      cases h
      cases p with
      | typed keyword inner =>
        exact .wrapper fun fits => conforms_wrapped_iff (Option.some.inj hkeyword)
      | _ => cases hkeyword
    · rename_i hbare
      exact (arrives_of_groundThrough hfollow h).of_same fun fits => conforms_defined_iff hbare
  | .plain _ | .simple _ | .enumeration _ _ | .select _ _ | .aggregate _ _ _ _ _ | .entity _ =>
    cases h
    exact .type rfl fun _ => Iff.rfl

theorem arrives_of_groundWithin {references : Nat} {t : TypeDef}
    (h : r.groundWithin p.keyword? references t = .ok ground) : Arrives r s t p ground := by
  induction references generalizing t ground with
  | zero => exact arrives_of_groundThrough (fun _ _ hnone => by cases hnone) h
  | succ references ih =>
    refine arrives_of_groundThrough (fun name own hown => ?_) h
    split at hown
    · rename_i next hfind
      exact (ih hown).of_same fun fits => conforms_ref_iff hfind
    · cases hown

end Parameter

/-! ## Decisions -/

/-- A parameter of a record is wrong for its place, or there are too many or too few. -/
def Reason.isRefusal : Reason → Bool
  | arity _ _ _ => true
  | mismatch _ _ _ => true
  | unset _ => true
  | inapplicable _ => true
  | _ => false

namespace Held

/-- A conversion gives a value exactly if what is converted conforms, where the integers among the
reals have a finite real next to them.  It is too large only if there is an integer that has none,
and it is refused only if it does not conform even with all integers among the reals. -/
structure Decides {α : Type} (large : Prop) (conforms : (Int → Prop) → Prop)
    (outcome : Except Thrown α) : Prop where
  accepts : (∃ value, outcome = .ok value) ↔ conforms Binary64.IsNear
  refuses : ∀ thrown, outcome = .error thrown → thrown = .failure .tooLarge ∧ large ∨
    (∃ reason, thrown = .reason reason ∧ reason.isRefusal = true) ∧ ¬ conforms fun _ => True

namespace Decides

variable {α β : Type} {large more : Prop} {conforms others : (Int → Prop) → Prop}
  {outcome : Except Thrown α}

theorem ok {value : α} (h : conforms Binary64.IsNear) : Decides large conforms (.ok value) where
  accepts := iff_of_true ⟨value, rfl⟩ h
  refuses thrown hthrown := by cases hthrown

theorem tooLarge (h : ¬ conforms Binary64.IsNear) (hlarge : large) :
    Decides large conforms (.error (.failure .tooLarge) : Except Thrown α) where
  accepts := iff_of_false nofun h
  refuses _ hthrown := .inl ⟨(Except.error.inj hthrown).symm, hlarge⟩

theorem refused {reason : Reason} (h : ∀ fits, ¬ conforms fits) (hreason : reason.isRefusal = true) :
    Decides large conforms (.error (.reason reason) : Except Thrown α) where
  accepts := iff_of_false nofun (h _)
  refuses _ hthrown := .inr ⟨⟨reason, (Except.error.inj hthrown).symm, hreason⟩, h _⟩

theorem congr (h : Decides large others outcome) (hsame : ∀ fits, conforms fits ↔ others fits) :
    Decides large conforms outcome where
  accepts := h.accepts.trans (hsame _).symm
  refuses thrown hthrown := (h.refuses thrown hthrown).imp_right (And.imp_right (mt (hsame _).mp))

/-- An error at one place is the error of the whole. -/
theorem stop {thrown : Thrown} (h : Decides large conforms (.error thrown : Except Thrown α))
    (hlarge : large → more) (himp : ∀ fits, others fits → conforms fits) :
    Decides more others (.error thrown : Except Thrown β) where
  accepts := by
    refine iff_of_false nofun fun hothers => ?_
    obtain ⟨value, hvalue⟩ := h.accepts.mpr (himp _ hothers)
    cases hvalue
  refuses own hown := by
    cases hown
    exact (h.refuses thrown rfl).imp (And.imp_right hlarge) (And.imp_right (mt (himp _)))

theorem map (h : Decides large conforms outcome) (f : α → β) (hlarge : large → more) :
    Decides more conforms (outcome.map f) := by
  cases outcome with
  | ok value => exact .ok (h.accepts.mp ⟨value, rfl⟩)
  | error thrown => exact h.stop hlarge fun _ hconforms => hconforms

theorem mono (h : Decides large conforms outcome) (hlarge : large → more) :
    Decides more conforms outcome where
  accepts := h.accepts
  refuses thrown hthrown := (h.refuses thrown hthrown).imp_left (And.imp_right hlarge)

/-- One conversion and then the other decide whether both conform. -/
theorem bind {γ : Type} {both : Prop} {whole : (Int → Prop) → Prop} {first : Except Thrown α}
    {rest : Except Thrown β} (hfirst : Decides large conforms first)
    (hrest : Decides more others rest) (hlarge : large ∨ more → both)
    (hwhole : ∀ fits, whole fits ↔ conforms fits ∧ others fits) (join : α → β → γ) :
    Decides both whole (first.bind fun value => rest.map (join value)) := by
  cases first with
  | error thrown =>
    exact hfirst.stop (fun h => hlarge (.inl h)) fun fits h => ((hwhole fits).mp h).1
  | ok value =>
    cases rest with
    | error thrown =>
      exact hrest.stop (fun h => hlarge (.inr h)) fun fits h => ((hwhole fits).mp h).2
    | ok other =>
      exact .ok ((hwhole _).mpr ⟨hfirst.accepts.mp ⟨value, rfl⟩, hrest.accepts.mp ⟨other, rfl⟩⟩)

end Decides

variable {r : Registry} {s : Settings} {place : Text}

/-! ## Types that are not defined as others -/

theorem decides_simple (type : SimpleType) (p : Parameter) :
    Decides p.HasLarge (fun fits => type.Takes s fits p) (simple s place type p) := by
  unfold simple mismatch
  split
  · exact .ok (.integer _)
  · exact .ok (.real _)
  · rename_i n
    split
    · rename_i haccept
      cases hreal : Binary64.ofInt? n with
      | some x =>
        have hnear : Binary64.IsNear n := by
          by_contra hfar
          rw [Binary64.ofInt?_eq_none.mpr hfar] at hreal
          cases hreal
        exact .ok (.realInteger haccept hnear)
      | none =>
        have hfar : ¬ Binary64.IsNear n := Binary64.ofInt?_eq_none.mp hreal
        refine .tooLarge (fun htakes => ?_) (.integer hfar)
        cases htakes with
        | realInteger _ hnear => exact hfar hnear
    · rename_i hreject
      refine .refused (fun fits htakes => ?_) rfl
      cases htakes with
      | realInteger haccept _ => exact hreject haccept
  · exact .ok (.numberInteger _)
  · exact .ok (.numberReal _)
  · exact .ok (.string _)
  · split
    · rename_i htrue
      exact .ok (.boolean (.inl htrue))
    · split
      · rename_i hfalse
        exact .ok (.boolean (.inr hfalse))
      · rename_i htrue hfalse
        refine .refused (fun fits htakes => ?_) rfl
        cases htakes with
        | boolean hitem => exact hitem.elim htrue hfalse
  · split
    · rename_i htrue
      exact .ok (.logical (.inl htrue))
    · split
      · rename_i hfalse
        exact .ok (.logical (.inr (.inl hfalse)))
      · split
        · rename_i hunknown
          exact .ok (.logical (.inr (.inr hunknown)))
        · rename_i htrue hfalse hunknown
          refine .refused (fun fits htakes => ?_) rfl
          cases htakes with
          | logical hitem => exact hitem.elim htrue fun hitem => hitem.elim hfalse hunknown
  · exact .ok (.binary _ _)
  · -- No kind of parameter is left that the type takes.
    refine .refused (fun fits htakes => ?_) rfl
    cases htakes <;> simp_all

theorem item?_isSome_iff {items : List Text} {item : Text} :
    (∃ declared, TypeDef.item? items item = some declared) ↔
      ∃ declared ∈ items, declared.upper = item.upper := by
  rw [← Option.isSome_iff_exists, TypeDef.item?, List.find?_isSome]
  simp

theorem decides_item (name : Text) (items : List Text) (p : Parameter) :
    Decides p.HasLarge (fun fits => p.Conforms r s fits (.enumeration name items))
      (item s place name items p) := by
  unfold item mismatch
  split
  · rename_i spelled
    split
    · rename_i declared hdeclared
      exact .ok (.item (.inl (item?_isSome_iff.mp ⟨declared, hdeclared⟩)))
    · rename_i hnone
      split
      · rename_i hstrict
        refine .refused (fun fits hconforms => ?_) rfl
        cases hconforms with
        | item hitem =>
          rcases hitem with hdeclared | hlax
          · obtain ⟨declared, hsome⟩ := item?_isSome_iff.mpr hdeclared
            rw [hnone] at hsome
            cases hsome
          · rw [hstrict] at hlax
            cases hlax
      · rename_i hlax
        exact .ok (.item (.inr (Bool.eq_false_iff.mpr hlax)))
  · rename_i hother
    refine .refused (fun fits hconforms => ?_) rfl
    cases hconforms with
    | item _ => exact hother _ rfl

theorem decides_whole {t : TypeDef} {p : Parameter} (hground : t.isGround = true)
    (hselect : ∀ name options keyword inner, t = .select name options → p ≠ .typed keyword inner)
    (haggregate : ∀ name element kind lower upper items,
      t = .aggregate name element kind lower upper → p ≠ .list items) :
    Decides p.HasLarge (fun fits => p.Conforms r s fits t) (whole s place t p) := by
  unfold whole mismatch
  split
  · rename_i type
    refine ((decides_simple type p).map Held.value id).congr fun fits => ⟨fun h => ?_, .simple⟩
    cases h with
    | simple htakes => exact htakes
  · exact (decides_item _ _ p).map Held.value id
  · split
    · exact .ok (.entity _ _)
    · rename_i hother
      refine .refused (fun fits hconforms => ?_) rfl
      cases hconforms with
      | entity => exact hother _ rfl
  · split
    · exact .ok (.member _ _ _)
    · rename_i hother
      refine .refused (fun fits hconforms => ?_) rfl
      cases hconforms with
      | member => exact hother _ rfl
      | option => exact hselect _ _ _ _ rfl rfl
  · refine .refused (fun fits hconforms => ?_) rfl
    cases hconforms with
    | ref | wrapped | defined => cases hground
    | list => exact haggregate _ _ _ _ _ _ rfl rfl
    | _ => simp_all

/-! ## Conversions -/

theorem ground_ne_error (hgrounded : r.Grounded) {t : TypeDef} (ht : r.Known t)
    {sought : Option Text} {failure : Failure} : r.ground sought t ≠ .error failure := by
  intro herror
  obtain ⟨ground, hground⟩ := (hgrounded.leads ht).groundWithin sought
  cases hground.symm.trans herror

theorem ofParameters_cons (element : TypeDef) (p : Parameter) (rest : List Parameter) :
    ofParameters r s place element (p :: rest) =
      (ofParameter r s place element p).bind fun first =>
        (ofParameters r s place element rest).map (first :: ·) := by
  rw [ofParameters]
  cases ofParameter r s place element p with
  | error thrown => rfl
  | ok first => cases ofParameters r s place element rest <;> rfl

/-- A typed parameter is taken apart at the wrapper of a defined type and at a select. -/
theorem decides_typed (hgrounded : r.Grounded) {t : TypeDef} (ht : r.Known t) (keyword : Text)
    {inner : Parameter} (hinner : ∀ u, r.Known u →
      Decides inner.HasLarge (fun fits => inner.Conforms r s fits u) (ofParameter r s place u inner)) :
    Decides (Parameter.typed keyword inner).HasLarge
      (fun fits => (Parameter.typed keyword inner).Conforms r s fits t)
      (ofParameter r s place t (.typed keyword inner)) := by
  have harrives : ∀ {ground}, r.ground (some keyword.upper) t = .ok ground →
      (Parameter.typed keyword inner).Arrives r s t ground :=
    fun hground => Parameter.arrives_of_groundWithin hground
  rw [ofParameter]
  split
  · rename_i hground
    exact absurd hground (ground_ne_error hgrounded ht)
  · rename_i underlying hground
    have hknown := hgrounded.known_of_standsFor ht (Registry.standsFor_of_ground hground)
    cases harrives hground with
    | wrapper hsame => exact ((hinner underlying hknown).congr hsame).mono .typed
  · rename_i name options hground
    cases harrives hground with
    | type _ hsame =>
      split
      · rename_i hnone
        refine .refused (fun fits hconforms => ?_) rfl
        obtain ⟨option, hsome, _⟩ := Parameter.conforms_select_iff.mp ((hsame fits).mp hconforms)
        rw [hnone] at hsome
        cases hsome
      · rename_i option hoption
        have hfind := (Registry.offers_of_selectOption hoption).1.find?
        refine ((hinner option (hgrounded.known_of_find? hfind)).map
          (Held.typed option.key) .typed).congr fun fits => ?_
        rw [hsame, Parameter.conforms_select_iff, hoption]
        simp
  · rename_i hselect hground
    cases harrives hground with
    | type hu hsame =>
      refine (decides_whole hu (fun name options _ _ hu => ?_) (by simp)).congr hsame
      exact absurd hu (hselect name options)

/-- A list is taken apart at an aggregate. -/
theorem decides_list (hgrounded : r.Grounded) {t : TypeDef} (ht : r.Known t) {items : List Parameter}
    (hitems : ∀ element, r.Known element →
      Decides (∃ p ∈ items, p.HasLarge) (fun fits => ∀ p ∈ items, p.Conforms r s fits element)
        (ofParameters r s place element items)) :
    Decides (Parameter.list items).HasLarge (fun fits => (Parameter.list items).Conforms r s fits t)
      (ofParameter r s place t (.list items)) := by
  have harrives : ∀ {ground}, r.ground none t = .ok ground →
      (Parameter.list items).Arrives r s t ground :=
    fun hground => Parameter.arrives_of_groundWithin hground
  rw [ofParameter]
  split
  · rename_i hground
    exact absurd hground (ground_ne_error hgrounded ht)
  · rename_i name element kind lower upper hground
    have hknown := hgrounded.known_element ht (Registry.standsFor_of_ground hground)
    cases harrives hground with
    | type _ hsame =>
      split
      · rename_i hbounds
        have hlist : (∃ p ∈ items, p.HasLarge) → (Parameter.list items).HasLarge := by
          rintro ⟨p, hmem, hlarge⟩
          exact .list hmem hlarge
        refine ((hitems element hknown).map Held.list hlist).congr fun fits => ?_
        rw [hsame, Parameter.conforms_list_iff, and_iff_right hbounds]
      · rename_i hbounds
        refine .refused (fun fits hconforms => ?_) rfl
        exact hbounds (Parameter.conforms_list_iff.mp ((hsame fits).mp hconforms)).1
  · rename_i haggregate hground
    cases harrives hground with
    | type hu hsame =>
      refine (decides_whole hu (by simp) fun name element kind lower upper _ hu => ?_).congr hsame
      exact absurd hu (haggregate name element kind lower upper)
  · rename_i hground
    cases harrives hground

mutual

/-- A conversion of a parameter decides whether it conforms. -/
theorem decides_ofParameter (hgrounded : r.Grounded) {t : TypeDef} (ht : r.Known t) (p : Parameter) :
    Decides p.HasLarge (fun fits => p.Conforms r s fits t) (ofParameter r s place t p) := by
  have harrives : ∀ {ground}, r.ground p.keyword? t = .ok ground → p.Arrives r s t ground :=
    fun hground => Parameter.arrives_of_groundWithin hground
  match p with
  | .typed keyword inner =>
    exact decides_typed hgrounded ht keyword fun u hu => decides_ofParameter hgrounded hu inner
  | .list items =>
    exact decides_list hgrounded ht fun element hknown => decides_ofParameters hgrounded hknown items
  | .integer _ | .real _ | .string _ | .enumeration _ | .binary _ _ | .reference _ | .unset
  | .inapplicable =>
    rw [ofParameter]
    · split
      · rename_i hground
        exact absurd hground (ground_ne_error hgrounded ht)
      · rename_i hground
        cases harrives hground with
        | type hu hsame => exact (decides_whole hu (by simp) (by simp)).congr hsame
      · rename_i hground
        cases harrives hground
    · nofun
    · nofun

/-- A conversion of the elements of an aggregate decides whether all of them conform. -/
theorem decides_ofParameters (hgrounded : r.Grounded) {element : TypeDef} (ht : r.Known element)
    (items : List Parameter) :
    Decides (∃ p ∈ items, p.HasLarge) (fun fits => ∀ p ∈ items, p.Conforms r s fits element)
      (ofParameters r s place element items) := by
  match items with
  | [] =>
    rw [ofParameters]
    exact .ok nofun
  | p :: rest =>
    rw [ofParameters_cons]
    exact (decides_ofParameter hgrounded ht p).bind (decides_ofParameters hgrounded ht rest)
      (List.exists_mem_cons_iff _ _ _).mpr (fun fits => List.forall_mem_cons) _

end

/-! ## Attributes -/

theorem decides_ofSlot (hgrounded : r.Grounded) {a : Attribute} (ha : r.Known a.type) (p : Parameter) :
    Decides p.HasLarge (fun fits => p.Fits r s fits a) (ofSlot r s a p) := by
  unfold ofSlot mismatch
  split
  · split
    · rename_i hderived
      exact .ok (.derived hderived)
    · rename_i hderived
      refine .refused (fun fits hfits => ?_) rfl
      cases hfits with
      | derived hother => exact hderived hother
      | given _ hconforms => exact hconforms.isGiven.2 rfl
  · rename_i hgiven
    split
    · rename_i hderived
      refine .refused (fun fits hfits => ?_) rfl
      cases hfits with
      | derived => exact hgiven rfl
      | unset hother _ => exact absurd (hderived.symm.trans hother) nofun
      | given hother _ => exact absurd (hderived.symm.trans hother) nofun
    · rename_i hderived
      split
      · split
        · rename_i hoptional
          exact .ok (.unset (Bool.eq_false_iff.mpr hderived) hoptional)
        · rename_i hneeded
          refine .refused (fun fits hfits => ?_) rfl
          cases hfits with
          | unset _ hoptional => exact hneeded hoptional
          | given _ hconforms => exact hconforms.isGiven.1 rfl
      · rename_i hset
        refine (decides_ofParameter hgrounded ha p).congr fun fits => ⟨fun hfits => ?_, ?_⟩
        · cases hfits with
          | derived => exact absurd rfl hgiven
          | unset => exact absurd rfl hset
          | given _ hconforms => exact hconforms
        · exact .given (Bool.eq_false_iff.mpr hderived)

theorem ofSlots_cons (a : Attribute) (attributes : List Attribute) (p : Parameter)
    (rest : List Parameter) : ofSlots r s (a :: attributes) (p :: rest) =
      (ofSlot r s a p).bind fun held => (ofSlots r s attributes rest).map ((a, held) :: ·) := by
  rw [ofSlots]
  cases ofSlot r s a p with
  | error thrown => rfl
  | ok held => cases ofSlots r s attributes rest <;> rfl

theorem decides_ofSlots (hgrounded : r.Grounded) {attributes : List Attribute}
    (hknown : ∀ a ∈ attributes, r.Known a.type) {parameters : List Parameter}
    (hlength : parameters.length = attributes.length) :
    Decides (∃ p ∈ parameters, p.HasLarge)
      (fun fits => List.Forall₂ (Parameter.Fits r s fits) attributes parameters)
      (ofSlots r s attributes parameters) := by
  induction attributes generalizing parameters with
  | nil =>
    rw [List.length_eq_zero_iff.mp hlength, ofSlots_nil_left]
    exact .ok .nil
  | cons a attributes ih =>
    cases parameters with
    | nil => cases hlength
    | cons p rest =>
      obtain ⟨ha, hothers⟩ := List.forall_mem_cons.mp hknown
      rw [ofSlots_cons]
      exact (decides_ofSlot hgrounded ha p).bind (ih hothers (Nat.succ.inj hlength))
        (List.exists_mem_cons_iff _ _ _).mpr (fun fits => List.forall₂_cons) _

theorem decides_ofGroup (hgrounded : r.Grounded) {attributes : List Attribute}
    (hknown : ∀ a ∈ attributes, r.Known a.type) (typeName : Text) (parameters : List Parameter) :
    Decides (∃ p ∈ parameters, p.HasLarge)
      (fun fits => List.Forall₂ (Parameter.Fits r s fits) attributes parameters)
      (ofGroup r s typeName attributes parameters) := by
  unfold ofGroup
  split
  · rename_i hlength
    exact decides_ofSlots hgrounded hknown hlength
  · rename_i hlength
    exact .refused (fun fits hall => hlength hall.length_eq.symm) rfl

end Held

/-! ## Records -/

namespace Registry

variable {r : Registry} {e : EntityType}

theorem Grounded.known_declared (h : r.Grounded) (he : r.IsRegistered e) {among : List EntityType}
    {a : Attribute} (ha : a ∈ declaredAttributes among e) : r.Known a.type := by
  obtain ⟨own, hown, rfl⟩ := List.mem_map.mp ha
  show r.Known own.type
  exact h.known_attribute he hown

/-- The types of all attributes of an entity type are known. -/
theorem Grounded.attributesOf (h : r.Grounded) (he : r.IsRegistered e) (hfounded : r.Founded e) :
    ∃ attributes, r.attributesOf e = .ok attributes ∧ ∀ a ∈ attributes, r.Known a.type := by
  obtain ⟨chain, hchain, hsettled, _⟩ := linearization_of_rooted he ((rooted_iff he).mpr hfounded)
  refine ⟨chain.flatMap (declaredAttributes chain), ?_, fun a ha => ?_⟩
  · rw [Registry.attributesOf, hchain]
  · obtain ⟨f, hf, hdeclared⟩ := List.mem_flatMap.mp ha
    exact h.known_declared (hsettled.registered f hf) hdeclared

theorem Grounded.ownAttributes (h : r.Grounded) {others : List EntityType}
    (hfounded : ∀ f ∈ e :: others, r.IsRegistered f ∧ r.Founded f) :
    ∃ attributes, r.ownAttributes e others = .ok attributes ∧ ∀ a ∈ attributes, r.Known a.type := by
  have hlisted : r.Listed (e :: others) := fun f hf =>
    ⟨(hfounded f hf).1, (rooted_iff (hfounded f hf).1).mpr (hfounded f hf).2⟩
  obtain ⟨all, hall, _⟩ := linearizations_of_listed hlisted
  refine ⟨declaredAttributes all e, ?_, fun a ha => ?_⟩
  · rw [Registry.ownAttributes, hall]
  · exact h.known_declared (hfounded e List.mem_cons_self).1 ha

end Registry

namespace Site

variable {site : Site} {e : EntityType}

/-- The parameters of a record are held exactly if there is one for each attribute and each fits.
So are those of a part of a complex record, against the attributes that the part declares itself. -/
theorem decides_hold (hgrounded : site.registry.Grounded) (he : site.registry.IsRegistered e)
    (hfounded : site.registry.Founded e) (parameters : List Parameter) :
    (∃ attributes, site.registry.attributesOf e = .ok attributes ∧
      Held.Decides (∃ p ∈ parameters, p.HasLarge)
        (fun fits => List.Forall₂ (Parameter.Fits site.registry site.settings fits)
          attributes parameters)
        (site.hold e parameters)) ∧
    ∀ others, (∀ f ∈ others, site.registry.IsRegistered f ∧ site.registry.Founded f) →
      ∃ attributes, site.registry.ownAttributes e others = .ok attributes ∧
        Held.Decides (∃ p ∈ parameters, p.HasLarge)
          (fun fits => List.Forall₂ (Parameter.Fits site.registry site.settings fits)
            attributes parameters)
          (site.holdPart e others parameters) := by
  constructor
  · obtain ⟨attributes, hattributes, hknown⟩ := hgrounded.attributesOf he hfounded
    refine ⟨attributes, hattributes, ?_⟩
    rw [hold, hattributes]
    exact Held.decides_ofGroup hgrounded hknown _ parameters
  · intro others hothers
    obtain ⟨attributes, hattributes, hknown⟩ :=
      hgrounded.ownAttributes (List.forall_mem_cons.mpr ⟨⟨he, hfounded⟩, hothers⟩)
    refine ⟨attributes, hattributes, ?_⟩
    rw [holdPart, hattributes]
    exact Held.decides_ofGroup hgrounded hknown _ parameters

end Site

/-! ## A sample -/

namespace Sample

/-- A type with a real and, if it likes, a mark.  The select of the mark is written out and has the
name of a registered one. -/
def gauge : EntityType :=
  ⟨"GAUGE", [⟨"reading", .simple .real, false, false⟩,
    ⟨"mark", .select "CHOICE" ["INNER", "NAME"], true, false⟩], [], false, []⟩

/-- A registry of gauges, in which a select leads on to the other one. -/
def gauges : Registry :=
  [TypeDef.defined "LABEL" (.simple .string), .defined "NAME" (.simple .string),
    .select "CHOICE" ["LABEL"], .select "INNER" ["CHOICE"], .entity gauge].foldl
    (fun r t => (r.register t false).toOption.getD r) (.initial "gauges")

/-- The site of a gauge. -/
def gaugeSite : Site := ⟨1, 1, [], gauges, .default⟩

theorem grounded_gauges : gauges.Grounded where
  known := by decide
  acyclic entry hentry := by
    have hvalid : gauges.validate = .ok () := rfl
    exact Registry.not_circle_of_checkRegistered
      (Registry.checkRegistered_of_checkAll hvalid entry hentry)

end Sample

namespace Site

theorem decides_hold_gauges :
    Sample.gauges.Grounded ∧ Sample.gauges.IsRegistered Sample.gauge ∧
      Sample.gauges.Founded Sample.gauge ∧
      (∃ slots, Sample.gaugeSite.hold Sample.gauge
        [.integer 7, .typed "name" (.typed "Name" (.string "a"))] = .ok slots) ∧
      ¬ ∃ slots, Sample.gaugeSite.hold Sample.gauge [.integer 7, .integer 3] = .ok slots := by
  have he : Sample.gauges.IsRegistered Sample.gauge := ⟨"gauge", rfl⟩
  have hfounded : Sample.gauges.Founded Sample.gauge := by
    obtain ⟨chain, hchain⟩ : ∃ chain, Sample.gauges.linearization Sample.gauge = .ok chain := ⟨_, rfl⟩
    exact (Registry.rooted_of_linearization hchain).founded
  have hattributes : Sample.gauges.attributesOf Sample.gauge = .ok Sample.gauge.attributes := rfl
  refine ⟨Sample.grounded_gauges, he, hfounded, ?_, ?_⟩
  · obtain ⟨⟨attributes, hown, hdecides⟩, -⟩ := @decides_hold Sample.gaugeSite _
      Sample.grounded_gauges he hfounded [.integer 7, .typed "name" (.typed "Name" (.string "a"))]
    obtain rfl := Except.ok.inj (hattributes.symm.trans hown)
    refine hdecides.accepts.mpr (.cons (.given rfl ?_) (.cons (.given rfl ?_) .nil))
    · exact .simple (.realInteger rfl (Binary64.isNear_of_lt (by decide)))
    · have hfind : Sample.gauges.find? "NAME" = some (.defined "NAME" (.simple .string)) := rfl
      exact .option (.here (by simp) hfind) rfl rfl (.wrapped rfl (.simple (.string _)))
  · obtain ⟨⟨attributes, hown, hdecides⟩, -⟩ := @decides_hold Sample.gaugeSite _
      Sample.grounded_gauges he hfounded [.integer 7, .integer 3]
    obtain rfl := Except.ok.inj (hattributes.symm.trans hown)
    intro hheld
    obtain ⟨-, hrest⟩ := List.forall₂_cons.mp (hdecides.accepts.mp hheld)
    obtain ⟨hmark, -⟩ := List.forall₂_cons.mp hrest
    cases hmark with
    | given _ hconforms => cases hconforms

/-- A reading that is too large conforms, as long as all integers are taken for reals. -/
theorem hold_gauge_of_far {n : Int} (hfar : ¬ Binary64.IsNear n) :
    List.Forall₂ (Parameter.Fits Sample.gauges .default fun _ => True) Sample.gauge.attributes
        [.integer n, .unset] ∧
      Sample.gaugeSite.hold Sample.gauge [.integer n, .unset] = .error (.failure .tooLarge) := by
  have hloose : List.Forall₂ (Parameter.Fits Sample.gauges .default fun _ => True)
      Sample.gauge.attributes [.integer n, .unset] :=
    .cons (.given rfl (.simple (.realInteger rfl trivial))) (.cons (.unset rfl rfl) .nil)
  have hgroup : Sample.gaugeSite.hold Sample.gauge [.integer n, .unset] =
      Held.ofGroup Sample.gauges .default "GAUGE" Sample.gauge.attributes [.integer n, .unset] := rfl
  have hdecides := Held.decides_ofGroup (s := .default) Sample.grounded_gauges
    (fun a ha => Sample.grounded_gauges.known_attribute ⟨"gauge", rfl⟩ ha) "GAUGE" [.integer n, .unset]
  refine ⟨hloose, ?_⟩
  rw [← hgroup] at hdecides
  cases houtcome : Sample.gaugeSite.hold Sample.gauge [.integer n, .unset] with
  | error thrown => rw [((hdecides.refuses thrown houtcome).resolve_right fun h => h.2 hloose).1]
  | ok slots =>
    obtain ⟨hreading, -⟩ := List.forall₂_cons.mp (hdecides.accepts.mp ⟨slots, houtcome⟩)
    cases hreading with
    | given _ hconforms =>
      cases hconforms with
      | simple htakes =>
        cases htakes with
        | realInteger _ hnear => exact absurd hnear hfar

/-- A record is not held though it seems to conform: an integer is too large for a real, or an
option is reached only through another select of the same name. -/
theorem not_hold_of_conforming :
    (List.Forall₂ (Parameter.Fits Sample.gauges .default fun _ => True) Sample.gauge.attributes
        [.integer (2 ^ 1024), .unset] ∧
      Sample.gaugeSite.hold Sample.gauge [.integer (2 ^ 1024), .unset] = .error (.failure .tooLarge)) ∧
    (Sample.gauges.Offers ["INNER", "NAME"] (.defined "LABEL" (.simple .string)) ∧
      (Parameter.string "a").Conforms Sample.gauges .default Binary64.IsNear
        (.defined "LABEL" (.simple .string)) ∧
      Sample.gaugeSite.hold Sample.gauge [.real .zero, .typed "LABEL" (.string "a")] =
        .error (.reason (.mismatch (some "mark") "a type selectable by CHOICE" "LABEL"))) := by
  refine ⟨hold_gauge_of_far Binary64.not_isNear_two_pow, ?_, ?_, rfl⟩
  · have hinner : Sample.gauges.find? "INNER" = some (.select "INNER" ["CHOICE"]) := rfl
    have hchoice : Sample.gauges.find? "CHOICE" = some (.select "CHOICE" ["LABEL"]) := rfl
    have hlabel : Sample.gauges.find? "LABEL" = some (.defined "LABEL" (.simple .string)) := rfl
    exact .inside (by simp) hinner (.inside (by simp) hchoice (.here (by simp) hlabel))
  · exact .defined nofun (.simple (.string _))

end Site

end Part21
