import Mathlib.Logic.Relation
import Part21.Proofs.Schema.Ancestry
import Part21.Schema.Selection

set_option autoImplicit false

/-!
# Options

A type stands for another one if references and defined types lead there.  A select offers the
types of its options and what the selects among them offer, and through them it offers
entity types.

What a registry answers to questions about a select is offered by it:
`Registry.offers_of_selectOption` and `Registry.offersEntity_of_selectEntities`.
-/

namespace Part21

/-- The type is neither a reference nor a defined type. -/
def TypeDef.isGround : TypeDef → Bool
  | ref _ => false
  | defined _ _ => false
  | _ => true

namespace Registry

variable {r : Registry}

/-! ## What a type stands for -/

/-- The next type on the way through references and defined types. -/
inductive Unfolds (r : Registry) : TypeDef → TypeDef → Prop
  | ref {name : Text} {t : TypeDef} (hfind : r.find? name = some t) : Unfolds r (.ref name) t
  | defined (name : Text) (underlying : TypeDef) : Unfolds r (.defined name underlying) underlying

/-- References and defined types lead from one type to the other. -/
abbrev StandsFor (r : Registry) : TypeDef → TypeDef → Prop := Relation.ReflTransGen r.Unfolds

theorem Unfolds.unique {t u v : TypeDef} (hu : r.Unfolds t u) (hv : r.Unfolds t v) : u = v := by
  cases hu with
  | ref hfind =>
    cases hv with
    | ref hother => exact Option.some.inj (hfind.symm.trans hother)
  | defined name underlying =>
    cases hv
    rfl

/-- A type that is neither a reference nor a defined type stands for itself only. -/
theorem StandsFor.eq_of_isGround {t u : TypeDef} (h : r.StandsFor t u) (ht : t.isGround = true) :
    t = u := by
  cases h using Relation.ReflTransGen.head_induction_on with
  | refl => rfl
  | head hfirst _ => cases hfirst <;> cases ht

/-- All references and defined types lead to one type at most that is neither. -/
theorem StandsFor.unique {t u v : TypeDef} (hu : r.StandsFor t u) (hv : r.StandsFor t v)
    (huground : u.isGround = true) (hvground : v.isGround = true) : u = v := by
  have hunique : Relator.RightUnique r.Unfolds := fun _ _ _ => Unfolds.unique
  rcases Relation.ReflTransGen.total_of_right_unique hunique hu hv with huv | hvu
  · exact StandsFor.eq_of_isGround huv huground
  · exact (StandsFor.eq_of_isGround hvu hvground).symm

theorem standsFor_of_throughDefined {follow : Text → Except SchemaFault TypeDef}
    (hfollow : ∀ name u, follow name = .ok u → r.StandsFor (.ref name) u) {t u : TypeDef}
    (h : throughDefined follow t = .ok u) : r.StandsFor t u := by
  match t with
  | .ref name => exact hfollow name u h
  | .defined name underlying =>
    exact .head (.defined name underlying) (standsFor_of_throughDefined hfollow h)
  | .plain _ | .simple _ | .enumeration _ _ | .select _ _ | .aggregate _ _ _ _ _ | .entity _ =>
    cases h
    exact .refl

theorem standsFor_of_underlyingWithin {references : Nat} {t u : TypeDef}
    (h : r.underlyingWithin references t = .ok u) : r.StandsFor t u := by
  induction references generalizing t u with
  | zero => exact standsFor_of_throughDefined (fun _ _ hnone => by cases hnone) h
  | succ references ih =>
    refine standsFor_of_throughDefined (fun name own hown => ?_) h
    split at hown
    · rename_i next hnext
      exact .head (.ref hnext) (ih hown)
    · cases hown

theorem standsFor_of_underlying {t u : TypeDef} (h : r.underlying t = .ok u) : r.StandsFor t u :=
  standsFor_of_underlyingWithin h

/-! ## What a select offers -/

/-- A type is an option, or it is offered by a select among the options. -/
inductive Offers (r : Registry) : List Text → TypeDef → Prop
  | here {options : List Text} {option : Text} {t : TypeDef} (hmem : option ∈ options)
      (hfind : r.find? option = some t) : Offers r options t
  | inside {options more : List Text} {option name : Text} {t : TypeDef} (hmem : option ∈ options)
      (hfind : r.find? option = some (.select name more)) (hoffers : Offers r more t) :
      Offers r options t

/-- The same without the options of selects of one name. -/
inductive OffersPast (r : Registry) (own : Text) : List Text → TypeDef → Prop
  | here {options : List Text} {option : Text} {t : TypeDef} (hmem : option ∈ options)
      (hfind : r.find? option = some t) : OffersPast r own options t
  | inside {options more : List Text} {option name : Text} {t : TypeDef} (hmem : option ∈ options)
      (hfind : r.find? option = some (.select name more)) (hother : name.upper ≠ own.upper)
      (hoffers : OffersPast r own more t) : OffersPast r own options t

/-- An option stands for an entity type, or for a select that offers it. -/
inductive OffersEntity (r : Registry) : List Text → EntityType → Prop
  | here {options : List Text} {option : Text} {t : TypeDef} {e : EntityType}
      (hmem : option ∈ options) (hfind : r.find? option = some t)
      (hstands : r.StandsFor t (.entity e)) : OffersEntity r options e
  | inside {options more : List Text} {option name : Text} {t : TypeDef} {e : EntityType}
      (hmem : option ∈ options) (hfind : r.find? option = some t)
      (hstands : r.StandsFor t (.select name more)) (hoffers : OffersEntity r more e) :
      OffersEntity r options e

/-- What is offered is registered. -/
theorem Offers.find? {options : List Text} {t : TypeDef} (h : r.Offers options t) :
    r.find? t.name = some t := by
  induction h with
  | @here options option t hmem hfind =>
    rw [← hfind]
    exact find?_congr (key_of_find? hfind)
  | inside _ _ _ ih => exact ih

/-- No two types of one name are offered. -/
theorem Offers.eq_of_key {options more : List Text} {t u : TypeDef} (ht : r.Offers options t)
    (hu : r.Offers more u) (h : t.key = u.key) : t = u := by
  have hfind := ht.find?
  rw [find?_congr h, hu.find?] at hfind
  exact (Option.some.inj hfind).symm

theorem OffersPast.offers {own : Text} {options : List Text} {t : TypeDef}
    (h : r.OffersPast own options t) : r.Offers options t := by
  induction h with
  | here hmem hfind => exact .here hmem hfind
  | inside hmem hfind _ _ ih => exact .inside hmem hfind ih

/-! ## The type that a keyword selects -/

/-- What is found is an option of the name sought, and no entity type. -/
theorem find?_of_seekOption {key : Text} {options : List Text} {t : TypeDef}
    (h : r.seekOption key options = .inl t) :
    ∃ option ∈ options, r.find? option = some t ∧ t.key = key ∧ t.isEntity = false := by
  induction options with
  | nil => cases h
  | cons option rest ih =>
    have hlater : r.seekOption key rest = .inl t →
        ∃ own ∈ option :: rest, r.find? own = some t ∧ t.key = key ∧ t.isEntity = false := by
      intro hrest
      obtain ⟨own, hmem, hfound⟩ := ih hrest
      exact ⟨own, List.mem_cons_of_mem option hmem, hfound⟩
    unfold seekOption at h
    split at h
    · exact hlater h
    · rename_i own hfind
      split at h
      · rename_i hkey
        cases h
        exact ⟨option, List.mem_cons_self, hfind, hkey⟩
      · split at h
        · cases h
        · exact hlater h

/-- The selects that are gone on with are options. -/
theorem find?_select_of_seekOption {key : Text} {options : List Text} {selects : List SelectType}
    (h : r.seekOption key options = .inr selects) :
    ∀ s ∈ selects, ∃ option ∈ options, r.find? option = some (.select s.name s.options) := by
  induction options generalizing selects with
  | nil =>
    cases h
    nofun
  | cons option rest ih =>
    have hlater : ∀ {more}, r.seekOption key rest = .inr more → ∀ s ∈ more,
        ∃ own ∈ option :: rest, r.find? own = some (.select s.name s.options) := by
      intro more hrest s hs
      obtain ⟨own, hmem, hfind⟩ := ih hrest s hs
      exact ⟨own, List.mem_cons_of_mem option hmem, hfind⟩
    unfold seekOption at h
    split at h
    · exact hlater h
    · rename_i own hfind
      split at h
      · cases h
      · split at h
        · cases h
          exact List.forall_mem_cons.mpr
            ⟨⟨option, List.mem_cons_self, hfind⟩, hlater ‹r.seekOption key rest = .inr _›⟩
        · exact hlater h

/-- Selects of a name that was seen are passed over. -/
theorem offersPast_of_seekAmong {own key : Text} {steps : Nat} {stack : List SelectType}
    {seen : List Text} {t : TypeDef} (hown : own.upper ∈ seen)
    (h : r.seekAmong key steps stack seen = some t) :
    (∃ s ∈ stack, s.name.upper ≠ own.upper ∧ r.OffersPast own s.options t) ∧
      t.key = key ∧ t.isEntity = false := by
  induction steps generalizing stack seen with
  | zero => cases h
  | succ steps ih =>
    cases stack with
    | nil => cases h
    | cons current stack =>
      unfold seekAmong at h
      split at h
      · obtain ⟨⟨s, hs, hoffers⟩, hfound⟩ := ih hown h
        exact ⟨⟨s, List.mem_cons_of_mem current hs, hoffers⟩, hfound⟩
      · rename_i hnew
        have hother : current.name.upper ≠ own.upper := by
          intro hsame
          exact hnew (List.contains_iff_mem.mpr (hsame ▸ hown))
        split at h
        · rename_i found hfound
          cases h
          obtain ⟨option, hmem, hfind, hkey⟩ := find?_of_seekOption hfound
          exact ⟨⟨current, List.mem_cons_self, hother, .here hmem hfind⟩, hkey⟩
        · rename_i selects hselects
          obtain ⟨⟨s, hs, hname, hoffers⟩, hfound⟩ := ih (List.mem_append_left _ hown) h
          refine ⟨?_, hfound⟩
          rcases List.mem_append.mp hs with hnew | hold
          · obtain ⟨option, hmem, hfind⟩ :=
              find?_select_of_seekOption hselects s (List.mem_reverse.mp hnew)
            exact ⟨current, List.mem_cons_self, hother, .inside hmem hfind hname hoffers⟩
          · exact ⟨s, List.mem_cons_of_mem current hold, hname, hoffers⟩

/-- The type that a keyword selects is offered, though not through selects of the same name, has
the keyword as its name and is no entity type. -/
theorem offersPast_of_selectOption {s : SelectType} {keyword : Text} {t : TypeDef}
    (h : r.selectOption s keyword = some t) :
    r.OffersPast s.name s.options t ∧ t.key = keyword.upper ∧ t.isEntity = false := by
  unfold selectOption selectSteps seekAmong at h
  simp only [List.contains_nil, Bool.false_eq_true, if_false] at h
  split at h
  · rename_i found hfound
    cases h
    obtain ⟨option, hmem, hfind, hkey⟩ := find?_of_seekOption hfound
    exact ⟨.here hmem hfind, hkey⟩
  · rename_i selects hselects
    obtain ⟨⟨own, hown, hother, hoffers⟩, hfound⟩ :=
      offersPast_of_seekAmong (List.mem_singleton_self _) h
    rw [List.append_nil, List.mem_reverse] at hown
    obtain ⟨option, hmem, hfind⟩ := find?_select_of_seekOption hselects own hown
    exact ⟨.inside hmem hfind hother hoffers, hfound⟩

theorem offers_of_selectOption {s : SelectType} {keyword : Text} {t : TypeDef}
    (h : r.selectOption s keyword = some t) : r.Offers s.options t ∧ t.key = keyword.upper := by
  obtain ⟨hoffers, hkey, _⟩ := offersPast_of_selectOption h
  exact ⟨hoffers.offers, hkey⟩

/-! ## The entity types of a select -/

theorem offersEntity_of_optionTargets {select : Text} {options entities : List Text}
    {selects : List SelectType} (h : r.optionTargets select options = .ok (entities, selects)) :
    (∀ name ∈ entities, ∃ e, r.OffersEntity options e ∧ e.key = name) ∧
      ∀ s ∈ selects, ∀ e, r.OffersEntity s.options e → r.OffersEntity options e := by
  induction options generalizing entities selects with
  | nil =>
    cases h
    exact ⟨nofun, nofun⟩
  | cons option rest ih =>
    have hlater : ∀ {e}, r.OffersEntity rest e → r.OffersEntity (option :: rest) e := by
      intro e he
      cases he with
      | here hmem hfind hstands => exact .here (List.mem_cons_of_mem option hmem) hfind hstands
      | inside hmem hfind hstands hoffers =>
        exact .inside (List.mem_cons_of_mem option hmem) hfind hstands hoffers
    unfold optionTargets at h
    split at h
    · cases h
    · rename_i first above hfirst
      split at h
      · cases h
      · rename_i others more hothers
        cases h
        obtain ⟨hnames, hselects⟩ := ih hothers
        unfold optionTarget at hfirst
        split at hfirst
        · cases hfirst
        · rename_i t hfind
          split at hfirst
          · cases hfirst
          · rename_i e hunderlying
            cases hfirst
            refine ⟨List.forall_mem_cons.mpr ⟨⟨e, ?_, rfl⟩, ?_⟩, ?_⟩
            · exact .here List.mem_cons_self hfind (standsFor_of_underlying hunderlying)
            · exact fun name hmem => (hnames name hmem).imp fun _ => And.imp_left hlater
            · exact fun s hs e he => hlater (hselects s hs e he)
          · rename_i name options hunderlying
            cases hfirst
            refine ⟨fun name hmem => (hnames name hmem).imp fun _ => And.imp_left hlater, ?_⟩
            refine List.forall_mem_cons.mpr ⟨fun e he => ?_, fun s hs e he => ?_⟩
            · exact .inside List.mem_cons_self hfind (standsFor_of_underlying hunderlying) he
            · exact hlater (hselects s hs e he)
          · cases hfirst
            exact ⟨fun name hmem => (hnames name hmem).imp fun _ => And.imp_left hlater,
              fun s hs e he => hlater (hselects s hs e he)⟩

theorem offersEntity_of_collectEntities {steps : Nat} {stack : List SelectType}
    {seen found names : List Text} (h : r.collectEntities steps stack seen found = .ok names) :
    ∀ name ∈ names, name ∈ found ∨ ∃ s ∈ stack, ∃ e, r.OffersEntity s.options e ∧ e.key = name := by
  induction steps generalizing stack seen found with
  | zero =>
    cases h
    exact fun name hmem => .inl hmem
  | succ steps ih =>
    cases stack with
    | nil =>
      cases h
      exact fun name hmem => .inl hmem
    | cons current stack =>
      unfold collectEntities at h
      intro name hmem
      split at h
      · rcases ih h name hmem with hold | ⟨s, hs, hoffers⟩
        · exact .inl hold
        · exact .inr ⟨s, List.mem_cons_of_mem current hs, hoffers⟩
      · split at h
        · cases h
        · rename_i entities selects htargets
          obtain ⟨hentities, hselects⟩ := offersEntity_of_optionTargets htargets
          rcases ih h name hmem with hfound | ⟨s, hs, e, hoffers, hkey⟩
          · rcases List.mem_append.mp hfound with hold | hnew
            · exact .inl hold
            · exact .inr ⟨current, List.mem_cons_self, hentities name (List.mem_filter.mp hnew).1⟩
          · rcases List.mem_append.mp hs with hnew | hold
            · exact .inr ⟨current, List.mem_cons_self, e,
                hselects s (List.mem_reverse.mp hnew) e hoffers, hkey⟩
            · exact .inr ⟨s, List.mem_cons_of_mem current hold, e, hoffers, hkey⟩

/-- Only entity types are named that the select offers. -/
theorem offersEntity_of_selectEntities {s : SelectType} {names : List Text}
    (h : r.selectEntities s = .ok names) {name : Text} (hmem : name ∈ names) :
    ∃ e, r.OffersEntity s.options e ∧ e.key = name := by
  rcases offersEntity_of_collectEntities h name hmem with hnone | ⟨own, hown, hoffers⟩
  · cases hnone
  · exact List.mem_singleton.mp hown ▸ hoffers

end Registry

end Part21
