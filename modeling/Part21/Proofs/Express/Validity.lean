import Part21.Proofs.Express.Registration
import Part21.Proofs.Express.Types

set_option autoImplicit false

/-!
# Registries of schema texts are valid

A schema text cannot write a type out where a name is expected: attributes, elements and what defined
types stand for are simple types, names, or aggregates of such types.  So all types of a registry
that is read from a text mention other types by name, and since it was checked, it is valid in the
sense of `Registry.Valid`: all questions to it about its own types have answers.
-/

namespace Part21

namespace Express

namespace Reader

/-! ## Types that are read -/

theorem isNaming_close (enclosing : List (AggregateKind × Int × Option Int)) (type : TypeDef) :
    (close enclosing type).isNaming = type.isNaming := by
  unfold close
  induction enclosing generalizing type with
  | nil => rfl
  | cons a outer ih => exact ih _

theorem isNaming_baseTypeIn {fuel : Nat} {enclosing : List (AggregateKind × Int × Option Int)}
    {ts rest : List Token} {type : TypeDef}
    (h : baseTypeIn fuel enclosing ts = .ok (type, rest)) : type.isNaming = true := by
  fun_induction baseTypeIn fuel enclosing ts
  case case3 enclosing _ _ _ _ name _ =>
    cases h
    exact isNaming_close enclosing (.ref name)
  case case5 ih => exact ih h
  case case7 enclosing _ _ _ _ _ _ _ type _ _ _ _ _ =>
    cases h
    exact isNaming_close enclosing (.simple type)
  case case8 enclosing _ _ _ _ _ _ _ type _ _ =>
    cases h
    exact isNaming_close enclosing (.simple type)
  all_goals cases h

theorem mentionsNames_declaredType {name : Text} {ts rest : List Token} {declared : TypeDef}
    (h : declaredType name ts = .ok (declared, rest)) : declared.mentionsNames = true := by
  unfold declaredType at h
  split at h
  · split at h
    · cases h
    · split at h
      · cases h
      · cases h
        rfl
  · split at h
    · cases h
    · cases h
      rfl
  · split at h
    · cases h
    · rename_i hread
      cases h
      exact isNaming_baseTypeIn hread

theorem mentionsNames_typeDeclaration {ts rest : List Token} {declared : TypeDef}
    (h : typeDeclaration ts = .ok (declared, rest)) : declared.mentionsNames = true := by
  unfold typeDeclaration at h
  repeat' split at h
  all_goals cases h
  exact mentionsNames_declaredType (by assumption)

theorem isNaming_attributeGroup {ts rest : List Token} {group : List Attribute}
    (h : attributeGroup ts = .ok (group, rest)) : ∀ a ∈ group, a.type.isNaming = true := by
  unfold attributeGroup at h
  dsimp only at h
  split at h
  · cases h
  · split at h
    · cases h
    · split at h
      · cases h
      · rename_i hread
        split at h
        · cases h
        · cases h
          intro a ha
          obtain ⟨name, -, rfl⟩ := List.mem_map.mp ha
          exact isNaming_baseTypeIn hread

theorem isNaming_attributes {fuel : Nat} {before declared : List Attribute} {ts rest : List Token}
    (hbefore : ∀ a ∈ before, a.type.isNaming = true)
    (h : attributes fuel before ts = .ok (declared, rest)) :
    ∀ a ∈ declared, a.type.isNaming = true := by
  fun_induction attributes fuel before ts
  case case1 hgroup =>
    rw [hgroup] at h
    cases h
  case case2 hgroup ih =>
    rw [hgroup] at h
    refine ih (fun a ha => ?_) h
    rcases List.mem_append.mp ha with hold | hnew
    · exact hbefore a hold
    · exact isNaming_attributeGroup hgroup a hnew
  case case3 =>
    cases h
    exact hbefore

theorem isNaming_entityDeclaration {ts rest : List Token} {e : EntityType}
    (h : entityDeclaration ts = .ok (e, rest)) : ∀ a ∈ e.attributes, a.type.isNaming = true := by
  unfold entityDeclaration at h
  repeat' split at h
  all_goals cases h
  exact isNaming_attributes (List.forall_mem_nil _) (by assumption)

theorem mentionsNames_declarations {fuel : Nat} {before declared : List TypeDef}
    {ts rest : List Token} (hbefore : ∀ t ∈ before, t.mentionsNames = true)
    (h : declarations fuel before ts = .ok (declared, rest)) :
    ∀ t ∈ declared, t.mentionsNames = true := by
  have hmore : ∀ {before : List TypeDef}, (∀ t ∈ before, t.mentionsNames = true) →
      ∀ {t : TypeDef}, t.mentionsNames = true →
      ∀ u ∈ before ++ [t], u.mentionsNames = true := by
    intro before hbefore t ht u hu
    rcases List.mem_append.mp hu with hold | hnew
    · exact hbefore u hold
    · exact List.mem_singleton.mp hnew ▸ ht
  fun_induction declarations fuel before ts
  case case2 htype ih => exact ih (hmore hbefore (mentionsNames_typeDeclaration htype)) h
  case case4 hentity ih =>
    exact ih (hmore hbefore (List.all_eq_true.mpr (isNaming_entityDeclaration hentity))) h
  case case5 hend _ _ =>
    rw [hend] at h
    cases h
  case case6 hend _ _ =>
    rw [hend] at h
    cases h
    exact hbefore
  all_goals cases h

theorem mentionsNames_schema {ts rest : List Token} {name : Text} {declared : List TypeDef}
    (h : schema ts = .ok ((name, declared), rest)) : ∀ t ∈ declared, t.mentionsNames = true := by
  unfold schema at h
  repeat' split at h
  all_goals cases h
  exact mentionsNames_declarations (List.forall_mem_nil _) (by assumption)

end Reader

theorem mentionsNames_declarations {t : Text} {name : Text} {declared : List TypeDef}
    (h : declarations t = .ok (name, declared)) : ∀ t ∈ declared, t.mentionsNames = true := by
  unfold declarations at h
  dsimp only at h
  split at h
  · cases h
  · rename_i hread
    split at h
    · cases h
    · cases h
      exact Reader.mentionsNames_schema hread
  · cases h

end Express

namespace Registry

/-- The registry of a schema text is valid. -/
theorem valid_of_ofExpress {t : Text} {r : Registry} (h : ofExpress t = .ok r) : r.Valid := by
  unfold ofExpress at h
  split at h
  · cases h
  · rename_i name declared hread
    split at h
    · cases h
    · rename_i own hown
      split at h
      · cases h
      · rename_i hvalid
        cases h
        have hinitial : (initial name).MentionsNames := by
          intro entry hentry
          obtain ⟨s, -, rfl⟩ := List.mem_map.mp hentry
          rfl
        exact ⟨hvalid, hinitial.registerAll (Express.mentionsNames_declarations hread) hown⟩

end Registry

end Part21
