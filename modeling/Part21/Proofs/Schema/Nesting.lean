import Part21.Proofs.Schema.Circles

set_option autoImplicit false

/-!
# Types that contain themselves

The check of a type goes into defined types and into the elements of aggregates, and remembers the
names of the defined types only.  A circle of its way that holds a defined type is noticed in the
second lap.  One that holds none, of aggregates that contain themselves, is gone round without end
(`Registry.Walk.bottomless`).

The bound of the check leaves room for two laps.  So what has come to no answer by then never will,
and there is such a circle (`Registry.bottomless_of_checkType`), and with any greater bound the answer
is the same (`Registry.checkWithin_eq_checkType`).
-/

namespace Part21

namespace Registry

variable {r : Registry} {t u v next : TypeDef} {seen names more passed : List Text}
  {references others : Nat}

/-! ## The way of a check -/

/-- From an aggregate to its elements, and from a name to the type that is registered under it. -/
inductive Nests (r : Registry) : TypeDef → TypeDef → Prop
  | ref {name : Text} {t : TypeDef} (hfind : r.find? name = some t) : Nests r (.ref name) t
  | element (name : Text) (element : TypeDef) (kind : AggregateKind) (lower : Int)
      (upper : Option Int) : Nests r (.aggregate name element kind lower upper) element

/-- The check of one type comes to another, so many references away and through defined types of
these names. -/
inductive Walk (r : Registry) : TypeDef → Nat → List Text → TypeDef → Prop
  | refl (t : TypeDef) : Walk r t 0 [] t
  | ref {name : Text} {next u : TypeDef} {references : Nat} {names : List Text}
      (hfind : r.find? name = some next) (hwalk : Walk r next references names u) :
      Walk r (.ref name) (references + 1) names u
  | defined (name : Text) {underlying u : TypeDef} {references : Nat} {names : List Text}
      (hwalk : Walk r underlying references names u) :
      Walk r (.defined name underlying) references (name.upper :: names) u
  | element (name : Text) {element u : TypeDef} (kind : AggregateKind) (lower : Int)
      (upper : Option Int) {references : Nat} {names : List Text}
      (hwalk : Walk r element references names u) :
      Walk r (.aggregate name element kind lower upper) references names u

theorem checkWithin_ref {name : Text} (hfind : r.find? name = some next) :
    r.checkWithin (references + 1) (.ref name) seen = r.checkWithin references next seen := by
  rw [checkWithin, checkWritten, hfind]

namespace Walk

theorem trans (h : r.Walk t references names u) (hmore : r.Walk u others more v) :
    r.Walk t (references + others) (names ++ more) v := by
  induction h with
  | refl =>
    rw [Nat.zero_add]
    exact hmore
  | ref hfind _ ih =>
    rw [Nat.succ_add]
    exact .ref hfind (ih hmore)
  | defined name _ ih => exact .defined name (ih hmore)
  | element name kind lower upper _ ih => exact .element name kind lower upper (ih hmore)

theorem nests (h : r.Walk t references [] u) : Relation.ReflTransGen r.Nests t u := by
  generalize hnames : ([] : List Text) = names at h
  induction h with
  | refl => exact .refl
  | ref hfind _ ih => exact .head (.ref hfind) (ih hnames)
  | defined => cases hnames
  | element name kind lower upper _ ih => exact .head (.element ..) (ih hnames)

theorem nests_of_ref (h : r.Walk t (references + 1) [] u) : Relation.TransGen r.Nests t u := by
  cases h with
  | ref hfind hwalk => exact .head' (.ref hfind) hwalk.nests
  | element name kind lower upper hwalk => exact .head' (.element ..) hwalk.nests

/-- A defined type that was seen before is noticed. -/
theorem noticed (h : r.Walk t references names u) (hnames : names ≠ []) (hseen : names ⊆ seen)
    (bound : Nat) :
    ∃ name, r.checkWithin (bound + references) t seen = .error (.selfReference name) := by
  induction h with
  | refl => exact absurd rfl hnames
  | ref hfind _ ih =>
    obtain ⟨name, hname⟩ := ih hnames hseen
    exact ⟨name, (checkWithin_ref hfind).trans hname⟩
  | defined name =>
    refine ⟨name, ?_⟩
    rw [checkWithin_defined, if_pos (List.contains_iff_mem.mpr (hseen List.mem_cons_self))]
  | element _ _ _ _ _ ih =>
    obtain ⟨name, hname⟩ := ih hnames hseen
    exact ⟨name, (checkWithin_aggregate ..).trans hname⟩

/-- Without defined types on the way, all that happens is that references are followed. -/
theorem checkWithin_add (h : r.Walk t references [] u) (bound : Nat) :
    r.checkWithin (bound + references) t seen = r.checkWithin bound u seen := by
  generalize hnames : ([] : List Text) = names at h
  induction h with
  | refl => rfl
  | ref hfind _ ih => exact (checkWithin_ref hfind).trans (ih hnames)
  | defined => cases hnames
  | element _ _ _ _ _ ih => exact (checkWithin_aggregate ..).trans (ih hnames)

theorem checkWithin_of_lt (h : r.Walk t references [] u) {bound : Nat} (hlt : bound < references) :
    r.checkWithin bound t seen = .error .bottomless := by
  generalize hnames : ([] : List Text) = names at h
  induction h generalizing bound with
  | refl => omega
  | ref hfind _ ih =>
    cases bound with
    | zero => rfl
    | succ bound => exact (checkWithin_ref hfind).trans (ih (Nat.lt_of_succ_lt_succ hlt) hnames)
  | defined => cases hnames
  | element _ _ _ _ _ ih => exact (checkWithin_aggregate ..).trans (ih hlt hnames)

/-- A circle without defined types has no end. -/
theorem bottomless (h : r.Walk t (references + 1) [] t) (bound : Nat) :
    r.checkWithin bound t seen = .error .bottomless := by
  induction bound using Nat.strongRecOn with
  | ind bound ih =>
    by_cases hlt : bound < references + 1
    · exact h.checkWithin_of_lt hlt
    · obtain ⟨rest, rfl⟩ := Nat.exists_eq_add_of_le' (Nat.le_of_not_lt hlt)
      rw [h.checkWithin_add rest]
      exact ih rest (by omega)

end Walk

/-! ## Going through -/

/-- What is written out decides, or the check comes to a reference. -/
theorem checkWritten_cases (r : Registry) (t : TypeDef) (seen : List Text) :
    (∀ follow, checkWritten follow t seen = .ok ()) ∨
      (∃ name, ∀ follow, checkWritten follow t seen = .error (.selfReference name)) ∨
        ∃ names name, r.Walk t 0 names (.ref name) ∧
          ∀ follow, checkWritten follow t seen = follow name (seen ++ names) := by
  match t with
  | .ref name => exact .inr (.inr ⟨[], name, .refl _, fun _ => by rw [checkWritten, List.append_nil]⟩)
  | .defined name underlying =>
    by_cases hseen : seen.contains name.upper = true
    · exact .inr (.inl ⟨name, fun _ => by rw [checkWritten, if_pos hseen]⟩)
    · rcases checkWritten_cases r underlying (seen ++ [name.upper]) with
        hok | ⟨own, hself⟩ | ⟨names, own, hwalk, hfollow⟩
      · exact .inl fun follow => by rw [checkWritten, if_neg hseen, hok]
      · exact .inr (.inl ⟨own, fun follow => by rw [checkWritten, if_neg hseen, hself]⟩)
      · refine .inr (.inr ⟨name.upper :: names, own, .defined name hwalk, fun follow => ?_⟩)
        rw [checkWritten, if_neg hseen, hfollow, List.append_assoc, List.singleton_append]
  | .aggregate name element kind lower upper =>
    rcases checkWritten_cases r element seen with hok | ⟨own, hself⟩ | ⟨names, own, hwalk, hfollow⟩
    · exact .inl hok
    · exact .inr (.inl ⟨own, hself⟩)
    · exact .inr (.inr ⟨names, own, .element name kind lower upper hwalk, hfollow⟩)
  | .plain _ | .simple _ | .enumeration _ _ | .select _ _ | .entity _ => exact .inl fun _ => rfl

/-- The first reference on the way decides: there is none, its name is not registered, or it leads
to the next type. -/
theorem checkWithin_cases (r : Registry) (t : TypeDef) (seen : List Text) :
    (∃ answer, answer ≠ .error .bottomless ∧ (∀ references, r.checkWithin references t seen = answer) ∧
        ∀ fault, answer = .error fault → ∃ name, fault = .selfReference name) ∨
      ((∃ name, ∀ references, r.checkWithin (references + 1) t seen = .error (.undefined name)) ∨
        ∃ names name next, r.find? name = some next ∧ r.Walk t 1 names next ∧
          ∀ references,
            r.checkWithin (references + 1) t seen = r.checkWithin references next (seen ++ names)) ∧
      r.checkWithin 0 t seen = .error .bottomless := by
  rcases checkWritten_cases r t seen with hok | ⟨own, hself⟩ | ⟨names, name, hwalk, hfollow⟩
  · refine .inl ⟨.ok (), nofun, fun references => ?_, nofun⟩
    cases references <;> exact hok _
  · refine .inl ⟨.error (.selfReference own), nofun, fun references => ?_, fun fault hfault => ?_⟩
    · cases references <;> exact hself _
    · exact ⟨own, (Except.error.inj hfault).symm⟩
  · refine .inr ⟨?_, hfollow _⟩
    cases hfind : r.find? name with
    | none =>
      refine .inl ⟨name, fun references => ?_⟩
      rw [checkWithin, hfollow, hfind]
    | some next =>
      have hstep : r.Walk (.ref name) 1 [] next := .ref hfind (.refl next)
      refine .inr ⟨names, name, next, hfind, ?_, fun references => ?_⟩
      · exact List.append_nil names ▸ hwalk.trans hstep
      · rw [checkWithin, hfollow, hfind]

/-- An answer that was found stays if more references may be followed. -/
theorem checkWithin_of_le (hle : references ≤ others)
    (h : r.checkWithin references t seen ≠ .error .bottomless) :
    r.checkWithin others t seen = r.checkWithin references t seen := by
  induction references generalizing t seen others with
  | zero =>
    rcases checkWithin_cases r t seen with ⟨answer, _, hanswer, _⟩ | ⟨_, hzero⟩
    · rw [hanswer, hanswer]
    · exact absurd hzero h
  | succ references ih =>
    obtain ⟨others, rfl⟩ := Nat.exists_eq_add_of_le' (Nat.le_trans (Nat.le_add_left 1 references) hle)
    rcases checkWithin_cases r t seen with
      ⟨answer, _, hanswer, _⟩ | ⟨⟨name, hmissing⟩ | ⟨names, name, next, _, _, hnext⟩, _⟩
    · rw [hanswer, hanswer]
    · rw [hmissing, hmissing]
    · rw [hnext, hnext]
      exact ih (by omega) (hnext references ▸ h)

/-- The check comes to aggregates that contain themselves. -/
def Bottomless (r : Registry) (t : TypeDef) : Prop :=
  ∃ u references names, r.Walk t references names u ∧ Relation.TransGen r.Nests u u

/-- A type that was passed: the names on the way from it have been seen, and it is not further away
than the types passed are many. -/
def Behind (r : Registry) (t : TypeDef) (seen passed : List Text) (u : TypeDef) : Prop :=
  ∃ others names, r.Walk u others names t ∧ names ⊆ seen ∧ others < passed.length

namespace Behind

theorem self (t : TypeDef) (key : Text) : r.Behind t seen (passed ++ [key]) t :=
  ⟨0, [], .refl t, List.nil_subset _, by rw [List.length_append]; exact Nat.succ_pos _⟩

/-- One reference further. -/
theorem tail (h : r.Behind t seen passed u) (hwalk : r.Walk t 1 names next) :
    ∃ others all, r.Walk u (others + 1) all next ∧ all ⊆ seen ++ names ∧ others < passed.length := by
  obtain ⟨others, more, hbefore, hseen, hothers⟩ := h
  refine ⟨others, more ++ names, hbefore.trans hwalk, ?_, hothers⟩
  exact List.append_subset.mpr
    ⟨List.subset_append_of_subset_left _ hseen, List.subset_append_right _ _⟩

theorem step (h : r.Behind t seen passed u) (hwalk : r.Walk t 1 names next) (key : Text) :
    r.Behind next (seen ++ names) (passed ++ [key]) u := by
  obtain ⟨others, all, hmore, hseen, hothers⟩ := h.tail hwalk
  exact ⟨others + 1, all, hmore, hseen, by rw [List.length_append]; exact Nat.succ_lt_succ hothers⟩

end Behind

/-- Whoever follows twice as many references as there are types goes round a circle, and one of
defined types would have been noticed. -/
theorem bottomless_of_passed
    (hpassed : r.Passed (r.Behind t seen passed) passed)
    (hroom : 2 * r.referenceLimit ≤ passed.length + references)
    (h : r.checkWithin references t seen = .error .bottomless) :
    r.Bottomless t ∧ ∀ bound, r.checkWithin bound t seen = .error .bottomless := by
  have hlength := hpassed.way.length_le
  unfold referenceLimit at hroom
  induction references generalizing t seen passed with
  | zero => omega
  | succ references ih =>
    rcases checkWithin_cases r t seen with
      ⟨answer, hfound, hanswer, _⟩ | ⟨⟨name, hmissing⟩ | ⟨names, name, next, hfind, hwalk, hnext⟩, hzero⟩
    · exact absurd ((hanswer _).symm.trans h) hfound
    · rw [hmissing] at h
      cases h
    · rw [hnext] at h
      -- It is enough to go on from the next type.
      suffices hrest : r.Bottomless next ∧
          ∀ bound, r.checkWithin bound next (seen ++ names) = .error .bottomless by
        obtain ⟨⟨u, others, more, hmore, hcircle⟩, hall⟩ := hrest
        refine ⟨⟨u, _, _, hwalk.trans hmore, hcircle⟩, fun bound => ?_⟩
        cases bound with
        | zero => exact hzero
        | succ bound => exact (hnext bound).trans (hall bound)
      by_cases hmem : next.key ∈ passed
      · obtain ⟨others, all, hlap, hseen, hothers⟩ := (hpassed.of_mem hfind hmem).tail hwalk
        have hnone : all = [] := by
          by_contra hsome
          obtain ⟨own, hself⟩ := hlap.noticed hsome hseen (references - (others + 1))
          rw [Nat.sub_add_cancel (by omega), h] at hself
          cases hself
        rw [hnone] at hlap
        exact ⟨⟨next, 0, [], .refl next, hlap.nests_of_ref⟩, hlap.bottomless⟩
      · have hmore : r.Passed (r.Behind next (seen ++ names) (passed ++ [next.key]))
            (passed ++ [next.key]) :=
          (hpassed.mono fun u hu => hu.step hwalk next.key).append hfind hmem (.self next next.key)
        exact ih hmore (by rw [List.length_append, List.length_singleton]; omega) h
          hmore.way.length_le

/-- Where the check comes to no answer, aggregates contain themselves. -/
theorem bottomless_of_checkType (h : r.checkType t = .error .bottomless) :
    r.Bottomless t ∧ ∀ bound, r.checkWithin bound t [] = .error .bottomless :=
  bottomless_of_passed (.nil r _) (Nat.le_add_left _ _) h

/-- With any greater bound the answer is the same. -/
theorem checkWithin_eq_checkType (hle : 2 * r.referenceLimit ≤ references) (t : TypeDef) :
    r.checkWithin references t [] = r.checkType t := by
  by_cases h : r.checkType t = .error .bottomless
  · rw [h]
    exact (bottomless_of_checkType h).2 references
  · exact checkWithin_of_le hle h

/-- The other faults of a check are names that are not registered and defined types that are
defined by themselves. -/
theorem fault_of_checkWithin {fault : SchemaFault}
    (h : r.checkWithin references t seen = .error fault) :
    fault = .bottomless ∨ (∃ name, fault = .undefined name) ∨ ∃ name, fault = .selfReference name := by
  induction references generalizing t seen with
  | zero =>
    rcases checkWithin_cases r t seen with ⟨answer, _, hanswer, hself⟩ | ⟨_, hzero⟩
    · exact .inr (.inr (hself fault ((hanswer _).symm.trans h)))
    · exact .inl (Except.error.inj (hzero.symm.trans h)).symm
  | succ references ih =>
    rcases checkWithin_cases r t seen with
      ⟨answer, _, hanswer, hself⟩ | ⟨⟨name, hmissing⟩ | ⟨names, name, next, _, _, hnext⟩, _⟩
    · exact .inr (.inr (hself fault ((hanswer _).symm.trans h)))
    · exact .inr (.inl ⟨name, (Except.error.inj ((hmissing _).symm.trans h)).symm⟩)
    · exact ih ((hnext _).symm.trans h)

/-! ## Circles of defined types -/

theorem standsFor_of_checkWritten {follow : Text → List Text → Except SchemaFault Unit}
    {t : TypeDef} {seen : List Text} (h : checkWritten follow t seen = .ok ()) :
    (∃ u, u.isGround = true ∧ r.StandsFor t u) ∨
      ∃ name more, r.StandsFor t (.ref name) ∧ follow name more = .ok () := by
  match t with
  | .ref name => exact .inr ⟨name, seen, .refl, h⟩
  | .defined name underlying =>
    have hfirst : r.Unfolds (.defined name underlying) underlying := .defined name underlying
    rw [checkWritten] at h
    split at h
    · cases h
    · rcases standsFor_of_checkWritten h with ⟨u, hground, hstands⟩ | ⟨other, more, hstands, hfollow⟩
      · exact .inl ⟨u, hground, .head hfirst hstands⟩
      · exact .inr ⟨other, more, .head hfirst hstands, hfollow⟩
  | .plain _ | .simple _ | .enumeration _ _ | .select _ _ | .aggregate _ _ _ _ _ | .entity _ =>
    exact .inl ⟨_, rfl, .refl⟩

/-- A check that succeeds comes to the end of the way. -/
theorem Checked.not_endless (h : r.Checked t seen) : ¬ r.Endless t := by
  obtain ⟨references, h⟩ := h
  intro hendless
  induction references generalizing t seen with
  | zero =>
    rcases standsFor_of_checkWritten (r := r) h with ⟨u, hground, hstands⟩ | ⟨_, _, _, hnone⟩
    · rw [hendless.not_isGround hstands] at hground
      cases hground
    · cases hnone
  | succ references ih =>
    rcases standsFor_of_checkWritten (r := r) h with
      ⟨u, hground, hstands⟩ | ⟨name, more, hstands, hfollow⟩
    · rw [hendless.not_isGround hstands] at hground
      cases hground
    · split at hfollow
      · rename_i next hfind
        exact ih hfollow (hendless.of_standsFor (hstands.tail (.ref hfind)))
      · cases hfollow

end Registry

end Part21
