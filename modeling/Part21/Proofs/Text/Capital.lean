import Part21.Text.Capital

set_option autoImplicit false

/-!
# Capitals of capitals

A text in capitals stays the same when it is put in capitals again (`Text.upper_upper`), so
a name in capitals is looked up as it is.  For the basic character set this is plain.
Beyond it the runs of letters decide: no capital of one run is a letter of another run that
has a capital itself.
-/

namespace Part21

namespace LetterRun

theorem form?_eq_some {r : LetterRun} {n m : Nat} :
    r.form? n = some m ↔
      r.first ≤ n ∧ n ≤ r.last ∧ (n - r.first) % r.stride = 0 ∧ r.image + (n - r.first) = m := by
  unfold form?
  split
  · rename_i h
    simp only [Bool.and_eq_true, decide_eq_true_eq, beq_iff_eq] at h
    simp [h]
  · rename_i h
    simp only [Bool.and_eq_true, decide_eq_true_eq, beq_iff_eq] at h
    simp only [reduceCtorEq, false_iff, not_and]
    intro hfirst hlast hstride
    exact absurd ⟨⟨hfirst, hlast⟩, hstride⟩ h

/-- The forms that a run has are no letters of the other run: they lie before it, behind it, or
between its letters. -/
def avoids (r s : LetterRun) : Bool :=
  Nat.blt (r.image + (r.last - r.first)) s.first || Nat.blt s.last r.image ||
    ((Nat.beq r.stride 2 || Nat.beq r.first r.last) && Nat.beq s.stride 2 &&
      Nat.beq ((r.image + s.first) % 2) 1)

theorem form?_of_avoids {r s : LetterRun} (h : r.avoids s = true) {n m : Nat}
    (hform : r.form? n = some m) : s.form? m = none := by
  obtain ⟨hfirst, hlast, hstride, hm⟩ := form?_eq_some.mp hform
  cases hother : s.form? m with
  | none => rfl
  | some k =>
    obtain ⟨hfirst', hlast', hstride', _⟩ := form?_eq_some.mp hother
    simp only [avoids, Bool.or_eq_true, Bool.and_eq_true, Nat.blt_eq, Nat.beq_eq] at h
    rcases h with (hbefore | hbehind) | ⟨⟨hsecond | hsingle, hstride''⟩, hparity⟩
    · omega
    · omega
    · rw [hsecond] at hstride
      rw [hstride''] at hstride'
      omega
    · rw [hstride''] at hstride'
      omega

end LetterRun

namespace CodePoint

/-! ## Letters that have capitals -/

/-- The runs of all letters beyond the basic character set that have capitals other than
themselves. -/
def capitalized : List LetterRun :=
  capitalRunsLow ++ capitalRunsHigh ++ longCapitals.map fun entry => ⟨entry.1, entry.1, 1, 0⟩

/-- The small letters of the basic character set. -/
def smallRun : LetterRun := ⟨97, 122, 1, 65⟩

theorem capitalRunsLow_avoid :
    capitalRunsLow.all (fun r => (smallRun :: capitalized).all r.avoids) = true := by
  decide +kernel

theorem capitalRunsHigh_avoid :
    capitalRunsHigh.all (fun r => (smallRun :: capitalized).all r.avoids) = true := by
  decide +kernel

theorem longCapitals_avoid :
    longCapitals.all (fun entry => entry.2.all fun n =>
      (smallRun :: capitalized).all (LetterRun.avoids ⟨n, n, 1, n⟩)) = true := by
  decide +kernel

/-- A code point that is no letter of any run stands for itself in capitals. -/
theorem upper_eq_self {c : CodePoint}
    (h : ∀ s ∈ smallRun :: capitalized, s.form? c.toNat = none) : c.upper = [c] := by
  obtain ⟨hsmall, hruns⟩ := List.forall_mem_cons.mp h
  unfold upper
  split
  · have hcapital : c.isSmall = false := by
      rw [← Bool.not_eq_true]
      intro hletter
      simp only [isSmall, between, Bool.and_eq_true, decide_eq_true_eq] at hletter
      have hsome : smallRun.form? c.toNat = some (65 + (c.toNat - 97)) :=
        LetterRun.form?_eq_some.mpr ⟨hletter.1, hletter.2, Nat.mod_one _, rfl⟩
      rw [hsmall] at hsome
      cases hsome
    rw [capital, hcapital]
    rfl
  · have hlow : LetterRun.formIn? capitalRunsLow c.toNat = none :=
      List.findSome?_eq_none_iff.mpr fun s hmem =>
        hruns s (List.mem_append_left _ (List.mem_append_left _ hmem))
    have hhigh : LetterRun.formIn? capitalRunsHigh c.toNat = none :=
      List.findSome?_eq_none_iff.mpr fun s hmem =>
        hruns s (List.mem_append_left _ (List.mem_append_right _ hmem))
    have hlong : longCapitals.lookup c.toNat = none := by
      rw [List.lookup_eq_none_iff]
      intro entry hmem
      rw [bne_iff_ne]
      intro hsame
      have hnone := hruns ⟨entry.1, entry.1, 1, 0⟩
        (List.mem_append_right _ (List.mem_map_of_mem hmem))
      have hsome : LetterRun.form? ⟨entry.1, entry.1, 1, 0⟩ c.toNat = some (0 + 0) :=
        LetterRun.form?_eq_some.mpr
          ⟨Nat.le_of_eq hsame.symm, Nat.le_of_eq hsame, Nat.mod_one _, by simp [hsame]⟩
      rw [hnone] at hsome
      cases hsome
    rw [furtherCapital?, hlow, hhigh, hlong]
    rfl

theorem avoided_of_formIn? {runs : List LetterRun}
    (h : runs.all (fun r => (smallRun :: capitalized).all r.avoids) = true) {n m : Nat}
    (hform : LetterRun.formIn? runs n = some m) :
    ∀ s ∈ smallRun :: capitalized, s.form? m = none := by
  obtain ⟨r, hmem, hr⟩ := List.exists_of_findSome?_eq_some hform
  intro s hs
  exact LetterRun.form?_of_avoids (List.all_eq_true.mp (List.all_eq_true.mp h r hmem) s hs) hr

theorem avoided_of_longCapitals {n m : Nat} {numbers : List Nat}
    (hlookup : longCapitals.lookup n = some numbers) (hmem : m ∈ numbers) :
    ∀ s ∈ smallRun :: capitalized, s.form? m = none := by
  obtain ⟨before, after, heq, _⟩ := List.lookup_eq_some_iff.mp hlookup
  have hentry : (n, numbers) ∈ longCapitals := by
    rw [heq]
    exact List.mem_append_right before List.mem_cons_self
  have hnumbers := List.all_eq_true.mp longCapitals_avoid _ hentry
  have hm := List.all_eq_true.mp hnumbers m hmem
  intro s hs
  have hself : LetterRun.form? ⟨m, m, 1, m⟩ m = some m :=
    LetterRun.form?_eq_some.mpr ⟨Nat.le_refl m, Nat.le_refl m, Nat.mod_one _, by simp⟩
  exact LetterRun.form?_of_avoids (List.all_eq_true.mp hm s hs) hself

theorem isSmall_capital (c : CodePoint) : c.capital.isSmall = false := by
  unfold capital
  split
  · rename_i h
    simp only [isSmall, between, Bool.and_eq_true, decide_eq_true_eq] at h
    have hlow : 97 ≤ c.toNat := h.1
    have hhigh : c.toNat ≤ 122 := h.2
    have hbefore : ¬ 97 ≤ c.toNat - 32 := by omega
    simp only [isSmall, between, Bool.and_eq_false_iff, decide_eq_false_iff_not]
    exact .inl hbefore
  · rename_i h
    exact Bool.eq_false_iff.mpr h

/-- The capital of a code point of the basic character set stands for itself. -/
theorem upper_capital {c : CodePoint} (h : c.isBasic = true) : c.capital.upper = [c.capital] := by
  have hbasic : c.capital.isBasic = true := by
    simp only [isBasic, decide_eq_true_eq] at h ⊢
    refine Nat.lt_of_le_of_lt ?_ h
    unfold capital
    split
    · exact Nat.sub_le _ _
    · exact Nat.le_refl _
  rw [upper_of_isBasic hbasic, capital, if_neg (Bool.eq_false_iff.mp (isSmall_capital c))]

theorem toNat_of_ofNat? {n : Nat} {c : CodePoint} (h : ofNat? n = some c) : c.toNat = n := by
  unfold ofNat? at h
  split at h
  · cases h
    rfl
  · cases h

/-- Beyond the basic character set, what a letter is written with in capitals has no other
capitals. -/
theorem avoided_of_furtherCapital? {c d : CodePoint} {t : Text}
    (h : c.furtherCapital? = some t) (hmem : d ∈ t) :
    ∀ s ∈ smallRun :: capitalized, s.form? d.toNat = none := by
  unfold furtherCapital? at h
  split at h
  · rename_i m hform
    obtain ⟨e, he, rfl⟩ := Option.map_eq_some_iff.mp h
    rw [List.mem_singleton.mp hmem, toNat_of_ofNat? he]
    cases hlow : LetterRun.formIn? capitalRunsLow c.toNat with
    | some k =>
      rw [hlow] at hform
      cases hform
      exact avoided_of_formIn? capitalRunsLow_avoid hlow
    | none =>
      rw [hlow] at hform
      exact avoided_of_formIn? capitalRunsHigh_avoid hform
  · obtain ⟨numbers, hlookup, rfl⟩ := Option.map_eq_some_iff.mp h
    obtain ⟨n, hn, hd⟩ := List.mem_filterMap.mp hmem
    rw [toNat_of_ofNat? hd]
    exact avoided_of_longCapitals hlookup hn

/-- What a code point is written with in capitals stands for itself. -/
theorem upper_of_mem_upper {c d : CodePoint} (h : d ∈ c.upper) : d.upper = [d] := by
  unfold upper at h
  split at h
  · rename_i hbasic
    rw [List.mem_singleton.mp h]
    exact upper_capital hbasic
  · rename_i hbeyond
    cases hfurther : c.furtherCapital? with
    | none =>
      rw [hfurther] at h
      rw [List.mem_singleton.mp h]
      unfold upper
      rw [if_neg hbeyond, hfurther]
      rfl
    | some t =>
      rw [hfurther] at h
      exact upper_eq_self (avoided_of_furtherCapital? hfurther h)

end CodePoint

namespace Text

/-- A text in capitals stays as it is in capitals. -/
theorem upper_upper (t : Text) : t.upper.upper = t.upper := by
  have hself : ∀ s : Text, (∀ d ∈ s, CodePoint.upper d = [d]) → s.upper = s := by
    intro s
    induction s with
    | nil => exact fun _ => rfl
    | cons d s ih =>
      intro hs
      obtain ⟨hd, hrest⟩ := List.forall_mem_cons.mp hs
      rw [upper_cons, hd, ih hrest]
      rfl
  apply hself
  intro d hmem
  obtain ⟨c, _, hc⟩ := List.mem_flatMap.mp hmem
  exact CodePoint.upper_of_mem_upper hc

end Text

end Part21
