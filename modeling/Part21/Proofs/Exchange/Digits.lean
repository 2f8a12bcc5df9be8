import Part21.Proofs.Exchange.Restart
import Part21.Proofs.Number.Hexadecimal

set_option autoImplicit false

/-!
# Digits in the body of a string literal

Directives hold code points by their digits, one or in groups of a width up to the first place of a
closing mark (`Text.cut?_eq_some_iff`).

Which digits spell a code point is a parameter of `Groups`.  `SpellsPlainly` asks for plain digits,
and `SpellsLoosely` for a numeral, which may hold signs, blanks, low lines and digits of other
scripts as well; the two differ in what is lax only (`spellsPlainly_iff`).  It is the latter that is
decoded: `codePoint_eq_ok` and `codePoints_eq_ok` say so, and `codePoint_eq_error` and
`codePoints_eq_error` what is wrong with all other digits.
-/

namespace Part21

/-! ## The first place of a mark -/

namespace Text

/-- Where a mark stands between two parts of a text, no other place of it comes before. -/
def IsFirst (mark before behind : Text) : Prop :=
  ∀ front rear : Text, before ++ (mark ++ behind) = front ++ (mark ++ rear) →
    before.length ≤ front.length

theorem cut?_eq_none {mark t : Text} (hmark : mark ≠ []) :
    cut? mark t = none ↔ ¬ mark <:+: t := by
  constructor
  · intro h
    induction t with
    | nil => simpa using hmark
    | cons c rest ih =>
      rw [cut?] at h
      split at h
      · cases h
      · rename_i hnone
        rw [List.infix_cons_iff]
        rintro (⟨more, hmore⟩ | hlater)
        · rw [List.isPrefixOf?_eq_some_iff_append_eq.mpr hmore] at hnone
          cases hnone
        · exact ih (by simpa using h) hlater
  · intro h
    rw [Option.eq_none_iff_forall_ne_some]
    rintro ⟨before, behind⟩ hcut
    obtain ⟨rfl, -⟩ := Cut.cut?_eq_some hmark hcut []
    exact h ⟨before, behind, by simp⟩

theorem isFirst_of_cut? {mark t before behind : Text} (hmark : mark ≠ [])
    (h : cut? mark t = some (before, behind)) : IsFirst mark before behind := by
  obtain ⟨rfl, -⟩ := Cut.cut?_eq_some hmark h []
  intro front rear hsame
  -- A mark that stands earlier is found when the text is cut behind its first code points.
  induction front generalizing before with
  | nil =>
    have hstart : mark.isPrefixOf? (before ++ (mark ++ behind)) = some rear :=
      List.isPrefixOf?_eq_some_iff_append_eq.mpr hsame.symm
    cases before with
    | nil => simp
    | cons c front =>
      rw [List.cons_append, cut?] at h
      rw [List.cons_append] at hstart
      rw [hstart] at h
      cases h
  | cons d front ih =>
    cases before with
    | nil => simp
    | cons c before =>
      obtain ⟨rfl, hrest⟩ := List.cons.inj hsame
      rw [List.cons_append, cut?] at h
      split at h
      · cases h
      · obtain ⟨⟨inner, outer⟩, hcut, hparts⟩ := Option.map_eq_some_iff.mp h
        cases hparts
        simpa using ih hcut hrest

/-- A text is cut at the first place of a mark. -/
theorem cut?_eq_some_iff {mark t before behind : Text} (hmark : mark ≠ []) :
    cut? mark t = some (before, behind) ↔
      t = before ++ (mark ++ behind) ∧ IsFirst mark before behind := by
  constructor
  · exact fun h => ⟨(Cut.cut?_eq_some hmark h []).1, isFirst_of_cut? hmark h⟩
  · rintro ⟨rfl, hfirst⟩
    obtain ⟨⟨front, rear⟩, hcut⟩ : ∃ parts, cut? mark (before ++ (mark ++ behind)) = some parts := by
      rw [← Option.ne_none_iff_exists', ne_eq, cut?_eq_none hmark, not_not]
      exact ⟨before, behind, by simp⟩
    have hsame := (Cut.cut?_eq_some hmark hcut []).1
    have hle := hfirst front rear hsame
    have hge := isFirst_of_cut? hmark hcut before behind hsame.symm
    obtain ⟨rfl, hbehind⟩ := List.append_inj hsame (Nat.le_antisymm hle hge)
    rw [hcut, List.append_cancel_left hbehind]

/-- Behind a text without its first code point a mark stands in the first place. -/
theorem isFirst_of_not_mem {m : CodePoint} {others before : Text} (h : m ∉ before)
    (behind : Text) : IsFirst (m :: others) before behind := by
  intro front rear hsame
  by_contra hlt
  have hprefix : front <+: before :=
    List.prefix_of_prefix_length_le ⟨_, hsame.symm⟩ (List.prefix_append _ _) (by omega)
  obtain ⟨between, rfl⟩ := hprefix
  rw [List.append_assoc] at hsame
  have hrest := List.append_cancel_left hsame
  cases between with
  | nil => simp at hlt
  | cons c more =>
    obtain ⟨rfl, -⟩ := List.cons.inj hrest
    simp at h

end Text

namespace StringBody

/-! ## Digits of a code point -/

/-- Digits are read as a code point: they are a numeral of its number. -/
def SpellsLoosely (digits : Text) (c : CodePoint) : Prop := Numeral.IsHexadecimal c.toNat digits

/-- Plain digits are those of a code point. -/
def SpellsPlainly (digits : Text) (c : CodePoint) : Prop := Numeral.IsPlain c.toNat digits

/-- Digits are those of no code point: they are no numeral, or one of a number out of range. -/
inductive Misspells (digits : Text) : StringFault → Prop
  | notHexadecimal (h : ∀ i, ¬ Numeral.IsHexadecimal i digits) :
      Misspells digits (.notHexadecimal digits)
  | outOfRange {i : Int} (h : Numeral.IsHexadecimal i digits) (hrange : i < 0 ∨ 0x110000 ≤ i)
      (hword : i < 0x80000000) : Misspells digits .outOfRange
  | outOfWord {i : Int} (h : Numeral.IsHexadecimal i digits) (hword : 0x80000000 ≤ i) :
      Misspells digits .outOfWord

/-- Plain digits are those numerals that hold nothing lax. -/
theorem spellsPlainly_iff {digits : Text} {c : CodePoint} :
    SpellsPlainly digits c ↔
      SpellsLoosely digits c ∧ ∀ d ∈ digits, Numeral.isLax d = false := by
  constructor
  · exact fun h => ⟨.of_plain h, fun d hd => Numeral.isLax_of_isHexDigit (h.digits d hd)⟩
  · rintro ⟨h, hlax⟩
    obtain ⟨n, hn, hplain⟩ := h.plain hlax
    rw [SpellsPlainly, Int.ofNat_inj.mp hn]
    exact hplain

theorem codePoint_of_isHexadecimal {digits : Text} {i : Int}
    (h : Numeral.IsHexadecimal i digits) :
    codePoint digits =
      if 0x80000000 ≤ i then .error .outOfWord
      else if i < 0 then .error .outOfRange
      else
        match CodePoint.ofNat? i.toNat with
        | some c => .ok c
        | none => .error .outOfRange := by
  have hread := Numeral.integer?_eq_some.mpr h
  unfold codePoint
  generalize Numeral.integer? .hexadecimal digits = read at hread ⊢
  subst hread
  rfl

theorem codePoint_eq_ok {digits : Text} {c : CodePoint} :
    codePoint digits = .ok c ↔ SpellsLoosely digits c := by
  constructor
  · intro h
    cases hread : Numeral.integer? .hexadecimal digits with
    | none => simp [codePoint, hread] at h
    | some i =>
      have hnumeral := Numeral.integer?_eq_some.mp hread
      rw [codePoint_of_isHexadecimal hnumeral] at h
      split at h
      · cases h
      split at h
      · cases h
      · unfold CodePoint.ofNat? at h
        split at h
        · rename_i hsome
          split at hsome
          · cases h
            cases hsome
            have hsame : ((i.toNat : Nat) : Int) = i := by omega
            simpa [SpellsLoosely, hsame] using hnumeral
          · cases hsome
        · cases h
  · intro h
    have hlt := c.isLt
    have hword : ¬ (0x80000000 : Int) ≤ c.toNat := by omega
    rw [codePoint_of_isHexadecimal h, if_neg hword, if_neg (by omega)]
    simp [CodePoint.ofNat?, hlt]

theorem codePoint_eq_error {digits : Text} {fault : StringFault} :
    codePoint digits = .error fault ↔ Misspells digits fault := by
  constructor
  · intro h
    cases hread : Numeral.integer? .hexadecimal digits with
    | none =>
      simp only [codePoint, hread, Except.error.injEq] at h
      subst h
      refine .notHexadecimal fun i hi => ?_
      simp [Numeral.integer?_eq_some.mpr hi] at hread
    | some i =>
      have hnumeral := Numeral.integer?_eq_some.mp hread
      rw [codePoint_of_isHexadecimal hnumeral] at h
      split at h
      · cases h
        exact .outOfWord hnumeral ‹_›
      split at h
      · cases h
        exact .outOfRange hnumeral (.inl ‹_›) (by omega)
      · unfold CodePoint.ofNat? at h
        split at h
        · cases h
        · rename_i hnone
          cases h
          have hrange : ¬ i.toNat < 0x110000 := by simpa using hnone
          exact .outOfRange hnumeral (.inr (by omega)) (by omega)
  · intro h
    cases h with
    | notHexadecimal h =>
      have hnone : Numeral.integer? .hexadecimal digits = none := by
        rw [Option.eq_none_iff_forall_ne_some]
        exact fun i hi => h i (Numeral.integer?_eq_some.mp hi)
      rw [codePoint, hnone]
    | @outOfRange i h hrange hword =>
      rw [codePoint_of_isHexadecimal h, if_neg (by omega)]
      split
      · rfl
      · have hlarge : ¬ i.toNat < 0x110000 := by omega
        simp [CodePoint.ofNat?, hlarge]
    | outOfWord h hword => rw [codePoint_of_isHexadecimal h, if_pos hword]

/-! ## Rows of groups -/

/-- Digits in groups of a width are those of a text, group by group. -/
inductive Groups (spells : Text → CodePoint → Prop) (width : Nat) : Text → Text → Prop
  | nil : Groups spells width [] []
  | cons {group value digits : Text} {c : CodePoint} (hlength : group.length = width)
      (hspells : spells group c) (hmore : Groups spells width value digits) :
      Groups spells width (c :: value) (group ++ digits)

/-- In digits in groups of a width there is a group of no code point; the fault is that of the
first one. -/
inductive Misgrouped (width : Nat) : Text → StringFault → Prop
  | here {group : Text} {fault : StringFault} (hlength : group.length = width)
      (h : Misspells group fault) (digits : Text) : Misgrouped width (group ++ digits) fault
  | later {group digits : Text} {c : CodePoint} {fault : StringFault}
      (hlength : group.length = width) (hspells : SpellsLoosely group c)
      (h : Misgrouped width digits fault) : Misgrouped width (group ++ digits) fault

variable {spells : Text → CodePoint → Prop} {width : Nat} {value digits rest behind : Text}

theorem Groups.mono {other : Text → CodePoint → Prop}
    (hother : ∀ group c, spells group c → other group c) (h : Groups spells width value digits) :
    Groups other width value digits := by
  induction h with
  | nil => exact .nil
  | cons hlength hspells _ ih => exact .cons hlength (hother _ _ hspells) ih

theorem Groups.dvd_length (h : Groups spells width value digits) : width ∣ digits.length := by
  induction h with
  | nil => simp
  | cons hlength _ _ ih =>
    rw [List.length_append, hlength]
    exact Nat.dvd_add (Nat.dvd_refl _) ih

/-- What holds of the code points of all groups holds of the digits. -/
theorem Groups.of_mem {p : CodePoint → Prop} (h : Groups spells width value digits)
    (hp : ∀ group c, spells group c → ∀ d ∈ group, p d) : ∀ d ∈ digits, p d := by
  induction h with
  | nil => simp
  | cons _ hspells _ ih =>
    intro d hd
    rcases List.mem_append.mp hd with hd | hd
    · exact hp _ _ hspells d hd
    · exact ih d hd

theorem codePoints_append {group : Text} (hwidth : 0 < width) (hlength : group.length = width)
    (digits : Text) :
    codePoints width (group ++ digits) =
      match codePoint group with
      | .error fault => .error fault
      | .ok c =>
        match codePoints width digits with
        | .error fault => .error fault
        | .ok rest => .ok (c :: rest) := by
  have hsome : ¬(group ++ digits = [] ∨ width = 0) := by
    rintro (hnil | hzero)
    · simp [(List.append_eq_nil_iff.mp hnil).1] at hlength
      omega
    · omega
  rw [codePoints, List.take_left' hlength, List.drop_left' hlength]
  exact if_neg hsome

/-- Digits that come out even are a group and digits that come out even, if any. -/
theorem exists_group (h : width ∣ digits.length) (hsome : digits ≠ []) :
    ∃ group more : Text, digits = group ++ more ∧ group.length = width ∧ width ∣ more.length := by
  have hle : width ≤ digits.length := Nat.le_of_dvd (List.length_pos_of_ne_nil hsome) h
  refine ⟨digits.take width, digits.drop width, by simp, List.length_take_of_le hle, ?_⟩
  rw [List.length_drop]
  exact Nat.dvd_sub h (Nat.dvd_refl _)

theorem codePoints_eq_ok (hwidth : 0 < width) (hdigits : width ∣ digits.length) :
    codePoints width digits = .ok value ↔ Groups SpellsLoosely width value digits := by
  constructor
  · intro h
    fun_induction codePoints width digits generalizing value with
    | case1 digits hnone =>
      cases h
      obtain rfl : digits = [] := hnone.resolve_right (by omega)
      exact .nil
    | case2 => cases h
    | case3 => cases h
    | case4 digits hsome c hc more hmore ih =>
      cases h
      obtain ⟨group, later, rfl, hlength, hlater⟩ :=
        exists_group hdigits fun hnil => hsome (.inl hnil)
      rw [List.take_left' hlength] at hc
      rw [List.drop_left' hlength] at hmore ih
      exact .cons hlength (codePoint_eq_ok.mp hc) (ih hlater hmore)
  · intro h
    induction h with
    | nil => simp [codePoints]
    | cons hlength hspells hmore ih =>
      rw [codePoints_append hwidth hlength, codePoint_eq_ok.mpr hspells, ih hmore.dvd_length]

theorem codePoints_eq_error {fault : StringFault} (hwidth : 0 < width)
    (hdigits : width ∣ digits.length) :
    codePoints width digits = .error fault ↔ Misgrouped width digits fault := by
  constructor
  · intro h
    fun_induction codePoints width digits with
    | case1 => cases h
    | case2 digits hsome own hown =>
      cases h
      obtain ⟨group, later, rfl, hlength, -⟩ :=
        exists_group hdigits fun hnil => hsome (.inl hnil)
      rw [List.take_left' hlength] at hown
      exact .here hlength (codePoint_eq_error.mp hown) later
    | case3 digits hsome c hc own hown ih =>
      cases h
      obtain ⟨group, later, rfl, hlength, hlater⟩ :=
        exists_group hdigits fun hnil => hsome (.inl hnil)
      rw [List.take_left' hlength] at hc
      rw [List.drop_left' hlength] at hown ih
      exact .later hlength (codePoint_eq_ok.mp hc) (ih hlater hown)
    | case4 => cases h
  · intro h
    induction h with
    | here hlength h digits =>
      rw [codePoints_append hwidth hlength, codePoint_eq_error.mpr h]
    | later hlength hspells _ ih =>
      have hmore : width ∣ _ := (Nat.dvd_add_right (Nat.dvd_refl width)).mp (by
        simpa [hlength] using hdigits)
      rw [codePoints_append hwidth hlength, codePoint_eq_ok.mpr hspells, ih hmore]

end StringBody

end Part21
