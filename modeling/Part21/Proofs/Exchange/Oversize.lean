import Part21.Proofs.Exchange.Continuation

set_option autoImplicit false

/-!
# Literals that are too large

Some literals are too large to be handled at all: a row of digits beyond the limit for integers,
and a directive that spells a number of more than 31 bits for a code point.  Their faults are those
that are reported without a place (`LexFault.isLocated`).  Wherever no lexeme can be cut for
another reason the fault has one: `Cut.located_of_first`.
-/

namespace Part21

namespace StringBody

/-- Digits that spell a number of more than 31 bits where a code point has to be. -/
def OutOfWord (group : Text) : Prop :=
  ∃ n, Numeral.integer? .hexadecimal group = some n ∧ 0x80000000 ≤ n

theorem outOfWord_of_codePoint {digits : Text} (h : codePoint digits = .error .outOfWord) :
    OutOfWord digits := by
  unfold codePoint at h
  split at h
  · cases h
  · rename_i n hn
    split at h
    · rename_i hlarge
      exact ⟨n, hn, hlarge⟩
    · repeat' split at h
      all_goals cases h

theorem outOfWord_of_codePoints {width : Nat} {digits : Text}
    (h : codePoints width digits = .error .outOfWord) : ∃ group, group <:+: digits ∧
      OutOfWord group := by
  fun_induction codePoints width digits with
  | case1 => cases h
  | case2 digits hsome fault hfault =>
    cases h
    exact ⟨_, (List.take_prefix _ _).isInfix, outOfWord_of_codePoint hfault⟩
  | case3 digits hsome c hc fault hfault ih =>
    cases h
    obtain ⟨group, hgroup, hlarge⟩ := ih hfault
    exact ⟨group, hgroup.trans (List.drop_suffix _ _).isInfix, hlarge⟩
  | case4 => cases h

theorem outOfWord_of_extended {width : Nat} {rest : Text}
    (h : extended width rest = .error .outOfWord) : ∃ group, group <:+: rest ∧
      OutOfWord group := by
  unfold extended at h
  split at h
  · cases h
  · rename_i digits behind hcut
    split at h
    · cases h
    · split at h
      · rename_i fault hfault
        cases h
        obtain ⟨group, hgroup, hlarge⟩ := outOfWord_of_codePoints hfault
        obtain ⟨hparts, -⟩ := Cut.cut?_eq_some (by decide) hcut []
        exact ⟨group, hgroup.trans (hparts ▸ (List.prefix_append _ _).isInfix), hlarge⟩
      · cases h

theorem outOfWord_of_coded {rest : Text} (h : coded rest = .error .outOfWord) :
    ∃ group, group <:+: rest ∧ OutOfWord group := by
  unfold coded at h
  split at h
  · cases h
  · split at h
    · rename_i fault hfault
      cases h
      exact ⟨_, (List.take_prefix _ _).isInfix, outOfWord_of_codePoint hfault⟩
    · cases h

theorem outOfWord_of_directive {rest : Text} (h : directive rest = .error .outOfWord) :
    ∃ group, group <:+: rest ∧ OutOfWord group := by
  have hbehind : ∀ {n : Nat}, (∃ group, group <:+: rest.drop n ∧ OutOfWord group) →
      ∃ group, group <:+: rest ∧ OutOfWord group := by
    rintro n ⟨group, hgroup, hlarge⟩
    exact ⟨group, hgroup.trans (List.drop_suffix n rest).isInfix, hlarge⟩
  unfold directive at h
  split at h
  · cases h
  split at h
  · cases h
  split at h
  · exact hbehind (outOfWord_of_extended h)
  split at h
  · exact hbehind (outOfWord_of_extended h)
  split at h
  · exact hbehind (outOfWord_of_coded h)
  split at h
  · unfold shifted at h
    repeat' split at h
    all_goals cases h
  · split at h <;> cases h

/-- A body is beyond handling only where it has such digits. -/
theorem outOfWord_of_decodeLine {body : Text} (h : decodeLine body = .error .outOfWord) :
    ∃ group, group <:+: body ∧ OutOfWord group := by
  have hstep : ∀ {c : CodePoint} {rest : Text} {n : Nat},
      (∃ group, group <:+: rest.drop n ∧ OutOfWord group) →
        ∃ group, group <:+: c :: rest ∧ OutOfWord group := by
    rintro c rest n ⟨group, hgroup, hlarge⟩
    have hrest : group <:+: rest := hgroup.trans (List.drop_suffix n rest).isInfix
    exact ⟨group, hrest.trans (List.suffix_cons c rest).isInfix, hlarge⟩
  fun_induction decodeLine body with
  | case1 => cases h
  | case2 rest fault hfault ih =>
    cases h
    exact hstep (ih hfault)
  | case3 => cases h
  | case4 rest fault hfault =>
    cases h
    exact @hstep _ rest 0 (outOfWord_of_directive hfault)
  | case5 rest reading hreading fault hfault hc ih =>
    cases h
    exact hstep (ih hfault)
  | case6 => cases h
  | case7 c rest hquote hstroke fault hfault ih =>
    cases h
    exact @hstep _ rest 0 (ih hfault)
  | case8 => cases h

end StringBody

namespace Cut

/-- A literal that is too large to be handled starts a text: an integer or the name of an instance
with more digits than are read, or a string with a directive that spells more than a code point
can be. -/
inductive Oversized : Text → LexFault → Prop
  | integer {sign : Sign} {digits behind : Text} (hdigits : digits.IsNumeral)
      (hlimit : Numeral.digitLimit < digits.length) (hfraction : fraction? behind = none)
      (hexponent : exponent? behind = none) :
      Oversized (sign.text ++ (digits ++ behind)) (.tooManyDigits digits.length)
  | entityName {digits behind : Text} (hdigits : digits.IsNumeral)
      (hlimit : Numeral.digitLimit < digits.length) :
      Oversized ("#" ++ (digits ++ behind)) (.tooManyDigits digits.length)
  | string {body behind group : Text}
      (hgroup : group <:+: body.filter fun c => !StringBody.breaksLine c)
      (hlarge : StringBody.OutOfWord group) :
      Oversized ("'" ++ (body ++ ("'" ++ behind))) (.badString .outOfWord)

theorem isNumeral_takeWhile {t : Text} (h : startsWithDigit t = true) :
    Text.IsNumeral (t.takeWhile CodePoint.isDigit) where
  some := by
    cases t with
    | nil => cases h
    | cons c rest =>
      have hc : c.isDigit = true := h
      rw [List.takeWhile_cons_of_pos hc]
      exact List.cons_ne_nil _ _
  digits c hmem := List.mem_takeWhile_imp hmem

theorem checkDigits_eq_error {digits : Text} {fault : LexFault}
    (h : checkDigits digits = .error fault) :
    Numeral.digitLimit < digits.length ∧ fault = .tooManyDigits digits.length := by
  unfold checkDigits at h
  split at h
  · rename_i hlimit
    cases h
    exact ⟨hlimit, rfl⟩
  · cases h

/-- Digits that are no number have a row beyond the limit, and neither a fraction nor an exponent
behind it. -/
theorem oversized_of_number {sign : Sign} {signLength : Nat} {t : Text} {fault : LexFault}
    (ht : startsWithDigit t = true)
    (h : number sign.isNegative signLength t = .error fault) :
    Oversized (sign.text ++ t) fault := by
  unfold number at h
  dsimp only at h
  split at h
  · cases h
  · rename_i hfraction
    split at h
    · cases h
    · rename_i hexponent
      split at h
      · rename_i own hown
        cases h
        obtain ⟨hlimit, rfl⟩ := checkDigits_eq_error hown
        have hparts := List.take_append_drop (t.takeWhile CodePoint.isDigit).length t
        rw [← List.prefix_iff_eq_take.mp (List.takeWhile_prefix _)] at hparts
        have hwhole :=
          @Oversized.integer sign _ _ (isNumeral_takeWhile ht) hlimit hfraction hexponent
        rwa [hparts] at hwhole
      · cases h

theorem oversized_of_entityName {t : Text} {fault : LexFault} (ht : startsWithDigit t = true)
    (h : entityName t = .error fault) : Oversized ("#" ++ t) fault := by
  unfold entityName at h
  dsimp only at h
  split at h
  · rename_i own hown
    cases h
    obtain ⟨hlimit, rfl⟩ := checkDigits_eq_error hown
    have hwhole := @Oversized.entityName _ (t.drop (t.takeWhile CodePoint.isDigit).length)
      (isNumeral_takeWhile ht) hlimit
    rwa [List.prefix_iff_eq_append.mp (List.takeWhile_prefix _)] at hwhole
  · cases h

theorem oversized_of_string {t : Text} {fault : LexFault} (h : string t = .error fault) :
    fault.isLocated = true ∨ Oversized ("'" ++ t) fault := by
  unfold string at h
  split at h
  · cases h
    exact .inl rfl
  · rename_i length hlength
    split at h
    · rename_i own hown
      cases h
      cases own
      case outOfWord =>
        obtain ⟨group, hgroup, hlarge⟩ := StringBody.outOfWord_of_decodeLine hown
        obtain ⟨behind, hbehind, -⟩ := bodyLength?_eq_some hlength
        have hwhole := @Oversized.string (t.take length) behind _ hgroup hlarge
        have hparts : t.take length ++ (Text.ofString "'" ++ behind) = t := by
          conv_rhs => rw [← List.take_append_drop length t, hbehind]
          rfl
        rw [hparts] at hwhole
        exact .inr hwhole
      all_goals exact .inl rfl
    · cases h

/-- Where no lexeme can be cut, the fault has a place or the text starts with a literal that is too
large. -/
theorem located_of_first {c : CodePoint} {rest : Text} {fault : LexFault}
    (h : first c rest = .error fault) :
    fault.isLocated = true ∨ Oversized (c :: rest) fault := by
  unfold first at h
  dsimp only at h
  split at h
  · cases h
  split at h
  · split at h
    · cases h
    · cases h
      exact .inl rfl
  split at h
  · cases h
  split at h
  · cases h
  split at h
  · rename_i hc
    exact .inr (@oversized_of_number .absent _ _ _ hc h)
  split at h
  · rename_i hsign
    obtain ⟨hsign, hrest⟩ := hsign
    rcases hsign with rfl | rfl
    · exact .inr (@oversized_of_number .plus _ _ _ hrest h)
    · exact .inr (@oversized_of_number .minus _ _ _ hrest h)
  split at h
  · rename_i hname
    obtain ⟨rfl, hrest⟩ := hname
    exact .inr (oversized_of_entityName hrest h)
  split at h
  · rename_i hquote
    subst hquote
    exact oversized_of_string h
  split at h
  · cases rest with
    | nil =>
      cases h
      exact .inl rfl
    | cons unused rest =>
      unfold binary at h
      dsimp only at h
      split at h <;> cases h
      exact .inl rfl
  split at h
  · cases h
  split at h
  · cases h
  split at h
  · cases h
  · cases h
    exact .inl rfl

end Cut

end Part21
