import Part21.Proofs.Exchange.Digits

set_option autoImplicit false

/-!
# How the body of a string literal is read

A body is read from left to right, a directive as a whole.  `Reads` says which bodies are read as
which values, and `Rejects` in which ones a directive is malformed and what is wrong with the first
that is; neither mentions how a body is decoded, and every body is one or the other
(`decodeLine_eq_ok`, `decodeLine_eq_error`).

A directive with plain digits is read as it should be, but so is one with any other numeral of the
same length: `decode_directives` says so for all bodies, and `decode_lax` shows a malformed
directive that is read.
-/

namespace Part21

namespace StringBody

variable {spells : Text → CodePoint → Prop} {width : Nat} {value digits rest behind : Text}

/-! ## Directives -/

/-- The marks that open a directive of several code points, behind its backslash, and the width of
its groups. -/
inductive RunMark : Nat → Text → Prop
  | four : RunMark 4 "X2\\"
  | eight : RunMark 8 "X4\\"

/-- A text behind a backslash starts like a directive. -/
inductive Starts : Text → Prop
  | stroke (behind : Text) : Starts ("\\" ++ behind)
  | run {mark : Text} {width : Nat} (hmark : RunMark width mark) (rest : Text) :
      Starts (mark ++ rest)
  | code (rest : Text) : Starts ("X\\" ++ rest)
  | shift (rest : Text) : Starts ("S\\" ++ rest)
  | alphabet {letter : CodePoint} (hletter : letter.between 'A' 'I' = true) (behind : Text) :
      Starts ("P" ++ letter :: ("\\" ++ behind))

/-- What a directive stands for, and what is left behind it.  A backslash that starts none stands
for itself.  `spells` says which digits spell a code point. -/
inductive Directive (spells : Text → CodePoint → Prop) : Text → Text → Text → Prop
  | stroke (behind : Text) : Directive spells "\\" ("\\" ++ behind) behind
  | run {width : Nat} {mark value digits : Text} (hmark : RunMark width mark)
      (hdigits : Groups spells width value digits) (behind : Text) :
      Directive spells value (mark ++ (digits ++ ("\\X0\\" ++ behind))) behind
  | code {group : Text} {c : CodePoint} (hlength : group.length = 2) (hspells : spells group c)
      (behind : Text) : Directive spells [c] ("X\\" ++ (group ++ behind)) behind
  | shift {c d : CodePoint} (hquote : c ≠ '\'') (hd : d.toNat = c.toNat + 128) (behind : Text) :
      Directive spells [d] ("S\\" ++ c :: behind) behind
  -- The code point behind an apostrophe is taken for its double, whatever it is.
  | shiftQuote {d : CodePoint} (hd : d.toNat = (CodePoint.ofChar '\'').toNat + 128)
      (rest : Text) : Directive spells [d] ("S\\" ++ CodePoint.ofChar '\'' :: rest) (rest.drop 1)
  | alphabet {letter : CodePoint} (hletter : letter.between 'A' 'I' = true) (behind : Text) :
      Directive spells [] ("P" ++ letter :: ("\\" ++ behind)) behind
  | none {rest : Text} (h : ¬ Starts rest) : Directive spells "\\" rest rest

/-- What is wrong with the directive that a text behind a backslash starts with. -/
inductive Malformed : Text → StringFault → Prop
  | unclosed {width : Nat} {mark rest : Text} (hmark : RunMark width mark)
      (h : ¬ Text.ofString "\\X0\\" <:+: rest) : Malformed (mark ++ rest) .unclosed
  | uneven {width : Nat} {mark digits behind : Text} (hmark : RunMark width mark)
      (hfirst : Text.IsFirst "\\X0\\" digits behind) (h : ¬ width ∣ digits.length) :
      Malformed (mark ++ (digits ++ ("\\X0\\" ++ behind))) (.unevenDigits digits)
  | run {width : Nat} {mark digits behind : Text} {fault : StringFault}
      (hmark : RunMark width mark) (hfirst : Text.IsFirst "\\X0\\" digits behind)
      (hlength : width ∣ digits.length) (h : Misgrouped width digits fault) :
      Malformed (mark ++ (digits ++ ("\\X0\\" ++ behind))) fault
  | truncated {rest : Text} (h : rest.length < 2) : Malformed ("X\\" ++ rest) .truncatedCode
  | code {group : Text} {fault : StringFault} (hlength : group.length = 2)
      (h : Misspells group fault) (behind : Text) : Malformed ("X\\" ++ (group ++ behind)) fault
  | unshifted : Malformed "S\\" .truncatedShift
  | shift {c : CodePoint} (h : 0x110000 ≤ c.toNat + 128) (behind : Text) :
      Malformed ("S\\" ++ c :: behind) .outOfRange

theorem RunMark.width_pos {mark : Text} (h : RunMark width mark) : 0 < width := by
  cases h <;> decide

theorem RunMark.length {mark : Text} (h : RunMark width mark) : mark.length = 3 := by
  cases h <;> rfl

theorem directive_stroke (behind : Text) :
    directive ("\\" ++ behind) = .ok ⟨"\\", 1⟩ := by
  simp [directive, Text.ofString]

theorem directive_run {mark : Text} (h : RunMark width mark) (rest : Text) :
    directive (mark ++ rest) = extended width rest := by
  have hX : CodePoint.ofChar 'X' ≠ CodePoint.ofChar '\\' := by decide
  have hwidth : CodePoint.ofChar '2' ≠ CodePoint.ofChar '4' := by decide
  cases h <;> simp [directive, Text.ofString, hX, hwidth]

theorem directive_code (rest : Text) : directive ("X\\" ++ rest) = coded rest := by
  have hX : CodePoint.ofChar 'X' ≠ CodePoint.ofChar '\\' := by decide
  have htwo : CodePoint.ofChar '2' ≠ CodePoint.ofChar '\\' := by decide
  have hfour : CodePoint.ofChar '4' ≠ CodePoint.ofChar '\\' := by decide
  simp [directive, Text.ofString, hX, htwo, hfour]

theorem directive_shift (rest : Text) : directive ("S\\" ++ rest) = shifted rest := by
  have hS : CodePoint.ofChar 'S' ≠ CodePoint.ofChar '\\' := by decide
  have hX : CodePoint.ofChar 'X' ≠ CodePoint.ofChar 'S' := by decide
  simp [directive, Text.ofString, hS, hX]

theorem directive_alphabet {letter : CodePoint} (hletter : letter.between 'A' 'I' = true)
    (behind : Text) : directive ("P" ++ letter :: ("\\" ++ behind)) = .ok ⟨[], 3⟩ := by
  have hP : CodePoint.ofChar 'P' ≠ CodePoint.ofChar '\\' := by decide
  have hX : CodePoint.ofChar 'X' ≠ CodePoint.ofChar 'P' := by decide
  have hS : CodePoint.ofChar 'S' ≠ CodePoint.ofChar 'P' := by decide
  simp [directive, Text.ofString, hP, hX, hS, choosesAlphabet, hletter]

/-- What starts no directive is left where it is. -/
theorem directive_none (h : ¬ Starts rest) : directive rest = .ok ⟨"\\", 0⟩ := by
  have hprefix : ∀ mark : Text, mark.isPrefixOf rest = true → ∃ more, rest = mark ++ more :=
    fun mark hmark => by
      obtain ⟨more, hmore⟩ := List.isPrefixOf_iff_prefix.mp hmark
      exact ⟨more, hmore.symm⟩
  unfold directive
  split
  · rfl
  split
  · rename_i hstroke
    subst hstroke
    exact absurd (.stroke _) h
  split
  · rename_i hmark
    obtain ⟨more, hmore⟩ := hprefix _ hmark
    exact absurd (hmore ▸ .run .four more) h
  split
  · rename_i hmark
    obtain ⟨more, hmore⟩ := hprefix _ hmark
    exact absurd (hmore ▸ .run .eight more) h
  split
  · rename_i hmark
    obtain ⟨more, hmore⟩ := hprefix _ hmark
    exact absurd (hmore ▸ .code more) h
  split
  · rename_i hmark
    obtain ⟨more, hmore⟩ := hprefix _ hmark
    exact absurd (hmore ▸ .shift more) h
  split
  · rename_i halphabet
    unfold choosesAlphabet at halphabet
    split at halphabet
    · rename_i p letter close more hrest
      simp only [Bool.and_eq_true, decide_eq_true_eq] at halphabet
      obtain ⟨⟨rfl, hletter⟩, rfl⟩ := halphabet
      exact absurd (hrest ▸ Starts.alphabet hletter more) h
    · cases halphabet
  · rfl

/-- No backslash stands among the digits of a directive, so that its end is the first one. -/
theorem Groups.isFirst (h : Groups SpellsLoosely width value digits) (behind : Text) :
    Text.IsFirst "\\X0\\" digits behind := by
  refine Text.isFirst_of_not_mem (fun hmem => ?_) behind
  have hmade := h.of_mem (p := fun d => Numeral.isLax d = true ∨ d.isHexDigit = true)
    (fun group c hspells d hd => hspells.of_mem hd) _ hmem
  exact absurd hmade (by decide)

theorem drop_run {mark : Text} (hmark : RunMark width mark) (digits behind : Text) :
    (mark ++ (digits ++ ("\\X0\\" ++ behind))).drop (3 + digits.length + 4) = behind := by
  have hend : (Text.ofString "\\X0\\").length = 4 := rfl
  have hlength : 3 + digits.length + 4 =
      (mark ++ (digits ++ Text.ofString "\\X0\\")).length := by
    simp only [List.length_append, hmark.length, hend]
    omega
  rw [hlength, ← List.append_assoc digits, ← List.append_assoc mark (digits ++ _), List.drop_left]

theorem drop_code {group : Text} (hlength : group.length = 2) (behind : Text) :
    ("X\\" ++ (group ++ behind) : Text).drop 4 = behind := by
  rw [← List.append_assoc]
  exact List.drop_left' (by rw [List.length_append, hlength]; rfl)

theorem coded_append {group : Text} (hlength : group.length = 2) (behind : Text) :
    coded (group ++ behind) =
      match codePoint group with
      | .error fault => .error fault
      | .ok c => .ok ⟨[c], 4⟩ := by
  rw [coded, List.take_left' hlength]
  exact if_neg (by simp [hlength])

theorem shifted_cons (c : CodePoint) (behind : Text) :
    shifted (c :: behind) =
      if h : c.toNat + 128 < 0x110000 then
        .ok ⟨[⟨c.toNat + 128, h⟩], if c = '\'' then 4 else 3⟩
      else .error .outOfRange := by
  rw [shifted, CodePoint.ofNat?]
  split
  · rename_i d hd
    split at hd <;> cases hd
    rw [dif_pos]
  · rename_i hnone
    split at hnone <;> cases hnone
    rw [dif_neg ‹_›]

/-- What is read as a directive is one. -/
theorem directive_of_ok {reading : Reading} (h : directive rest = .ok reading) :
    Directive SpellsLoosely reading.value rest (rest.drop reading.length) := by
  by_cases hstarts : Starts rest
  · cases hstarts with
    | stroke behind =>
      rw [directive_stroke] at h
      cases h
      exact .stroke behind
    | run hmark rest =>
      rw [directive_run hmark, extended] at h
      split at h
      · cases h
      · rename_i digits behind hcut
        obtain ⟨rfl, -⟩ := (Text.cut?_eq_some_iff (by decide)).mp hcut
        split at h
        · cases h
        · rename_i hlength
          split at h
          · cases h
          · rename_i value hvalue
            cases h
            rw [drop_run hmark]
            have hdvd := Nat.dvd_of_mod_eq_zero (not_not.mp hlength)
            exact .run hmark ((codePoints_eq_ok hmark.width_pos hdvd).mp hvalue) behind
    | code rest =>
      rw [directive_code] at h
      by_cases hshort : (rest.take 2).length = 2
      · rw [← List.take_append_drop 2 rest] at h ⊢
        rw [coded_append hshort] at h
        split at h
        · cases h
        · rename_i c hc
          cases h
          rw [drop_code hshort]
          exact .code hshort (codePoint_eq_ok.mp hc) (rest.drop 2)
      · rw [coded, if_pos hshort] at h
        cases h
    | shift rest =>
      rw [directive_shift] at h
      cases rest with
      | nil => cases h
      | cons c behind =>
        rw [shifted_cons] at h
        split at h
        · cases h
          by_cases hquote : c = '\''
          · subst hquote
            exact .shiftQuote rfl behind
          · simp only [if_neg hquote]
            exact .shift hquote rfl behind
        · cases h
    | alphabet hletter behind =>
      rw [directive_alphabet hletter] at h
      cases h
      exact .alphabet hletter behind
  · rw [directive_none hstarts] at h
    cases h
    exact .none hstarts

/-- All directives are read. -/
theorem Directive.read (h : Directive SpellsLoosely value rest behind) :
    ∃ length, directive rest = .ok ⟨value, length⟩ ∧ rest.drop length = behind := by
  cases h with
  | stroke behind => exact ⟨1, directive_stroke behind, rfl⟩
  | @run width mark _ digits hmark hdigits behind =>
    have hcut := (Text.cut?_eq_some_iff (by decide)).mpr ⟨rfl, hdigits.isFirst behind⟩
    have hlength : digits.length % width = 0 := Nat.mod_eq_zero_of_dvd hdigits.dvd_length
    refine ⟨3 + digits.length + 4, ?_, drop_run hmark digits behind⟩
    rw [directive_run hmark, extended, hcut]
    simp [hlength, (codePoints_eq_ok hmark.width_pos hdigits.dvd_length).mpr hdigits]
  | @code group c hlength hspells behind =>
    refine ⟨4, ?_, drop_code hlength behind⟩
    rw [directive_code, coded_append hlength, codePoint_eq_ok.mpr hspells]
  | @shift c d hquote hd behind =>
    have hlt : c.toNat + 128 < 0x110000 := hd ▸ d.isLt
    refine ⟨3, ?_, rfl⟩
    have hsame : (⟨c.toNat + 128, hlt⟩ : CodePoint) = d := CodePoint.toNat_injective hd.symm
    rw [directive_shift, shifted_cons, dif_pos hlt, if_neg hquote, hsame]
  | @shiftQuote d hd rest =>
    have hsame : (⟨(CodePoint.ofChar '\'').toNat + 128, by decide⟩ : CodePoint) = d :=
      CodePoint.toNat_injective hd.symm
    refine ⟨4, ?_, rfl⟩
    rw [directive_shift, shifted_cons, dif_pos (by decide), if_pos rfl, hsame]
  | alphabet hletter behind => exact ⟨3, directive_alphabet hletter behind, rfl⟩
  | none h => exact ⟨0, directive_none h, rfl⟩

/-- A refused directive is malformed. -/
theorem malformed_of_directive {fault : StringFault} (h : directive rest = .error fault) :
    Malformed rest fault := by
  by_cases hstarts : Starts rest
  · cases hstarts with
    | stroke behind =>
      rw [directive_stroke] at h
      cases h
    | run hmark rest =>
      rw [directive_run hmark, extended] at h
      split at h
      · rename_i hnone
        cases h
        exact .unclosed hmark ((Text.cut?_eq_none (by decide)).mp hnone)
      · rename_i digits behind hcut
        obtain ⟨rfl, hfirst⟩ := (Text.cut?_eq_some_iff (by decide)).mp hcut
        split at h
        · rename_i hlength
          cases h
          exact .uneven hmark hfirst fun hdvd => hlength (Nat.mod_eq_zero_of_dvd hdvd)
        · rename_i hlength
          split at h
          · rename_i own hown
            cases h
            have hdvd := Nat.dvd_of_mod_eq_zero (not_not.mp hlength)
            exact .run hmark hfirst hdvd ((codePoints_eq_error hmark.width_pos hdvd).mp hown)
          · cases h
    | code rest =>
      rw [directive_code] at h
      by_cases hshort : (rest.take 2).length = 2
      · rw [← List.take_append_drop 2 rest] at h ⊢
        rw [coded_append hshort] at h
        split at h
        · rename_i own hown
          cases h
          exact .code hshort (codePoint_eq_error.mp hown) (rest.drop 2)
        · cases h
      · rw [coded, if_pos hshort] at h
        cases h
        rw [List.length_take] at hshort
        exact .truncated (by omega)
    | shift rest =>
      rw [directive_shift] at h
      cases rest with
      | nil =>
        cases h
        exact .unshifted
      | cons c behind =>
        rw [shifted_cons] at h
        split at h
        · cases h
        · cases h
          exact .shift (by omega) behind
    | alphabet hletter behind =>
      rw [directive_alphabet hletter] at h
      cases h
  · rw [directive_none hstarts] at h
    cases h

/-- A malformed directive is refused. -/
theorem directive_of_malformed {fault : StringFault} (h : Malformed rest fault) :
    directive rest = .error fault := by
  cases h with
  | unclosed hmark h =>
    rw [directive_run hmark, extended, (Text.cut?_eq_none (by decide)).mpr h]
  | uneven hmark hfirst h =>
    have hcut := (Text.cut?_eq_some_iff (by decide)).mpr ⟨rfl, hfirst⟩
    rw [directive_run hmark, extended, hcut]
    exact if_pos fun hlength => h (Nat.dvd_of_mod_eq_zero hlength)
  | run hmark hfirst hlength h =>
    have hcut := (Text.cut?_eq_some_iff (by decide)).mpr ⟨rfl, hfirst⟩
    rw [directive_run hmark, extended, hcut]
    simp [Nat.mod_eq_zero_of_dvd hlength, (codePoints_eq_error hmark.width_pos hlength).mpr h]
  | truncated h =>
    rw [directive_code, coded, if_pos]
    rw [List.length_take]
    omega
  | code hlength h behind =>
    rw [directive_code, coded_append hlength, codePoint_eq_error.mpr h]
  | unshifted => rfl
  | shift h behind =>
    rw [directive_shift, shifted_cons, dif_neg (by omega)]

/-- What is wrong with a directive is reported. -/
theorem directive_eq_error {fault : StringFault} :
    directive rest = .error fault ↔ Malformed rest fault :=
  ⟨malformed_of_directive, directive_of_malformed⟩

/-! ## Bodies -/

/-- A body without line breaks is read as a value: its directives as what they stand for, a doubled
apostrophe as one, and all else as it is.  `spells` says which digits spell a code point. -/
inductive Reads (spells : Text → CodePoint → Prop) : Text → Text → Prop
  | nil : Reads spells [] []
  | plain {c : CodePoint} {value rest : Text} (hquote : c ≠ '\'') (hstroke : c ≠ '\\')
      (hrest : Reads spells value rest) : Reads spells (c :: value) (c :: rest)
  -- The code point behind an apostrophe is taken for its double, whatever it is.
  | quote {value rest : Text} (hrest : Reads spells value (rest.drop 1)) :
      Reads spells (CodePoint.ofChar '\'' :: value) (CodePoint.ofChar '\'' :: rest)
  | directive {own value rest behind : Text} (h : Directive spells own rest behind)
      (hrest : Reads spells value behind) :
      Reads spells (own ++ value) (CodePoint.ofChar '\\' :: rest)

/-- A body without line breaks is not read: behind what is read stands a directive that is
malformed, and this is what is wrong with it. -/
inductive Rejects : Text → StringFault → Prop
  | here {rest : Text} {fault : StringFault} (h : Malformed rest fault) :
      Rejects (CodePoint.ofChar '\\' :: rest) fault
  | plain {c : CodePoint} {rest : Text} {fault : StringFault} (hquote : c ≠ '\'')
      (hstroke : c ≠ '\\') (hrest : Rejects rest fault) : Rejects (c :: rest) fault
  | quote {rest : Text} {fault : StringFault} (hrest : Rejects (rest.drop 1) fault) :
      Rejects (CodePoint.ofChar '\'' :: rest) fault
  | directive {own rest behind : Text} {fault : StringFault}
      (h : Directive SpellsLoosely own rest behind) (hrest : Rejects behind fault) :
      Rejects (CodePoint.ofChar '\\' :: rest) fault

theorem Directive.mono {other : Text → CodePoint → Prop}
    (hother : ∀ group c, spells group c → other group c)
    (h : Directive spells value rest behind) : Directive other value rest behind := by
  cases h with
  | stroke behind => exact .stroke behind
  | run hmark hdigits behind => exact .run hmark (hdigits.mono hother) behind
  | code hlength hspells behind => exact .code hlength (hother _ _ hspells) behind
  | shift hquote hd behind => exact .shift hquote hd behind
  | shiftQuote hd rest => exact .shiftQuote hd rest
  | alphabet hletter behind => exact .alphabet hletter behind
  | none h => exact .none h

theorem Reads.mono {body : Text} {other : Text → CodePoint → Prop}
    (hother : ∀ group c, spells group c → other group c) (h : Reads spells value body) :
    Reads other value body := by
  induction h with
  | nil => exact .nil
  | plain hquote hstroke _ ih => exact .plain hquote hstroke ih
  | quote _ ih => exact .quote ih
  | directive h _ ih => exact .directive (h.mono hother) ih

/-- The bodies that are decoded are those that are read. -/
theorem decodeLine_eq_ok {body : Text} :
    decodeLine body = .ok value ↔ Reads SpellsLoosely value body := by
  constructor
  · intro h
    fun_induction decodeLine body generalizing value with
    | case1 =>
      cases h
      exact .nil
    | case3 rest more hmore ih =>
      cases h
      exact .quote (ih hmore)
    | case6 rest reading hreading more hmore hquote ih =>
      cases h
      exact .directive (directive_of_ok hreading) (ih hmore)
    | case8 c rest hquote hstroke more hmore ih =>
      cases h
      exact .plain hquote hstroke (ih hmore)
    | case2 | case4 | case5 | case7 => cases h
  · intro h
    induction h with
    | nil => rw [decodeLine]
    | plain hquote hstroke _ ih => rw [decodeLine, if_neg hquote, if_neg hstroke, ih]
    | quote _ ih => rw [decodeLine, if_pos rfl, ih]
    | directive h _ ih =>
      obtain ⟨length, hread, hbehind⟩ := h.read
      rw [decodeLine, if_neg (by decide), if_pos rfl, hread]
      dsimp only
      rw [hbehind, ih]

/-- The bodies that fail are those with a malformed directive, and its fault is reported. -/
theorem decodeLine_eq_error {body : Text} {fault : StringFault} :
    decodeLine body = .error fault ↔ Rejects body fault := by
  constructor
  · intro h
    fun_induction decodeLine body with
    | case2 rest own hown ih =>
      cases h
      exact .quote (ih hown)
    | case4 rest own hown =>
      cases h
      exact .here (directive_eq_error.mp hown)
    | case5 rest reading hreading own hown hquote ih =>
      cases h
      exact .directive (directive_of_ok hreading) (ih hown)
    | case7 c rest hquote hstroke own hown ih =>
      cases h
      exact .plain hquote hstroke (ih hown)
    | case1 | case3 | case6 | case8 => cases h
  · intro h
    induction h with
    | here h =>
      rw [decodeLine, if_neg (by decide), if_pos rfl, directive_eq_error.mpr h]
    | plain hquote hstroke _ ih => rw [decodeLine, if_neg hquote, if_neg hstroke, ih]
    | quote _ ih => rw [decodeLine, if_pos rfl, ih]
    | directive h _ ih =>
      obtain ⟨length, hread, hbehind⟩ := h.read
      rw [decodeLine, if_neg (by decide), if_pos rfl, hread]
      dsimp only
      rw [hbehind, ih]

/-! ## Numbers of more than 31 bits -/

/-- Only eight digits or more spell a number of more than 31 bits. -/
theorem not_outOfWord (hlength : digits.length < 8) : ¬ Misspells digits .outOfWord := by
  intro h
  cases h with
  | @outOfWord i h hword =>
    have hlt := h.lt_pow
    have hpow : 16 ^ digits.length ≤ 16 ^ 7 := Nat.pow_le_pow_right (by decide) (by omega)
    have hcast : (16 : Int) ^ digits.length ≤ 16 ^ 7 := by exact_mod_cast hpow
    omega

theorem Misgrouped.not_outOfWord (hwidth : width < 8) : ¬ Misgrouped width digits .outOfWord := by
  intro h
  generalize hfault : StringFault.outOfWord = fault at h
  induction h with
  | here hlength h digits =>
    subst hfault
    exact StringBody.not_outOfWord (by omega) h
  | later _ _ _ ih => exact ih hfault

theorem exists_of_malformed_outOfWord (h : Malformed rest .outOfWord) :
    ∃ digits behind : Text, rest = "X4\\" ++ (digits ++ ("\\X0\\" ++ behind)) ∧
      Misgrouped 8 digits .outOfWord := by
  cases h with
  | run hmark _ _ h =>
    cases hmark with
    | four => exact absurd h (Misgrouped.not_outOfWord (by decide))
    | eight => exact ⟨_, _, rfl, h⟩
  | code hlength h _ => exact absurd h (not_outOfWord (by omega))

theorem Directive.suffix (h : Directive spells value rest behind) : behind <:+ rest := by
  cases h with
  | stroke behind => exact List.suffix_append _ _
  | run _ _ behind =>
    rw [← List.append_assoc, ← List.append_assoc]
    exact List.suffix_append _ _
  | code _ _ behind =>
    rw [← List.append_assoc]
    exact List.suffix_append _ _
  | shift _ _ behind => exact ⟨_, List.append_assoc "S\\" [_] behind⟩
  | shiftQuote _ rest =>
    exact (List.drop_suffix 1 rest).trans ⟨_, List.append_assoc "S\\" [_] rest⟩
  | @alphabet letter _ behind => exact ⟨_, List.append_assoc "P" (letter :: "\\") behind⟩
  | none => exact List.suffix_refl _

/-- The malformed directive stands in the body. -/
theorem Rejects.exists_malformed {body : Text} {fault : StringFault} (h : Rejects body fault) :
    ∃ before rest : Text, body = before ++ ("\\" ++ rest) ∧ Malformed rest fault := by
  induction h with
  | @here rest _ h => exact ⟨[], rest, rfl, h⟩
  | @plain c _ _ _ _ _ ih =>
    obtain ⟨before, rest, rfl, h⟩ := ih
    exact ⟨c :: before, rest, rfl, h⟩
  | @quote inner _ _ ih =>
    obtain ⟨before, rest, hinner, h⟩ := ih
    refine ⟨CodePoint.ofChar '\'' :: (inner.take 1 ++ before), rest, ?_, h⟩
    rw [List.cons_append, List.append_assoc, ← hinner, List.take_append_drop]
  | directive hdirective _ ih =>
    obtain ⟨before, rest, rfl, h⟩ := ih
    obtain ⟨front, rfl⟩ := hdirective.suffix
    exact ⟨CodePoint.ofChar '\\' :: (front ++ before), rest, by simp, h⟩

/-! ## Malformed directives -/

/-- What is read behind the mark of a single code point. -/
theorem Directive.code_inv {code : Text}
    (h : Directive spells value ("X\\" ++ code) behind) :
    ∃ group c, code = group ++ behind ∧ group.length = 2 ∧ spells group c := by
  generalize hrest : ("X\\" ++ code : Text) = rest at h
  cases h with
  | @code group c hlength hspells behind =>
    exact ⟨group, c, List.append_cancel_left hrest, hlength, hspells⟩
  | none h => exact absurd (hrest ▸ Starts.code code) h
  | run hmark _ _ =>
    cases hmark <;> exact absurd (List.cons.inj (List.cons.inj hrest).2).1 (by decide)
  | stroke | shift | shiftQuote | alphabet =>
    exact absurd (List.cons.inj hrest).1 (by decide)

/-- The body without its line breaks. -/
def unbroken (body : Text) : Text := body.filter fun c => !breaksLine c

/-- A body is decoded to a value if and only if it is read as that value with numerals for the
digits of its directives, and all other bodies are rejected with the fault of their first malformed
directive.  A reading that holds nothing lax among its digits is a reading with plain ones.  The one
fault that is not of a malformed value, a number of more than 31 bits, comes from a group of eight
digits only. -/
theorem decode_directives (body : Text) :
    (∀ value, decode body = .ok value ↔ Reads SpellsLoosely value (unbroken body)) ∧
      (∀ fault, decode body = .error fault ↔ Rejects (unbroken body) fault) ∧
      (∀ value, Reads SpellsPlainly value (unbroken body) ↔
        Reads (fun group c => SpellsLoosely group c ∧ ∀ d ∈ group, Numeral.isLax d = false)
          value (unbroken body)) ∧
      (decode body = .error .outOfWord →
        ∃ before digits behind : Text,
          unbroken body = before ++ ("\\X4\\" ++ (digits ++ ("\\X0\\" ++ behind))) ∧
            Misgrouped 8 digits .outOfWord) := by
  refine ⟨fun value => decodeLine_eq_ok, fun fault => decodeLine_eq_error, fun value => ?_, ?_⟩
  · exact ⟨.mono fun _ _ => spellsPlainly_iff.mp, .mono fun _ _ => spellsPlainly_iff.mpr⟩
  · intro h
    obtain ⟨before, rest, hbody, hmalformed⟩ := (decodeLine_eq_error.mp h).exists_malformed
    obtain ⟨digits, behind, rfl, hdigits⟩ := exists_of_malformed_outOfWord hmalformed
    exact ⟨before, digits, behind, hbody, hdigits⟩

/-- A sign and a digit are taken for the two digits of a code point, and a number of more than
31 bits is a fault of another class than all others. -/
theorem decode_lax :
    decode "\\X\\+1" = .ok [⟨1, by decide⟩] ∧
      (¬ ∃ value, Reads SpellsPlainly value (unbroken "\\X\\+1")) ∧
      decode "\\X4\\80000000\\X0\\" = .error .outOfWord := by
  refine ⟨?_, ?_, ?_⟩
  · have hgroup : SpellsLoosely "+1" ⟨1, by decide⟩ := codePoint_eq_ok.mp (by decide)
    exact decodeLine_eq_ok.mpr (.directive (.code rfl hgroup []) .nil)
  · rintro ⟨value, h⟩
    have hbody : unbroken "\\X\\+1" = CodePoint.ofChar '\\' :: ("X\\" ++ "+1") := by decide
    rw [hbody] at h
    cases h with
    | plain _ hstroke _ => exact hstroke rfl
    | directive h _ =>
      obtain ⟨group, c, hcode, hlength, hplain⟩ := h.code_inv
      have hsign := hplain.digits '+' (by
        obtain ⟨d, more, rfl⟩ := List.exists_cons_of_ne_nil hplain.nonempty
        obtain ⟨rfl, -⟩ := List.cons.inj hcode
        exact List.mem_cons_self)
      exact absurd hsign (by decide)
  · have hnumber : Numeral.IsHexadecimal 0x80000000 "80000000" :=
      Numeral.integer?_eq_some.mp (by decide)
    have hfirst : Text.IsFirst "\\X0\\" "80000000" [] := Text.isFirst_of_not_mem (by decide) []
    exact decodeLine_eq_error.mpr
      (.here (.run .eight hfirst (by decide) (.here rfl (.outOfWord hnumber (by decide)) [])))

end StringBody

end Part21
