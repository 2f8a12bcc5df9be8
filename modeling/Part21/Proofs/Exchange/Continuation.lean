import Mathlib.Data.List.TakeWhile
import Part21.Proofs.Exchange.RoundTrip

set_option autoImplicit false

/-!
# Texts that go on behind a semicolon

What is cut from the start of a text does not depend on what follows the text, as long as a
semicolon is still to come: a semicolon is part of no lexeme but strings, and ends all others.

Strings are different.  An apostrophe that another one follows still closes a string if the literal
has no end further on, and a text behind could bring one.  But then the second apostrophe opens a
string that is never closed, which is a fault, so in texts without faults this does not occur.  The
main statement is `Token.run_append`.
-/

namespace Part21

namespace Cut

/-! ## Rows of code points -/

/-- The semicolon. -/
abbrev stopMark : CodePoint := ';'

variable {p : CodePoint → Bool} {t : Text}

theorem takeWhile_of_mem (hp : p stopMark = false) (ht : stopMark ∈ t) (more : Text) :
    (t ++ more).takeWhile p = t.takeWhile p := by
  induction t with
  | nil => cases ht
  | cons c rest ih =>
    cases hc : p c with
    | false => simp [hc]
    | true =>
      have hrest : stopMark ∈ rest := by
        rcases List.mem_cons.mp ht with rfl | hrest
        · rw [hp] at hc
          cases hc
        · exact hrest
      rw [List.cons_append, List.takeWhile_cons_of_pos hc, List.takeWhile_cons_of_pos hc, ih hrest]

theorem mem_drop_takeWhile (hp : p stopMark = false) (ht : stopMark ∈ t) :
    stopMark ∈ t.drop (t.takeWhile p).length := by
  induction t with
  | nil => cases ht
  | cons c rest ih =>
    cases hc : p c with
    | false => simpa [hc] using ht
    | true =>
      rcases List.mem_cons.mp ht with rfl | hrest
      · rw [hp] at hc
        cases hc
      · rw [List.takeWhile_cons_of_pos hc]
        exact ih hrest

theorem length_takeWhile_le : (t.takeWhile p).length ≤ t.length :=
  (List.takeWhile_prefix p).length_le

theorem drop_takeWhile_append (more : Text) :
    (t ++ more).drop (t.takeWhile p).length = t.drop (t.takeWhile p).length ++ more :=
  List.drop_append_of_le_length length_takeWhile_le

theorem isPrefixOf_of_mem {word : Text} (hword : stopMark ∉ word) (ht : stopMark ∈ t)
    (more : Text) : word.isPrefixOf (t ++ more) = word.isPrefixOf t := by
  induction word generalizing t with
  | nil => rfl
  | cons w rest ih =>
    obtain ⟨hw, hrest⟩ := not_or.mp fun h => hword (List.mem_cons.mpr h)
    cases t with
    | nil => cases ht
    | cons c others =>
      rcases List.mem_cons.mp ht with rfl | hothers
      · rw [List.cons_append, isPrefixOf_cons_of_ne (Ne.symm hw),
          isPrefixOf_cons_of_ne (Ne.symm hw)]
      · rw [List.cons_append, List.isPrefixOf, List.isPrefixOf, ih hrest hothers]

/-! ## Numbers -/

theorem fraction?_of_mem (ht : stopMark ∈ t) (more : Text) :
    fraction? (t ++ more) = fraction? t := by
  cases t with
  | nil => cases ht
  | cons point rest =>
    rw [List.cons_append, fraction?, fraction?]
    split
    · rename_i hpoint
      rcases List.mem_cons.mp ht with rfl | hrest
      · exact absurd hpoint (by decide)
      · rw [takeWhile_of_mem (by decide) hrest]
    · rfl

/-- A fraction stands behind its point. -/
theorem fraction?_eq_some {fraction : Text} (h : fraction? t = some fraction) :
    fraction.length + 1 ≤ t.length ∧ (stopMark ∈ t → stopMark ∈ t.drop (fraction.length + 1)) := by
  cases t with
  | nil => cases h
  | cons point rest =>
    rw [fraction?] at h
    split at h
    · rename_i hpoint
      cases h
      refine ⟨Nat.succ_le_succ length_takeWhile_le, fun ht => ?_⟩
      rcases List.mem_cons.mp ht with rfl | hrest
      · exact absurd hpoint (by decide)
      · exact mem_drop_takeWhile (by decide) hrest
    · cases h

/-- What stands behind the letter of an exponent, given that something does. -/
theorem exponent?_cons (mark sign : CodePoint) (behind : Text) :
    exponent? (mark :: sign :: behind) =
      if mark = 'e' ∨ mark = 'E' then
        if sign = '+' ∨ sign = '-' then
          if behind.takeWhile CodePoint.isDigit = [] then none
          else some ⟨sign = '-', behind.takeWhile CodePoint.isDigit,
            (behind.takeWhile CodePoint.isDigit).length + 2⟩
        else if (sign :: behind).takeWhile CodePoint.isDigit = [] then none
        else some ⟨sign = '-', (sign :: behind).takeWhile CodePoint.isDigit,
          ((sign :: behind).takeWhile CodePoint.isDigit).length + 1⟩
      else none := by
  rw [exponent?]
  by_cases hsign : sign = '+' ∨ sign = '-'
  · simp only [if_pos hsign]
  · simp only [if_neg hsign]

theorem exponent?_of_mem (ht : stopMark ∈ t) (more : Text) :
    exponent? (t ++ more) = exponent? t := by
  match t, ht with
  | [mark], ht =>
    obtain rfl := List.mem_singleton.mp ht
    rfl
  | mark :: sign :: behind, ht =>
    rw [List.cons_append, List.cons_append, exponent?_cons, exponent?_cons]
    rcases List.mem_cons.mp ht with rfl | hrest
    · rfl
    · rw [← List.cons_append, takeWhile_of_mem (by decide) hrest]
      rcases List.mem_cons.mp hrest with rfl | hbehind
      · rfl
      · rw [takeWhile_of_mem (by decide) hbehind]

theorem exponent?_length {e : Exponent} (h : exponent? t = some e) : e.length ≤ t.length := by
  match t, h with
  | [mark], h => simp [exponent?] at h
  | mark :: sign :: behind, h =>
    rw [exponent?_cons] at h
    repeat' split at h
    all_goals cases h
    · exact Nat.succ_le_succ (Nat.succ_le_succ length_takeWhile_le)
    · exact Nat.succ_le_succ length_takeWhile_le

theorem number_of_mem {negative : Bool} {signLength : Nat} (ht : stopMark ∈ t) (more : Text) :
    number negative signLength (t ++ more) = number negative signLength t := by
  have hdigit : CodePoint.isDigit stopMark = false := by decide
  have hbehind := mem_drop_takeWhile hdigit ht
  rw [number, number, takeWhile_of_mem hdigit ht]
  dsimp only
  rw [drop_takeWhile_append, fraction?_of_mem hbehind, exponent?_of_mem hbehind]
  cases hfraction : fraction? (t.drop (t.takeWhile CodePoint.isDigit).length) with
  | none => rfl
  | some fraction =>
    obtain ⟨hlength, hmem⟩ := fraction?_eq_some hfraction
    dsimp only
    rw [List.drop_append_of_le_length hlength, exponent?_of_mem (hmem hbehind)]

/-- A number takes the digits that it starts with, and no more than there is. -/
theorem number_length {negative : Bool} {signLength : Nat} {cut : Cut}
    (h : number negative signLength t = .ok cut) :
    signLength + (t.takeWhile CodePoint.isDigit).length ≤ cut.length ∧
      cut.length ≤ signLength + t.length := by
  have hwhole := @length_takeWhile_le CodePoint.isDigit t
  have hdrop : (t.drop (t.takeWhile CodePoint.isDigit).length).length =
      t.length - (t.takeWhile CodePoint.isDigit).length := List.length_drop
  rw [number] at h
  dsimp only at h
  split at h
  · rename_i fraction hfraction
    obtain ⟨hlength, -⟩ := fraction?_eq_some hfraction
    cases hexponent : exponent? ((t.drop (t.takeWhile CodePoint.isDigit).length).drop
        (fraction.length + 1)) with
    | none =>
      rw [hexponent] at h
      cases h
      simp only [Option.map_none, Option.getD_none]
      omega
    | some e =>
      have he := exponent?_length hexponent
      rw [List.length_drop] at he
      rw [hexponent] at h
      cases h
      simp only [Option.map_some, Option.getD_some]
      omega
  · split at h
    · rename_i e hexponent
      have he := exponent?_length hexponent
      cases h
      dsimp only
      omega
    · split at h
      · cases h
      · cases h
        dsimp only
        omega

theorem entityName_of_mem (ht : stopMark ∈ t) (more : Text) :
    entityName (t ++ more) = entityName t := by
  rw [entityName, entityName, takeWhile_of_mem (by decide) ht]

theorem entityName_length {cut : Cut} (h : entityName t = .ok cut) :
    1 ≤ cut.length ∧ cut.length ≤ t.length + 1 := by
  rw [entityName] at h
  split at h
  · cases h
  · cases h
    exact ⟨Nat.succ_pos _, Nat.succ_le_succ length_takeWhile_le⟩

/-! ## Names, binaries and comments -/

theorem nameAt_of_mem (ht : stopMark ∈ t) (more : Text) : nameAt (t ++ more) = nameAt t := by
  cases t with
  | nil => cases ht
  | cons c rest =>
    rw [List.cons_append, nameAt, nameAt]
    split
    · rename_i hc
      rcases List.mem_cons.mp ht with rfl | hrest
      · exact absurd hc (by decide)
      · rw [takeWhile_of_mem (by decide) hrest]
    · rfl

/-- A name is a start of the text, and no semicolon is part of it. -/
theorem nameAt_length_le (t : Text) :
    (nameAt t).length ≤ t.length ∧ (stopMark ∈ t → stopMark ∈ t.drop (nameAt t).length) := by
  cases t with
  | nil => exact ⟨Nat.le_refl 0, fun h => h⟩
  | cons c rest =>
    rw [nameAt]
    split
    · rename_i hc
      refine ⟨Nat.succ_le_succ length_takeWhile_le, fun ht => ?_⟩
      rcases List.mem_cons.mp ht with rfl | hrest
      · exact absurd hc (by decide)
      · exact mem_drop_takeWhile (by decide) hrest
    · exact ⟨Nat.zero_le _, fun ht => ht⟩

theorem head?_append_of_mem (ht : stopMark ∈ t) (more : Text) :
    (t ++ more).head? = t.head? := by
  cases t with
  | nil => cases ht
  | cons c rest => rfl

theorem enumeration?_of_mem (ht : stopMark ∈ t) (more : Text) :
    enumeration? (t ++ more) = enumeration? t := by
  obtain ⟨hlength, hmem⟩ := nameAt_length_le t
  rw [enumeration?, enumeration?, nameAt_of_mem ht, List.drop_append_of_le_length hlength,
    head?_append_of_mem (hmem ht)]

theorem enumeration?_length {cut : Cut} (h : enumeration? t = some cut) :
    1 ≤ cut.length ∧ cut.length ≤ t.length + 1 := by
  rw [enumeration?] at h
  split at h
  · rename_i hname
    cases h
    -- The point behind the name is part of the text.
    have hpoint : (t.drop (nameAt t).length).length ≠ 0 := fun hnone => by
      rw [List.length_eq_zero_iff.mp hnone] at hname
      cases hname.2
    rw [List.length_drop] at hpoint
    dsimp only
    omega
  · cases h

theorem word?_of_mem (ht : stopMark ∈ t) (more : Text) : word? (t ++ more) = word? t := by
  cases t with
  | nil => cases ht
  | cons c rest =>
    rw [List.cons_append, word?, word?]
    by_cases hc : c = '!'
    · rcases List.mem_cons.mp ht with rfl | hrest
      · exact absurd hc (by decide)
      · simp only [if_pos hc, nameAt_of_mem hrest]
    · simp only [if_neg hc]
      rw [← List.cons_append, nameAt_of_mem ht]

/-- A word is a start of the text. -/
theorem word?_eq_some {cut : Cut} (h : word? t = some cut) :
    ∃ spelling : Text, cut = ⟨some (word spelling), spelling.length⟩ ∧ 1 ≤ spelling.length ∧
      spelling.length ≤ t.length := by
  cases t with
  | nil => cases h
  | cons c rest =>
    by_cases hc : c = '!'
    · simp only [word?, if_pos hc] at h
      split at h
      · cases h
      · cases h
        exact ⟨c :: nameAt rest, rfl, Nat.succ_pos _, Nat.succ_le_succ (nameAt_length_le rest).1⟩
    · simp only [word?, if_neg hc] at h
      split at h
      · cases h
      · rename_i hname
        cases h
        exact ⟨nameAt (c :: rest), rfl, List.length_pos_iff.mpr hname, (nameAt_length_le _).1⟩

theorem binary_of_mem (ht : stopMark ∈ t) (more : Text) : binary (t ++ more) = binary t := by
  cases t with
  | nil => cases ht
  | cons unused rest =>
    rw [List.cons_append, binary, binary]
    rcases List.mem_cons.mp ht with rfl | hrest
    · rfl
    · have hbehind := mem_drop_takeWhile (p := CodePoint.isHexDigit) (by decide) hrest
      rw [takeWhile_of_mem (by decide) hrest, drop_takeWhile_append, head?_append_of_mem hbehind]

theorem binary_length {cut : Cut} (h : binary t = .ok cut) :
    1 ≤ cut.length ∧ cut.length ≤ t.length + 1 := by
  cases t with
  | nil => cases h
  | cons unused rest =>
    rw [binary] at h
    split at h
    · rename_i hfits
      cases h
      have hmark : (rest.drop (rest.takeWhile CodePoint.isHexDigit).length).length ≠ 0 := by
        intro hnone
        rw [List.length_eq_zero_iff.mp hnone, Bool.and_eq_true] at hfits
        exact absurd hfits.2 (by decide)
      rw [List.length_drop] at hmark
      simp only [List.length_cons]
      omega
    · cases h

/-- The parts around the first place of a mark do not depend on what follows the text. -/
theorem cut?_eq_some {mark before behind : Text} (hmark : mark ≠ [])
    (h : Text.cut? mark t = some (before, behind)) (more : Text) :
    t = before ++ (mark ++ behind) ∧
      Text.cut? mark (t ++ more) = some (before, behind ++ more) := by
  induction t generalizing before with
  | nil =>
    rw [Text.cut?, if_neg hmark] at h
    cases h
  | cons c rest ih =>
    rw [Text.cut?] at h
    split at h
    · rename_i own hown
      cases h
      have hsame := List.isPrefixOf?_eq_some_iff_append_eq.mp hown
      have hlonger : mark.isPrefixOf? (c :: (rest ++ more)) = some (behind ++ more) := by
        rw [List.isPrefixOf?_eq_some_iff_append_eq, ← List.append_assoc, hsame]
        rfl
      refine ⟨hsame.symm, ?_⟩
      rw [List.cons_append, Text.cut?, hlonger]
    · rename_i hnone
      obtain ⟨⟨front, rear⟩, hrest, hparts⟩ := Option.map_eq_some_iff.mp h
      cases hparts
      obtain ⟨hsame, hmore⟩ := ih hrest
      have hlater : mark.isPrefixOf? (c :: (rest ++ more)) = none := by
        rw [Option.eq_none_iff_forall_ne_some]
        intro own hown
        have hlength : mark.length ≤ (c :: rest).length := by
          rw [hsame]
          simp only [List.length_cons, List.length_append]
          omega
        have hprefix : mark <+: c :: rest :=
          List.prefix_of_prefix_length_le
            ⟨own, List.isPrefixOf?_eq_some_iff_append_eq.mp hown⟩ ⟨more, rfl⟩ hlength
        obtain ⟨own, hown⟩ := hprefix
        rw [List.isPrefixOf?_eq_some_iff_append_eq.mpr hown] at hnone
        cases hnone
      refine ⟨congrArg (c :: ·) hsame, ?_⟩
      rw [List.cons_append, Text.cut?, hlater, hmore]
      rfl

/-- A comment is closed within the text, whatever follows. -/
theorem commentLength?_eq_some {length : Nat} (h : commentLength? t = some length) (more : Text) :
    commentLength? (t ++ more) = some length ∧ 1 ≤ length ∧ length ≤ t.length := by
  rw [commentLength?] at h
  split at h
  · cases h
  · rename_i rest hrest
    have hopened := List.isPrefixOf?_eq_some_iff_append_eq.mp hrest
    obtain ⟨⟨body, behind⟩, hparts, hlength⟩ := Option.map_eq_some_iff.mp h
    obtain ⟨hsame, hmore⟩ := cut?_eq_some (by decide) hparts more
    have hstart : Text.dropStart? "/*" (t ++ more) = some (rest ++ more) := by
      rw [Text.dropStart?, List.isPrefixOf?_eq_some_iff_append_eq, ← List.append_assoc, hopened]
    cases hlength
    refine ⟨?_, Nat.succ_pos _, ?_⟩
    · rw [commentLength?, hstart]
      dsimp only
      rw [hmore]
      rfl
    · have hmarks : (Text.ofString "/*").length = 2 ∧ (Text.ofString "*/").length = 2 := ⟨rfl, rfl⟩
      rw [← hopened, hsame]
      simp only [List.length_append, hmarks]
      omega

/-! ## Strings -/

/-- The body of a string literal has an apostrophe behind it.  If that is doubled all the same, no
literal can be closed behind the two. -/
theorem bodyLength?_eq_some {length : Nat} (h : bodyLength? t = some length) :
    ∃ behind, t.drop length = CodePoint.ofChar '\'' :: behind ∧
      ∀ rest, behind = CodePoint.ofChar '\'' :: rest → bodyLength? rest = none := by
  fun_induction bodyLength? t generalizing length with
  | case1 => cases h
  | case2 =>
    cases h
    exact ⟨[], rfl, by simp⟩
  | case3 => cases h
  | case4 rest ih =>
    cases hrest : bodyLength? rest with
    | none =>
      rw [hrest] at h
      cases h
      refine ⟨_, rfl, fun more hmore => ?_⟩
      cases hmore
      exact hrest
    | some n =>
      rw [hrest] at h
      cases h
      exact ih hrest
  | case5 d rest hd =>
    cases h
    refine ⟨_, rfl, fun more hmore => ?_⟩
    cases hmore
    exact absurd rfl hd
  | case6 c d rest hc ih =>
    obtain ⟨n, hn, rfl⟩ := Option.map_eq_some_iff.mp h
    exact ih hn

/-- The body ends at the same apostrophe whatever follows the text, unless that one is doubled. -/
theorem bodyLength?_of_some {length : Nat} (h : bodyLength? t = some length) {d : CodePoint}
    {rest : Text} (hbehind : t.drop length = CodePoint.ofChar '\'' :: d :: rest)
    (hd : d ≠ CodePoint.ofChar '\'') (more : Text) : bodyLength? (t ++ more) = some length := by
  fun_induction bodyLength? t generalizing length with
  | case1 => cases h
  | case2 =>
    cases h
    cases hbehind
  | case3 => cases h
  | case4 others ih =>
    cases hothers : bodyLength? others with
    | none =>
      rw [hothers] at h
      cases h
      exact absurd (List.cons.inj (List.cons.inj hbehind).2).1.symm hd
    | some n =>
      rw [hothers] at h
      cases h
      rw [List.cons_append, List.cons_append, bodyLength?, if_pos rfl, if_pos rfl,
        ih hothers hbehind]
  | case5 e others he =>
    cases h
    rw [List.cons_append, List.cons_append, bodyLength?, if_pos rfl, if_neg he]
  | case6 c e others hc ih =>
    obtain ⟨n, hn, rfl⟩ := Option.map_eq_some_iff.mp h
    have hmore := ih hn hbehind
    rw [List.cons_append] at hmore
    rw [List.cons_append, List.cons_append, bodyLength?, if_neg hc, hmore]
    rfl

/-- A string literal in front of a text without faults is cut as it is whatever follows. -/
theorem string_of_ok {cut : Cut} (h : string t = .ok cut) :
    1 ≤ cut.length ∧ cut.length ≤ t.length + 1 ∧
      ∀ d rest, t.drop (cut.length - 1) = d :: rest → (d = CodePoint.ofChar '\'' →
        bodyLength? rest ≠ none) → ∀ more, string (t ++ more) = .ok cut := by
  rw [string] at h
  split at h
  · cases h
  · rename_i length hlength
    obtain ⟨behind, hbehind, hdoubled⟩ := bodyLength?_eq_some hlength
    have hfits : length < t.length := by
      by_contra hlong
      rw [List.drop_eq_nil_of_le (Nat.le_of_not_lt hlong)] at hbehind
      cases hbehind
    split at h
    · cases h
    · rename_i value hvalue
      cases h
      refine ⟨Nat.succ_pos _, Nat.succ_le_succ hfits, fun d rest hrest hclosed more => ?_⟩
      have hnext : t.drop length = CodePoint.ofChar '\'' :: d :: rest := by
        have hsame : behind = t.drop (length + 1) := by
          rw [← List.tail_drop, hbehind, List.tail_cons]
        rw [hbehind, hsame]
        exact congrArg _ hrest
      have hd : d ≠ CodePoint.ofChar '\'' := by
        rintro rfl
        rw [hbehind] at hnext
        exact hclosed rfl (hdoubled rest (List.cons.inj hnext).2)
      rw [string, bodyLength?_of_some hlength hnext hd more]
      dsimp only
      rw [List.take_append_of_le_length (Nat.le_of_lt hfits), hvalue]

/-! ## Any cut -/

/-- The rules by which a cut is made, each with what it gives. -/
inductive Rule (c : CodePoint) (rest : Text) : Cut → Prop
  | separator (hc : isSeparator c = true) : Rule c rest ⟨none, 1⟩
  | comment {length : Nat} (h : commentLength? (c :: rest) = some length) :
      Rule c rest ⟨none, length⟩
  | structureWord {l : Lexeme} (hl : l = .closing ∨ l = .opening)
      (h : l.fixedSpelling.isPrefixOf (c :: rest) = true) :
      Rule c rest ⟨some l, l.fixedSpelling.length⟩
  | unsigned {cut : Cut} (hc : c.isDigit = true) (h : number false 0 (c :: rest) = .ok cut) :
      Rule c rest cut
  | signed {negative : Bool} {cut : Cut} (h : number negative 1 rest = .ok cut) : Rule c rest cut
  | entityName {cut : Cut} (h : Cut.entityName rest = .ok cut) : Rule c rest cut
  | string {cut : Cut} (h : Cut.string rest = .ok cut) : Rule c rest cut
  | binary {cut : Cut} (h : Cut.binary rest = .ok cut) : Rule c rest cut
  | enumeration {cut : Cut} (h : enumeration? rest = some cut) : Rule c rest cut
  | word {cut : Cut} (h : word? (c :: rest) = some cut) : Rule c rest cut
  | mark {l : Lexeme} (h : punctuation? c = some l) : Rule c rest ⟨some l, 1⟩

theorem rule_of_first {c : CodePoint} {rest : Text} {cut : Cut} (h : first c rest = .ok cut) :
    Rule c rest cut := by
  unfold first at h
  dsimp only at h
  split at h
  · rename_i hc
    cases h
    exact .separator hc
  split at h
  · split at h
    · rename_i hlength
      cases h
      exact .comment hlength
    · cases h
  split at h
  · rename_i hword
    cases h
    exact .structureWord (.inl rfl) hword
  split at h
  · rename_i hword
    cases h
    exact .structureWord (.inr rfl) hword
  split at h
  · rename_i hc
    exact .unsigned hc h
  split at h
  · exact .signed h
  split at h
  · exact .entityName h
  split at h
  · exact .string h
  split at h
  · exact .binary h
  split at h
  · rename_i own hown
    cases h
    split at hown
    · exact .enumeration hown
    · cases hown
  split at h
  · rename_i hown
    cases h
    exact .word hown
  split at h
  · rename_i hown
    cases h
    exact .mark hown
  · cases h

/-- A cut takes something, and no more than there is. -/
theorem Rule.length {c : CodePoint} {rest : Text} {cut : Cut} (h : Rule c rest cut) :
    1 ≤ cut.length ∧ cut.length ≤ rest.length + 1 := by
  cases h with
  | separator _ => exact ⟨Nat.le_refl 1, Nat.succ_pos _⟩
  | comment h => exact (commentLength?_eq_some h []).2
  | structureWord hl h =>
    refine ⟨?_, (List.isPrefixOf_iff_prefix.mp h).length_le⟩
    rcases hl with rfl | rfl <;> decide
  | unsigned hc h =>
    obtain ⟨hlow, hhigh⟩ := number_length h
    rw [List.takeWhile_cons_of_pos hc, List.length_cons] at hlow
    rw [List.length_cons] at hhigh
    omega
  | signed h =>
    obtain ⟨hlow, hhigh⟩ := number_length h
    omega
  | entityName h => exact entityName_length h
  | string h => exact ⟨(string_of_ok h).1, (string_of_ok h).2.1⟩
  | binary h => exact binary_length h
  | enumeration h => exact enumeration?_length h
  | word h =>
    obtain ⟨spelling, rfl, hlength⟩ := word?_eq_some h
    exact hlength
  | mark _ => exact ⟨Nat.le_refl 1, Nat.succ_pos _⟩

/-! What each rule cuts: lexemes of one class, or of two for numbers. -/

theorem number_lexeme {negative : Bool} {sign : Nat} {t : Text} {cut : Cut}
    (h : number negative sign t = .ok cut) :
    (∃ i, cut.lexeme = some (.integer i)) ∨ ∃ x, cut.lexeme = some (.real x) := by
  rw [number] at h
  dsimp only at h
  repeat' split at h
  all_goals cases h
  all_goals first
    | exact .inl ⟨_, rfl⟩
    | exact .inr ⟨_, rfl⟩

theorem entityName_lexeme {t : Text} {cut : Cut} (h : Cut.entityName t = .ok cut) :
    ∃ id, cut.lexeme = some (.entityName id) := by
  rw [Cut.entityName] at h
  split at h <;> cases h
  exact ⟨_, rfl⟩

theorem string_lexeme {t : Text} {cut : Cut} (h : Cut.string t = .ok cut) :
    ∃ value, cut.lexeme = some (.string value) := by
  rw [Cut.string] at h
  repeat' split at h
  all_goals cases h
  exact ⟨_, rfl⟩

theorem binary_lexeme {t : Text} {cut : Cut} (h : Cut.binary t = .ok cut) :
    ∃ (unused : Nat) (digits : Text), cut.lexeme = some (.binary unused digits.upper) ∧
      unused ≤ 3 ∧ ∀ c ∈ digits, CodePoint.isHexDigit c = true := by
  cases t with
  | nil => cases h
  | cons unused rest =>
    rw [Cut.binary] at h
    split at h
    · rename_i hfits
      cases h
      have h0 : '0'.toNat = 48 := rfl
      have h3 : '3'.toNat = 51 := rfl
      simp only [CodePoint.between, Bool.and_eq_true, decide_eq_true_eq, h0, h3] at hfits
      exact ⟨_, _, rfl, by omega, fun c hc => List.mem_takeWhile_imp hc⟩
    · cases h

theorem enumeration?_lexeme {t : Text} {cut : Cut} (h : enumeration? t = some cut) :
    ∃ item, cut.lexeme = some (.enumeration item) := by
  rw [enumeration?] at h
  split at h <;> cases h
  exact ⟨_, rfl⟩

theorem word_ne_semicolon (spelling : Text) : word spelling ≠ .semicolon := by
  unfold word
  repeat' split
  all_goals simp

theorem semicolon_of_punctuation? {c : CodePoint} (h : punctuation? c = some .semicolon) :
    c = stopMark := by
  unfold punctuation? at h
  repeat' split at h
  all_goals first
    | assumption
    | cases h

/-- A separator holds no lexeme, a comment neither, and all else does; only a semicolon holds a
semicolon. -/
theorem Rule.lexeme {c : CodePoint} {rest : Text} {cut : Cut} (h : Rule c rest cut) :
    (isSeparator c = true ∧ cut = ⟨none, 1⟩) ∨
      (∃ length, commentLength? (c :: rest) = some length ∧ cut = ⟨none, length⟩) ∨
      ∃ l, cut.lexeme = some l ∧ (l = .semicolon → c = stopMark) := by
  cases h with
  | separator hc => exact .inl ⟨hc, rfl⟩
  | comment h => exact .inr (.inl ⟨_, h, rfl⟩)
  | structureWord hl _ =>
    refine .inr (.inr ⟨_, rfl, fun hsame => ?_⟩)
    rcases hl with rfl | rfl <;> cases hsame
  | unsigned _ h | signed h =>
    rcases number_lexeme h with ⟨_, hl⟩ | ⟨_, hl⟩
    · exact .inr (.inr ⟨_, hl, by simp⟩)
    · exact .inr (.inr ⟨_, hl, by simp⟩)
  | entityName h =>
    obtain ⟨_, hl⟩ := entityName_lexeme h
    exact .inr (.inr ⟨_, hl, by simp⟩)
  | string h =>
    obtain ⟨_, hl⟩ := string_lexeme h
    exact .inr (.inr ⟨_, hl, by simp⟩)
  | binary h =>
    obtain ⟨_, _, hl, _⟩ := binary_lexeme h
    exact .inr (.inr ⟨_, hl, by simp⟩)
  | enumeration h =>
    obtain ⟨_, hl⟩ := enumeration?_lexeme h
    exact .inr (.inr ⟨_, hl, by simp⟩)
  | word h =>
    obtain ⟨spelling, rfl, _⟩ := word?_eq_some h
    exact .inr (.inr ⟨_, rfl, fun hsame => absurd hsame (word_ne_semicolon spelling)⟩)
  | mark h => exact .inr (.inr ⟨_, rfl, fun hsame => semicolon_of_punctuation? (hsame ▸ h)⟩)

theorem first_unclosed {c : CodePoint} {rest : Text}
    (hopened : (Text.ofString "/*").isPrefixOf (c :: rest) = true)
    (h : commentLength? (c :: rest) = none) : first c rest = .error .unclosedComment := by
  obtain ⟨body, hsame⟩ := List.isPrefixOf_iff_prefix.mp hopened
  have hsame : CodePoint.ofChar '/' :: ("*" ++ body) = c :: rest := hsame
  obtain ⟨rfl, rfl⟩ := List.cons.inj hsame
  unfold first
  dsimp only
  rw [h]
  rfl

/-- What separates lexemes is the same whatever follows the text. -/
theorem first_of_separator {c : CodePoint} {rest : Text} {cut : Cut}
    (h : first c rest = .ok cut) (hcut : cut.lexeme = none) (more : Text) :
    first c (rest ++ more) = .ok cut := by
  obtain ⟨hc, rfl⟩ | ⟨length, hlength, rfl⟩ | ⟨l, hl, _⟩ := (rule_of_first h).lexeme
  · exact first_separator hc _
  · exact first_comment (commentLength?_eq_some hlength more).1
  · rw [hl] at hcut
    cases hcut

/-- A cut is the same whatever follows the text, if a semicolon is still to come and strings are
no exception. -/
theorem first_of_mem {c : CodePoint} {rest : Text} {cut : Cut} (h : first c rest = .ok cut)
    (hmem : stopMark ∈ c :: rest) {more : Text}
    (hstring : c = CodePoint.ofChar '\'' → string (rest ++ more) = .ok cut) :
    first c (rest ++ more) = .ok cut := by
  rcases List.mem_cons.mp hmem with rfl | hrest
  · exact h
  by_cases hquote : c = CodePoint.ofChar '\''
  · subst hquote
    exact hstring rfl
  by_cases hcomment : (Text.ofString "/*").isPrefixOf (c :: rest) = true
  · cases hlength : commentLength? (c :: rest) with
    | none =>
      rw [first_unclosed hcomment hlength] at h
      cases h
    | some length =>
      obtain rfl : ⟨none, length⟩ = cut := Except.ok.inj ((first_comment hlength).symm.trans h)
      exact first_of_separator h rfl more
  have hdigit : startsWithDigit (rest ++ more) = startsWithDigit rest := by
    cases rest with
    | nil => cases hrest
    | cons d others => rfl
  unfold first at h ⊢
  dsimp only at h ⊢
  rw [← List.cons_append, isPrefixOf_of_mem (by decide) hmem, isPrefixOf_of_mem (by decide) hmem,
    isPrefixOf_of_mem (by decide) hmem, number_of_mem hmem, number_of_mem hrest, hdigit,
    entityName_of_mem hrest, binary_of_mem hrest, enumeration?_of_mem hrest, word?_of_mem hmem,
    if_neg hcomment, if_neg hquote]
  rwa [if_neg hcomment, if_neg hquote] at h

/-! ## Cuts in front of a semicolon -/

/-- A cut leaves a shorter text behind, so what holds of the empty text, is handed on from what a
cut leaves, and holds where a fault stops the cutting, holds of every text. -/
theorem induction_on_cuts {motive : Text → Prop} (t : Text) (nil : motive [])
    (skip : ∀ {w behind : Text}, Takes none w behind → motive behind → motive (w ++ behind))
    (lexeme : ∀ {l : Lexeme} {w behind : Text}, Takes (some l) w behind → motive behind →
      motive (w ++ behind))
    (fault : ∀ {c : CodePoint} {rest : Text} {f : LexFault}, first c rest = .error f →
      motive (c :: rest)) : motive t := by
  induction hlength : t.length using Nat.strong_induction_on generalizing t with
  | _ length ih =>
    cases t with
    | nil => exact nil
    | cons c rest =>
      cases hfirst : first c rest with
      | error f => exact fault hfirst
      | ok cut =>
        obtain ⟨hsome, hfits⟩ := (rule_of_first hfirst).length
        have htake : (rest.take (cut.length - 1)).length = cut.length - 1 :=
          List.length_take_of_le (Nat.sub_le_of_le_add hfits)
        have htakes : Takes cut.lexeme (c :: rest.take (cut.length - 1))
            (rest.drop (cut.length - 1)) := by
          refine ⟨c, _, rfl, ?_⟩
          rw [List.take_append_drop, hfirst, List.length_cons, htake, Nat.sub_add_cancel hsome]
        have hbehind : motive (rest.drop (cut.length - 1)) := by
          refine ih _ ?_ _ rfl
          rw [← hlength, List.length_drop, List.length_cons]
          omega
        rw [← List.take_append_drop (cut.length - 1) rest, ← List.cons_append]
        cases hlexeme : cut.lexeme with
        | none => exact skip (hlexeme ▸ htakes) hbehind
        | some l => exact lexeme (hlexeme ▸ htakes) hbehind

/-- A separator is cut whatever follows. -/
theorem Takes.append_none {w behind : Text} (h : Takes none w behind) (more : Text) :
    Takes none w (behind ++ more) := by
  obtain ⟨c, rest, rfl, hfirst⟩ := h
  refine ⟨c, rest, rfl, ?_⟩
  rw [← List.append_assoc]
  exact first_of_separator hfirst rfl more

/-- A semicolon is cut whatever follows. -/
theorem Takes.append_semicolon {w behind : Text} (h : Takes (some .semicolon) w behind)
    (more : Text) : Takes (some .semicolon) w (behind ++ more) := by
  obtain ⟨c, rest, rfl, hfirst⟩ := h
  obtain hsep | ⟨_, _, hcut⟩ | ⟨l, hl, hmark⟩ := (rule_of_first hfirst).lexeme
  · cases hsep.2
  · cases hcut
  · cases hl
    obtain rfl := hmark rfl
    exact ⟨stopMark, rest, rfl, hfirst⟩

/-- A lexeme in front of a semicolon is cut whatever follows, unless it is a string that only ends
where it does because no other apostrophe follows. -/
theorem Takes.append_some {l : Lexeme} {w behind : Text} (h : Takes (some l) w behind)
    (hmem : stopMark ∈ behind)
    (hclosed : ∀ rest, behind = CodePoint.ofChar '\'' :: rest → bodyLength? rest ≠ none)
    (more : Text) : Takes (some l) w (behind ++ more) := by
  obtain ⟨c, rest, rfl, hfirst⟩ := h
  refine ⟨c, rest, rfl, ?_⟩
  rw [← List.append_assoc]
  refine first_of_mem hfirst
    (List.mem_cons_of_mem _ (List.mem_append_right _ hmem)) fun hquote => ?_
  subst hquote
  have hstring : string (rest ++ behind) =
      .ok ⟨some l, (CodePoint.ofChar '\'' :: rest).length⟩ := hfirst
  obtain ⟨d, others, rfl⟩ := List.exists_cons_of_ne_nil (List.ne_nil_of_mem hmem)
  refine (string_of_ok hstring).2.2 d others ?_ (fun hd => hclosed others (by rw [hd])) more
  rw [List.length_cons, Nat.add_sub_cancel, List.drop_left]

end Cut

/-! ## Tokens -/

namespace Token

open Cut (stopMark)

theorem run_fault {c : CodePoint} {rest : Text} {fault : LexFault}
    (h : Cut.first c rest = .error fault) (offset line : Nat) :
    run (c :: rest) offset line = ⟨[], some ⟨fault, offset⟩⟩ := by
  rw [run]
  dsimp only
  rw [h]

/-- A semicolon among the tokens stands in the text. -/
theorem mem_of_run {t : Text} {offset line : Nat} {token : Token}
    (hmem : token ∈ (run t offset line).tokens) (htoken : token.lexeme = .semicolon) :
    stopMark ∈ t := by
  induction t using Cut.induction_on_cuts generalizing offset line with
  | nil =>
    rw [run_nil] at hmem
    cases hmem
  | skip htakes ih =>
    rw [run_takes_none htakes] at hmem
    exact List.mem_append_right _ (ih hmem)
  | lexeme htakes ih =>
    rw [run_takes_some htakes] at hmem
    rcases List.mem_cons.mp hmem with rfl | hmem
    · obtain ⟨c, rest, rfl, hfirst⟩ := htakes
      obtain hsep | ⟨_, _, hcut⟩ | ⟨m, hm, hmark⟩ := (Cut.rule_of_first hfirst).lexeme
      · cases hsep.2
      · cases hcut
      · cases hm
        rw [← hmark htoken]
        exact List.mem_cons_self
    · exact List.mem_append_right _ (ih hmem)
  | fault hfirst =>
    rw [run_fault hfirst] at hmem
    cases hmem

/-- Where no fault stops the tokens, no string is left open. -/
theorem closed_of_run {t rest : Text} {offset line : Nat}
    (hstop : (run t offset line).stop = none) (ht : t = CodePoint.ofChar '\'' :: rest) :
    Cut.bodyLength? rest ≠ none := by
  intro hnone
  have hfirst : Cut.first (CodePoint.ofChar '\'') rest = .error .unclosedString := by
    have hstring : Cut.first (CodePoint.ofChar '\'') rest = Cut.string rest := rfl
    rw [hstring, Cut.string, hnone]
  rw [ht, run_fault hfirst] at hstop
  cases hstop

theorem getLast?_cons_of_mem {first last : Token} {ts : List Token} (h : last ∈ ts.getLast?) :
    last ∈ (first :: ts).getLast? := by
  rw [List.getLast?_cons, h]
  rfl

/-- Behind a text that is cut without faults and whose last lexeme is a semicolon, the tokens go on
as if nothing stood in front. -/
theorem run_append {t : Text} {offset line : Nat} (hstop : (run t offset line).stop = none)
    (hlast : ∀ last ∈ (run t offset line).tokens.getLast?, last.lexeme = .semicolon)
    (more : Text) :
    run (t ++ more) offset line =
      ⟨(run t offset line).tokens ++
          (run more (offset + t.length) (line + Text.lineFeeds t)).tokens,
        (run more (offset + t.length) (line + Text.lineFeeds t)).stop⟩ := by
  induction t using Cut.induction_on_cuts generalizing offset line with
  | nil =>
    rw [run_nil]
    rfl
  | @skip w behind htakes ih =>
    rw [run_takes_none htakes] at hstop hlast ⊢
    rw [List.append_assoc, run_takes_none (htakes.append_none more), ih hstop hlast,
      List.length_append, Text.lineFeeds_append, Nat.add_assoc, Nat.add_assoc]
  | @lexeme l w behind htakes ih =>
    rw [run_takes_some htakes] at hstop hlast ⊢
    dsimp only at hstop hlast ⊢
    have hends := fun last hmem => hlast last (getLast?_cons_of_mem hmem)
    have hlonger : Cut.Takes (some l) w (behind ++ more) := by
      by_cases hnil : (run behind (offset + w.length) (line + Text.lineFeeds w)).tokens = []
      · obtain rfl : l = .semicolon := hlast ⟨l, offset, line⟩ (by rw [hnil]; rfl)
        exact htakes.append_semicolon more
      · have hfinal := List.getLast?_eq_some_getLast hnil
        have hmem := mem_of_run (List.mem_of_getLast? hfinal) (hends _ hfinal)
        exact htakes.append_some hmem (fun rest hquote => closed_of_run hstop hquote) more
    rw [List.append_assoc, run_takes_some hlonger, ih hstop hends, List.length_append,
      Text.lineFeeds_append, ← Nat.add_assoc, ← Nat.add_assoc]
    rfl
  | fault hfirst =>
    rw [run_fault hfirst] at hstop
    cases hstop

end Token

end Part21
