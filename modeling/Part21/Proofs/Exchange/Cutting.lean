import Part21.Proofs.Exchange.Layout

set_option autoImplicit false

/-!
# Numbers are cut from their spellings

Rules are tried one after another at the start of a text, and the first one that applies says how
much is cut.  `Cut.Takes` says that a spelling is cut whole from a text it starts.  Which rule
applies depends on the first code point, so there is one lemma for each first code point.  How far
the rule goes depends on what stands behind the spelling: all rules stop at a border, which is a
separator, the start of a comment or a mark of the record.

This module covers numbers and names of instances, `Cut.takes_real`, `Cut.takes_integer` and
`Cut.takes_entityName`.
-/

namespace Part21

/-- No digit starts a name, whatever the script. -/
theorem CodePoint.isDigit_of_startsName {c : CodePoint} (h : c.startsName = true) :
    c.isDigit = false := by
  have hzeros : ∀ start ∈ zeroDigits, start = 0x30 ∨ 0x80 ≤ start := by decide
  have hrange : 0x41 ≤ c.toNat ∧ c.toNat < 0x80 := by
    simp only [startsName, isLetter, isCapital, isSmall, between, Bool.or_eq_true,
      Bool.and_eq_true, decide_eq_true_eq] at h
    rcases h with (⟨hlow, hhigh⟩ | ⟨hlow, hhigh⟩) | rfl
    · exact ⟨hlow, Nat.lt_of_le_of_lt hhigh (by decide)⟩
    · exact ⟨Nat.le_trans (by decide) hlow, Nat.lt_of_le_of_lt hhigh (by decide)⟩
    · decide
  have hnone : c.digitValue? = none := by
    rw [digitValue?, Option.map_eq_none_iff, List.find?_eq_none]
    intro start hmem hfound
    simp only [Bool.and_eq_true, decide_eq_true_eq] at hfound
    have := hzeros start hmem
    omega
  rw [isDigit, hnone]
  rfl

namespace Cut

/-! ## Where lexemes end -/

/-- The separators, the stroke that opens a comment, and the marks. -/
def borders : Text := " \t\r\x0c\n/$*(),;="

/-- A text that is empty or starts with a code point in front of which any lexeme ends. -/
def Stops (behind : Text) : Prop := ∀ c ∈ behind.head?, c ∈ borders

theorem mem_borders_of_isSeparator {c : CodePoint} (h : isSeparator c = true) : c ∈ borders := by
  simp only [isSeparator, Bool.or_eq_true, decide_eq_true_eq] at h
  rcases h with (((rfl | rfl) | rfl) | rfl) | rfl <;> decide

theorem mem_borders_of_punctuation? {c : CodePoint} {l : Lexeme} (h : punctuation? c = some l) :
    c ∈ borders := by
  unfold punctuation? at h
  repeat' split at h
  all_goals first
    | (subst c; decide)
    | cases h

/-- A class that holds no border. -/
def Spares (p : CodePoint → Bool) : Prop := ∀ c ∈ borders, p c = false

theorem spares_isDigit : Spares CodePoint.isDigit := by
  unfold Spares
  decide

theorem spares_continuesName : Spares CodePoint.continuesName := by
  unfold Spares
  decide

/-- A row of code points of a class ends where one stands that is not of the class. -/
theorem takeWhile_append_eq {p : CodePoint → Bool} {w behind : Text} (hw : ∀ c ∈ w, p c = true)
    (hbehind : ∀ c ∈ behind.head?, p c = false) : (w ++ behind).takeWhile p = w := by
  rw [List.takeWhile_append_of_pos hw]
  cases behind with
  | nil => simp
  | cons c rest =>
    have hc : p c = false := hbehind c rfl
    simp [hc]

theorem Stops.takeWhile_eq {p : CodePoint → Bool} (hp : Spares p) {w behind : Text}
    (hbehind : Stops behind) (hw : ∀ c ∈ w, p c = true) : (w ++ behind).takeWhile p = w :=
  takeWhile_append_eq hw fun c hc => hp c (hbehind c hc)

/-! ## Which rule applies -/

theorem isPrefixOf_cons_of_ne {a c : CodePoint} (h : a ≠ c) (as rest : Text) :
    (a :: as).isPrefixOf (c :: rest) = false := by
  simp [List.isPrefixOf, h]

/-- A code point of a class without borders starts no separator. -/
theorem Spares.not_separator {p : CodePoint → Bool} (hp : Spares p) {c : CodePoint}
    (hc : p c = true) (rest : Text) :
    isSeparator c = false ∧ (Text.ofString "/*").isPrefixOf (c :: rest) = false := by
  have hmem : c ∉ borders := fun hmem => by
    rw [hp c hmem] at hc
    cases hc
  refine ⟨Bool.eq_false_iff.mpr fun h => hmem (mem_borders_of_isSeparator h), ?_⟩
  refine isPrefixOf_cons_of_ne (a := '/') ?_ _ rest
  rintro rfl
  exact hmem (by decide)

theorem first_of_digit {c : CodePoint} (hc : c.isDigit = true) (rest : Text) :
    first c rest = number false 0 (c :: rest) := by
  have hne : ∀ d : CodePoint, d.isDigit = false → d ≠ c := by
    rintro d hd rfl
    rw [hc] at hd
    cases hd
  obtain ⟨hseparator, hcomment⟩ := spares_isDigit.not_separator hc rest
  have hclosing : Lexeme.closing.fixedSpelling.isPrefixOf (c :: rest) = false :=
    isPrefixOf_cons_of_ne (hne 'E' (by decide)) _ _
  have hopening : Lexeme.opening.fixedSpelling.isPrefixOf (c :: rest) = false :=
    isPrefixOf_cons_of_ne (hne 'I' (by decide)) _ _
  unfold first
  dsimp only
  rw [hseparator, hcomment, hclosing, hopening, hc]
  rfl

theorem first_of_startsName {c : CodePoint} {rest : Text} (hc : c.startsName = true)
    (hclosing : Lexeme.closing.fixedSpelling.isPrefixOf (c :: rest) = false)
    (hopening : Lexeme.opening.fixedSpelling.isPrefixOf (c :: rest) = false) {cut : Cut}
    (hcut : word? (c :: rest) = some cut) : first c rest = .ok cut := by
  have hne : ∀ d : CodePoint, d.startsName = false → c ≠ d := by
    rintro d hd rfl
    rw [hc] at hd
    cases hd
  have hdigit : c.isDigit = false := CodePoint.isDigit_of_startsName hc
  have hcontinues : c.continuesName = true := by rw [CodePoint.continuesName, hc]; rfl
  obtain ⟨hseparator, hcomment⟩ := spares_continuesName.not_separator hcontinues rest
  unfold first
  dsimp only
  rw [hseparator, hcomment, hclosing, hopening, hdigit]
  simp only [hne '+' (by decide), hne '-' (by decide), hne '#' (by decide), hne '\'' (by decide),
    hne '"' (by decide), hne '.' (by decide), hcut, Bool.false_eq_true, false_or, false_and,
    if_false]

theorem first_exclamation {rest : Text} {cut : Cut} (hcut : word? ("!" ++ rest) = some cut) :
    first '!' rest = .ok cut := by
  have hcut : word? ((CodePoint.ofChar '!') :: rest) = some cut := hcut
  unfold first
  dsimp only
  rw [hcut]
  rfl

theorem first_signed {rest : Text} (hrest : startsWithDigit rest = true) :
    first '+' rest = number false 1 rest ∧ first '-' rest = number true 1 rest := by
  unfold first
  rw [hrest]
  exact ⟨rfl, rfl⟩

theorem first_numberSign {rest : Text} (hrest : startsWithDigit rest = true) :
    first '#' rest = entityName rest := by
  unfold first
  rw [hrest]
  rfl

theorem first_point {rest : Text} {cut : Cut} (hcut : enumeration? rest = some cut) :
    first '.' rest = .ok cut := by
  unfold first
  rw [hcut]
  rfl

theorem first_mark {c : CodePoint} {l : Lexeme} (hc : punctuation? c = some l) (rest : Text) :
    first c rest = .ok ⟨some l, 1⟩ := by
  unfold punctuation? at hc
  repeat' split at hc
  all_goals first
    | (cases hc; subst c; rfl)
    | cases hc

theorem first_separator {c : CodePoint} (hc : isSeparator c = true) (rest : Text) :
    first c rest = .ok ⟨none, 1⟩ := by
  unfold first
  rw [hc]
  rfl

/-! ## Numbers -/

/-- The start of a text is cut: what `found` says, of the length of `w`. -/
def Takes (found : Option Lexeme) (w behind : Text) : Prop :=
  ∃ c rest, w = c :: rest ∧ first c (rest ++ behind) = .ok ⟨found, w.length⟩

theorem startsWithDigit_append {digits : Text} (hdigits : digits.IsNumeral) (behind : Text) :
    startsWithDigit (digits ++ behind) = true := by
  cases digits with
  | nil => exact absurd rfl hdigits.some
  | cons c rest => exact hdigits.digits c List.mem_cons_self

/-- A number behind a sign is cut as the rules for numbers say. -/
theorem takes_signed {sign : Sign} (body : Text) {behind : Text} {l : Lexeme}
    (hbody : startsWithDigit (body ++ behind) = true) (hsome : body ≠ [])
    (h : number sign.isNegative sign.text.length (body ++ behind) =
      .ok ⟨some l, sign.text.length + body.length⟩) :
    Takes (some l) (sign.text ++ body) behind := by
  cases sign with
  | absent =>
    obtain ⟨c, rest, rfl⟩ := List.exists_cons_of_ne_nil hsome
    have hlength : 0 + (c :: rest).length = (Sign.absent.text ++ c :: rest).length :=
      Nat.zero_add _
    exact ⟨c, rest, rfl, hlength ▸ (first_of_digit hbody _).trans h⟩
  | plus =>
    have hlength : 1 + body.length = (Sign.plus.text ++ body).length := Nat.add_comm 1 _
    exact ⟨'+', body, rfl, hlength ▸ (first_signed hbody).1.trans h⟩
  | minus =>
    have hlength : 1 + body.length = (Sign.minus.text ++ body).length := Nat.add_comm 1 _
    exact ⟨'-', body, rfl, hlength ▸ (first_signed hbody).2.trans h⟩

/-- A digit is no sign. -/
theorem ne_of_isDigit {c d : CodePoint} (hc : c.isDigit = true) (hd : d.isDigit = false) :
    c ≠ d := by
  rintro rfl
  rw [hc] at hd
  cases hd

/-- An exponent is read from its spelling. -/
theorem exponent?_append {e : Exponent} {text behind : Text} (he : e.Written text)
    (hbehind : Stops behind) : exponent? (text ++ behind) = some e := by
  obtain ⟨hmark, hdigits⟩ := he
  rename_i mark sign digits
  have hrow := hbehind.takeWhile_eq spares_isDigit hdigits.digits
  cases sign with
  | absent =>
    obtain ⟨d, more, rfl⟩ := List.exists_cons_of_ne_nil hdigits.some
    have hd : d.isDigit = true := hdigits.digits d List.mem_cons_self
    have hplus : d ≠ '+' := ne_of_isDigit hd (by decide)
    have hminus : d ≠ '-' := ne_of_isDigit hd (by decide)
    rw [List.cons_append] at hrow
    simp [exponent?, Sign.text, Sign.isNegative, hmark, hplus, hminus, hrow]
  | plus =>
    have hsign : Text.ofString "+" = [CodePoint.ofChar '+'] := rfl
    have hne : CodePoint.ofChar '+' ≠ CodePoint.ofChar '-' := by decide
    simp [exponent?, Sign.text, Sign.isNegative, hmark, hrow, hdigits.some, hsign, hne]
  | minus =>
    have hsign : Text.ofString "-" = [CodePoint.ofChar '-'] := rfl
    simp [exponent?, Sign.text, Sign.isNegative, hmark, hrow, hdigits.some, hsign]

theorem exponent_length {e : Exponent} {text : Text} (he : e.Written text) :
    e.length = text.length := by
  obtain ⟨_, _⟩ := he
  rw [List.length_cons, List.length_append, Nat.add_comm (List.length _)]

/-- Neither a fraction nor an exponent starts at a border. -/
theorem Stops.no_continuation {behind : Text} (h : Stops behind) :
    fraction? behind = none ∧ exponent? behind = none := by
  cases behind with
  | nil => exact ⟨rfl, rfl⟩
  | cons c rest =>
    have hborders : ∀ c ∈ borders, c ≠ '.' ∧ ¬ (c = 'e' ∨ c = 'E') := by decide
    obtain ⟨hpoint, hmark⟩ := hborders c (h c rfl)
    exact ⟨if_neg hpoint, if_neg hmark⟩

/-- An exponent starts with a letter. -/
theorem exponent_head {e : Exponent} {text : Text} (he : e.Written text) (behind : Text) :
    fraction? (text ++ behind) = none ∧
      ∀ c ∈ (text ++ behind).head?, CodePoint.isDigit c = false := by
  obtain ⟨hmark, _⟩ := he
  rcases hmark with rfl | rfl
  · exact ⟨rfl, fun c hc => by cases hc; rfl⟩
  · exact ⟨rfl, fun c hc => by cases hc; rfl⟩

/-- A fraction is read from its spelling. -/
theorem fraction?_append {fraction behind : Text}
    (hfraction : ∀ c ∈ fraction, CodePoint.isDigit c = true)
    (hbehind : ∀ c ∈ behind.head?, CodePoint.isDigit c = false) :
    fraction? ("." ++ (fraction ++ behind)) = some fraction := by
  have hpoint : fraction? ("." ++ (fraction ++ behind)) =
      some ((fraction ++ behind).takeWhile CodePoint.isDigit) := rfl
  rw [hpoint, takeWhile_append_eq hfraction hbehind]

theorem checkDigits_eq_ok {digits : Text} (h : digits.length ≤ Numeral.digitLimit) :
    checkDigits digits = .ok () := if_neg (Nat.not_lt_of_le h)

/-- Digits in front of a border are an integer. -/
theorem number_integer {negative : Bool} {signLength : Nat} {digits behind : Text}
    (hdigits : digits.IsNumeral) (hlimit : digits.length ≤ Numeral.digitLimit)
    (hbehind : Stops behind) :
    number negative signLength (digits ++ behind) =
      .ok ⟨some (.integer (integerValue negative digits)), signLength + digits.length⟩ := by
  obtain ⟨hpoint, hexponent⟩ := hbehind.no_continuation
  rw [number, hbehind.takeWhile_eq spares_isDigit hdigits.digits, List.drop_left]
  dsimp only
  rw [hpoint]
  dsimp only
  rw [hexponent]
  dsimp only
  rw [checkDigits_eq_ok hlimit]

/-- Digits, a point and digits are a real, with the exponent that follows if one does. -/
theorem number_point {negative : Bool} {signLength : Nat} {whole fraction behind : Text}
    (hwhole : whole.IsNumeral) (hfraction : ∀ c ∈ fraction, CodePoint.isDigit c = true)
    (hbehind : ∀ c ∈ behind.head?, CodePoint.isDigit c = false) :
    number negative signLength (whole ++ ("." ++ (fraction ++ behind))) =
      .ok ⟨some (.real (realValue negative whole fraction (exponent? behind))),
        signLength + whole.length + 1 + fraction.length +
          ((exponent? behind).map Exponent.length).getD 0⟩ := by
  have hpoint : ∀ c ∈ (Text.ofString "." ++ (fraction ++ behind)).head?,
      CodePoint.isDigit c = false := fun c hc => by cases hc; rfl
  have hdrop : (Text.ofString "." ++ (fraction ++ behind)).drop (fraction.length + 1) = behind :=
    List.drop_left
  rw [number, takeWhile_append_eq hwhole.digits hpoint, List.drop_left]
  dsimp only
  rw [fraction?_append hfraction hbehind]
  dsimp only
  rw [hdrop]

/-- Digits in front of an exponent are a real. -/
theorem number_exponent {negative : Bool} {signLength : Nat} {whole text behind : Text}
    {e : Exponent} (hwhole : whole.IsNumeral) (he : e.Written text) (hbehind : Stops behind) :
    number negative signLength (whole ++ (text ++ behind)) =
      .ok ⟨some (.real (realValue negative whole [] (some e))),
        signLength + whole.length + text.length⟩ := by
  obtain ⟨hpoint, hmark⟩ := exponent_head he behind
  rw [number, takeWhile_append_eq hwhole.digits hmark, List.drop_left]
  dsimp only
  rw [hpoint]
  dsimp only
  rw [exponent?_append he hbehind]
  dsimp only
  rw [exponent_length he]

/-- A real is cut from each of its spellings. -/
theorem takes_real {value : Binary64} {text behind : Text} (h : RealWritten value text)
    (hbehind : Stops behind) : Takes (some (.real value)) text behind := by
  have hdigit : ∀ c ∈ behind.head?, CodePoint.isDigit c = false := fun c hc =>
    spares_isDigit c (hbehind c hc)
  have hsome : ∀ {whole rest : Text}, whole.IsNumeral → whole ++ rest ≠ [] :=
    fun hwhole hnil => hwhole.some (List.append_eq_nil_iff.mp hnil).1
  cases h with
  | @point sign whole fraction hwhole hfraction =>
    refine takes_signed (whole ++ ("." ++ fraction)) ?_ (hsome hwhole) ?_
    · rw [List.append_assoc]
      exact startsWithDigit_append hwhole _
    · rw [List.append_assoc, List.append_assoc, number_point hwhole hfraction hdigit,
        hbehind.no_continuation.2]
      have hlength : (Text.ofString ".").length = 1 := rfl
      simp [Nat.add_assoc, hlength]
  | @exponent sign whole text e hwhole he =>
    refine takes_signed (whole ++ text) ?_ (hsome hwhole) ?_
    · rw [List.append_assoc]
      exact startsWithDigit_append hwhole _
    · rw [List.append_assoc, number_exponent hwhole he hbehind, List.length_append,
        Nat.add_assoc]
  | @both sign whole fraction text e hwhole hfraction he =>
    refine takes_signed (whole ++ ("." ++ (fraction ++ text))) ?_ (hsome hwhole) ?_
    · rw [List.append_assoc]
      exact startsWithDigit_append hwhole _
    · rw [List.append_assoc, List.append_assoc, List.append_assoc,
        number_point hwhole hfraction (exponent_head he behind).2, exponent?_append he hbehind]
      have hlength : (Text.ofString ".").length = 1 := rfl
      simp [exponent_length he, Nat.add_assoc, hlength]

/-- An integer is cut from each of its spellings. -/
theorem takes_integer {sign : Sign} {digits behind : Text} (hdigits : digits.IsNumeral)
    (hlimit : digits.length ≤ Numeral.digitLimit) (hbehind : Stops behind) :
    Takes (some (.integer (integerValue sign.isNegative digits))) (sign.text ++ digits) behind :=
  takes_signed digits (startsWithDigit_append hdigits behind) hdigits.some
    (number_integer hdigits hlimit hbehind)

/-- The name of an instance is cut from each of its spellings. -/
theorem takes_entityName {digits behind : Text} (hdigits : digits.IsNumeral)
    (hlimit : digits.length ≤ Numeral.digitLimit) (hbehind : Stops behind) :
    Takes (some (.entityName digits.digitsValue)) ("#" ++ digits) behind := by
  refine ⟨'#', digits, rfl, ?_⟩
  rw [first_numberSign (startsWithDigit_append hdigits behind), entityName,
    hbehind.takeWhile_eq spares_isDigit hdigits.digits, checkDigits_eq_ok hlimit]
  rfl

end Cut

end Part21
