import Part21.Proofs.Express.Layout
import Part21.Proofs.Exchange.RoundTrip

set_option autoImplicit false

/-!
# Lexemes are cut from their spellings

Which rule applies at the start of a text depends on the first code point, so there is one lemma for
each kind of first code point.  A parenthesis may open a comment and a colon an expression; whether
they do is settled by the next code point.

The main statements are `Lexeme.takes_written`, every spelling is cut whole in front of a text where
the lexeme ends, and `Token.run_laid`, the tokens of a layout are the lexemes that are laid out.  A
number with more digits than are read stops the reader, `Token.run_overlong`.
-/

namespace Part21

namespace Express

/-! ## Reserved words -/

namespace Word

theorem name_injective {v w : Word} (h : v.name = w.name) : v = w := by
  have hall : ∀ v ∈ all, ∀ w ∈ all, v.name = w.name → v = w := by decide +kernel
  exact hall v (mem_all v) w (mem_all w) h

/-- A reserved word is found by its spelling in any letter case. -/
theorem find?_eq_some_iff {spelling : Text} {w : Word} :
    find? spelling = some w ↔ spelling.upper = w.name := by
  have hsound : ∀ v : Word, find? spelling = some v → spelling.upper = v.name := by
    intro v hv
    rw [find?] at hv
    have hfound := List.find?_some hv
    exact (of_decide_eq_true hfound).symm
  constructor
  · exact hsound w
  · intro h
    cases hfound : find? spelling with
    | none =>
      have hnone := List.find?_eq_none.mp hfound w (mem_all w)
      exact absurd (decide_eq_true h.symm) hnone
    | some v => rw [name_injective ((hsound v hfound).symm.trans h)]

theorem find?_eq_none_iff {spelling : Text} :
    find? spelling = none ↔ ∀ w : Word, spelling.upper ≠ w.name := by
  rw [Option.eq_none_iff_forall_ne_some]
  exact forall_congr' fun w => not_congr find?_eq_some_iff

end Word

namespace Cut

/-! ## Which rule applies -/

theorem closed?_eq_none {c : CodePoint} (hparen : c ≠ '(') (hcolon : c ≠ ':') (rest : Text) :
    closed? (c :: rest) = none := by
  have hcomment : Text.dropStart? "(*" (c :: rest) = none := by
    simp [Text.dropStart?, Text.ofString, List.isPrefixOf?, hparen.symm]
  have hexpression : Text.dropStart? ":=" (c :: rest) = none := by
    simp [Text.dropStart?, Text.ofString, List.isPrefixOf?, hcolon.symm]
  rw [closed?, hcomment]
  dsimp only
  rw [hexpression]

/-- A parenthesis opens no comment and a colon no expression unless the next code point says so. -/
theorem closed?_sign {c : CodePoint} (hc : c = '(' ∨ c = ':') {behind : Text}
    (hparen : c = '(' → ∀ d ∈ behind.head?, d ≠ '*')
    (hcolon : c = ':' → ∀ d ∈ behind.head?, d ≠ '=') : closed? (c :: behind) = none := by
  cases behind with
  | nil => rcases hc with rfl | rfl <;> rfl
  | cons d rest =>
    rcases hc with rfl | rfl
    · have hd : CodePoint.ofChar '*' ≠ d := (hparen rfl d rfl).symm
      have hcolon : CodePoint.ofChar ':' ≠ '(' := by decide
      simp [closed?, Text.dropStart?, Text.ofString, List.isPrefixOf?, hd, hcolon]
    · have hd : CodePoint.ofChar '=' ≠ d := (hcolon rfl d rfl).symm
      have hparen : CodePoint.ofChar '(' ≠ ':' := by decide
      simp [closed?, Text.dropStart?, Text.ofString, List.isPrefixOf?, hd, hparen]

theorem first_separator {c : CodePoint} (hc : isSeparator c = true) (rest : Text) :
    first c rest = .ok ⟨none, 1⟩ := by
  rw [first, if_pos hc]

theorem first_closed {c : CodePoint} {rest : Text} {cut : Cut} (hc : isSeparator c = false)
    (hcut : closed? (c :: rest) = some cut) : first c rest = .ok cut := by
  rw [first, hc, hcut]
  rfl

/-- No digit is one of the other code points that decide which rule applies. -/
theorem first_of_digit {c : CodePoint} (hc : c.isDigit = true) (rest : Text) :
    first c rest = number (c :: rest) := by
  have hne : ∀ d : CodePoint, d.isDigit = false → c ≠ d := by
    rintro d hd rfl
    rw [hc] at hd
    cases hd
  have hseparator : isSeparator c = false := by
    simp [isSeparator, hne ' ' (by decide), hne '\t' (by decide), hne '\r' (by decide),
      hne '\n' (by decide)]
  rw [first, hseparator, closed?_eq_none (hne '(' (by decide)) (hne ':' (by decide)), hc]
  rfl

theorem first_of_letter {c : CodePoint} (hc : c.isLetter = true) (rest : Text) :
    first c rest = .ok (name (c :: rest)) := by
  have hne : ∀ d : CodePoint, d.isLetter = false → c ≠ d := by
    rintro d hd rfl
    rw [hc] at hd
    cases hd
  have hseparator : isSeparator c = false := by
    simp [isSeparator, hne ' ' (by decide), hne '\t' (by decide), hne '\r' (by decide),
      hne '\n' (by decide)]
  have hdigit : c.isDigit = false :=
    CodePoint.isDigit_of_startsName (by rw [CodePoint.startsName, hc]; rfl)
  rw [first, hseparator, closed?_eq_none (hne '(' (by decide)) (hne ':' (by decide)), hdigit, hc]
  rfl

theorem first_sign (s : Sign) {behind : Text} (hbehind : (Lexeme.sign s).Ends behind) :
    first s.spelling behind = .ok ⟨some (.sign s), 1⟩ := by
  have hplain : isSeparator s.spelling = false ∧ s.spelling.isDigit = false ∧
      s.spelling.isLetter = false ∧ CodePoint.ofChar '-' ≠ s.spelling ∧
      Sign.find? s.spelling = some s := by
    cases s <;> decide
  obtain ⟨hseparator, hdigit, hletter, hdash, hfound⟩ := hplain
  have hdashes : (Text.ofString "--").isPrefixOf (s.spelling :: behind) = false :=
    Part21.Cut.isPrefixOf_cons_of_ne hdash _ _
  have hclosed : closed? (s.spelling :: behind) = none := by
    by_cases hopens : s = .leftParen ∨ s = .colon
    · have hnext : ∀ d ∈ behind.head?, (Lexeme.sign s).goesOn d = false := hbehind
      rcases hopens with rfl | rfl
      · exact closed?_sign (.inl rfl) (fun _ d hd => of_decide_eq_false (hnext d hd)) nofun
      · exact closed?_sign (.inr rfl) nofun fun _ d hd => of_decide_eq_false (hnext d hd)
    · obtain ⟨hparen, hcolon⟩ := not_or.mp hopens
      refine closed?_eq_none ?_ ?_ behind
      · cases s <;> first | exact absurd rfl hparen | decide
      · cases s <;> first | exact absurd rfl hcolon | decide
  rw [first, hseparator, hclosed, hdigit, hletter, hdashes, hfound]
  rfl

/-! ## Spellings -/

/-- The start of a text is cut: what `found` says, of the length of `w`. -/
def Takes (found : Option Lexeme) (w behind : Text) : Prop :=
  ∃ c rest, w = c :: rest ∧ first c (rest ++ behind) = .ok ⟨found, w.length⟩

/-- A comment in parentheses is cut up to the first mark that closes one. -/
theorem takes_comment {body : Text} (hbody : ¬ Text.ofString "*)" <:+: body) (behind : Text) :
    Takes none ("(*" ++ (body ++ "*)")) behind := by
  refine ⟨'(', "*" ++ (body ++ "*)"), rfl, ?_⟩
  have hlength : ("(*" ++ (body ++ "*)") : Text).length = body.length + 4 := by
    rw [List.length_append, List.length_append, Nat.add_comm]
    rfl
  have hclosed : closed? (CodePoint.ofChar '(' :: ("*" ++ (body ++ "*)") ++ behind)) =
      comment? (body ++ ("*)" ++ behind)) := by
    rw [List.append_assoc, List.append_assoc]
    rfl
  rw [hlength]
  refine first_closed (by decide) ?_
  rw [hclosed, comment?, Text.cut?_append (by decide) hbody]
  rfl

/-- An expression is cut with the marks around it, up to the first semicolon. -/
theorem takes_expression {body : Text} (hbody : CodePoint.ofChar ';' ∉ body) (behind : Text) :
    Takes (some (.expression (Text.trim CodePoint.isBlank body))) (":=" ++ (body ++ ";"))
      behind := by
  refine ⟨':', "=" ++ (body ++ ";"), rfl, ?_⟩
  have hlength : (":=" ++ (body ++ ";") : Text).length = body.length + 3 := by
    rw [List.length_append, List.length_append, Nat.add_comm]
    rfl
  have hclosed : closed? (CodePoint.ofChar ':' :: ("=" ++ (body ++ ";") ++ behind)) =
      expression? (body ++ (";" ++ behind)) := by
    rw [List.append_assoc, List.append_assoc]
    rfl
  have hmark : ¬ Text.ofString ";" <:+: body := fun h => hbody (h.subset List.mem_cons_self)
  rw [hlength]
  refine first_closed (by decide) ?_
  rw [hclosed, expression?, Text.cut?_append (by decide) hmark]
  rfl

/-- A line comment is cut up to the end of its line. -/
theorem takes_lineComment {body : Text} (hbody : Text.lineFeed ∉ body) {behind : Text}
    (hbehind : ∀ c ∈ behind.head?, c = Text.lineFeed) : Takes none ("--" ++ body) behind := by
  refine ⟨'-', "-" ++ body, rfl, ?_⟩
  have hline : ∀ c ∈ Text.ofString "--" ++ body, decide (c ≠ Text.lineFeed) = true := by
    intro c hc
    refine decide_eq_true ?_
    rintro rfl
    rcases List.mem_append.mp hc with hdash | hmem
    · exact absurd hdash (by decide)
    · exact hbody hmem
  have hends : ∀ c ∈ behind.head?, decide (c ≠ Text.lineFeed) = false := fun c hc =>
    decide_eq_false fun hne => hne (hbehind c hc)
  have htaken := Part21.Cut.takeWhile_append_eq hline hends
  have hfirst : first '-' ("-" ++ body ++ behind) =
      .ok ⟨none, ((Text.ofString "--" ++ body ++ behind).takeWhile (· ≠ Text.lineFeed)).length⟩ :=
    rfl
  rw [hfirst, htaken]

/-- A number is cut from a row of digits that is not too long. -/
theorem takes_number {digits behind : Text} (hdigits : digits.IsNumeral)
    (hlimit : digits.length ≤ Numeral.digitLimit)
    (hbehind : ∀ c ∈ behind.head?, CodePoint.isDigit c = false) :
    Takes (some (.number digits.digitsValue)) digits behind := by
  obtain ⟨c, rest, rfl⟩ := List.exists_cons_of_ne_nil hdigits.some
  have htaken := Part21.Cut.takeWhile_append_eq hdigits.digits hbehind
  refine ⟨c, rest, rfl, ?_⟩
  rw [first_of_digit (hdigits.digits c List.mem_cons_self), ← List.cons_append, number, htaken]
  exact if_neg (Nat.not_lt.mpr hlimit)

/-- No number is cut from a longer row. -/
theorem first_overlong {c : CodePoint} {rest behind : Text} (hdigits : Text.IsNumeral (c :: rest))
    (hlimit : Numeral.digitLimit < (c :: rest).length)
    (hbehind : ∀ c ∈ behind.head?, CodePoint.isDigit c = false) :
    first c (rest ++ behind) = .error (.tooManyDigits (c :: rest).length) := by
  have htaken := Part21.Cut.takeWhile_append_eq hdigits.digits hbehind
  rw [first_of_digit (hdigits.digits c List.mem_cons_self), ← List.cons_append, number, htaken]
  exact if_pos hlimit

/-- A reserved word or an identifier is cut from its spelling. -/
theorem takes_name {spelling behind : Text} (h : IsIdentifier spelling)
    (hbehind : ∀ c ∈ behind.head?, CodePoint.continuesName c = false) {l : Lexeme}
    (hl : ∀ t : Text, t.takeWhile CodePoint.continuesName = spelling →
      name t = ⟨some l, spelling.length⟩) : Takes (some l) spelling behind := by
  cases h with
  | @mk c rest hc hrest =>
    have hstart : c.continuesName = true := by
      rw [CodePoint.continuesName, CodePoint.startsName, hc]
      rfl
    have htaken := Part21.Cut.takeWhile_append_eq (List.forall_mem_cons.mpr ⟨hstart, hrest⟩) hbehind
    exact ⟨c, rest, rfl, by rw [first_of_letter hc, ← List.cons_append, hl _ htaken]⟩

end Cut

namespace Lexeme

/-- A lexeme is cut from each of its spellings where it ends, up to the letter case of a reserved
word. -/
theorem takes_written {l : Lexeme} {w behind : Text} (h : l.Written Numeral.digitLimit w)
    (hbehind : l.Ends behind) :
    ∃ own : Lexeme, own.inCapitals = l ∧ Cut.Takes (some own) w behind := by
  cases h with
  | @reserved word _ hspelling hword =>
    refine ⟨.word word w, rfl, Cut.takes_name hspelling hbehind fun t ht => ?_⟩
    rw [Cut.name, ht, Word.find?_eq_some_iff.mpr hword]
  | identifier hname hplain =>
    refine ⟨.identifier w, rfl, Cut.takes_name hname hbehind fun t ht => ?_⟩
    rw [Cut.name, ht, Word.find?_eq_none_iff.mpr hplain]
  | number hdigits hlimit => exact ⟨_, rfl, Cut.takes_number hdigits hlimit hbehind⟩
  | expression hbody => exact ⟨_, rfl, Cut.takes_expression hbody behind⟩
  | @sign s => exact ⟨.sign s, rfl, s.spelling, [], rfl, Cut.first_sign s hbehind⟩

end Lexeme

/-! ## Tokens -/

namespace Token

/-- What separates lexemes only moves the tokens behind it. -/
theorem run_takes_none {w behind : Text} (h : Cut.Takes none w behind) (offset line : Nat) :
    run (w ++ behind) offset line =
      run behind (offset + w.length) (line + Text.lineFeeds w) := by
  obtain ⟨c, rest, rfl, hcut⟩ := h
  rw [List.cons_append, run]
  dsimp only
  rw [hcut]
  dsimp only
  rw [List.length_cons, Nat.add_sub_cancel, List.drop_left, ← List.cons_append,
    ← List.length_cons, List.take_left]

/-- A lexeme that is cut is the next token. -/
theorem run_takes_some {l : Lexeme} {w behind : Text} (h : Cut.Takes (some l) w behind)
    (offset line : Nat) :
    run (w ++ behind) offset line =
      ⟨⟨l, offset, line⟩ :: (run behind (offset + w.length) (line + Text.lineFeeds w)).tokens,
        (run behind (offset + w.length) (line + Text.lineFeeds w)).stop⟩ := by
  obtain ⟨c, rest, rfl, hcut⟩ := h
  rw [List.cons_append, run]
  dsimp only
  rw [hcut]
  dsimp only
  rw [List.length_cons, Nat.add_sub_cancel, List.drop_left, ← List.cons_append,
    ← List.length_cons, List.take_left]

/-- Separators hold no token. -/
theorem run_separates {gap : Text} (h : Separates gap) (behind : Text) (offset line : Nat) :
    run (gap ++ behind) offset line =
      run behind (offset + gap.length) (line + Text.lineFeeds gap) := by
  have hstep : ∀ {w more : Text}, Cut.Takes none w (more ++ behind) → ∀ offset line : Nat,
      (∀ offset line, run (more ++ behind) offset line =
        run behind (offset + more.length) (line + Text.lineFeeds more)) →
      run (w ++ (more ++ behind)) offset line =
        run behind (offset + (w ++ more).length) (line + Text.lineFeeds (w ++ more)) := by
    intro w more htakes offset line hmore
    rw [run_takes_none htakes, hmore, List.length_append, Text.lineFeeds_append, Nat.add_assoc,
      Nat.add_assoc]
  have hblank : ∀ {c : CodePoint}, Cut.isSeparator c = true → ∀ behind, Cut.Takes none [c] behind :=
    fun hc behind => ⟨_, [], rfl, Cut.first_separator hc _⟩
  induction h generalizing offset line with
  | nil => rfl
  | @blank c more hc _ ih => exact hstep (hblank hc _) offset line ih
  | @comment body more hbody _ ih =>
    have hstep := hstep (Cut.takes_comment hbody (more ++ behind)) offset line ih
    simpa only [List.append_assoc] using hstep
  | @lineComment body more hbody _ ih =>
    -- The line feed is cut as a blank of its own.
    have hmore := fun offset line =>
      hstep (@hblank Text.lineFeed (by decide) (more ++ behind)) offset line ih
    have hcomment : Cut.Takes none ("--" ++ body) (Text.lineFeed :: (more ++ behind)) :=
      Cut.takes_lineComment hbody fun c hc => (Option.some.inj hc).symm
    have hstep := @hstep _ (Text.lineFeed :: more) hcomment offset line hmore
    simpa only [List.append_assoc] using hstep

/-- Tokens carry lexemes, whatever the letter case of reserved words. -/
def Carry (ts : List Token) (ls : List Lexeme) : Prop := ts.map (fun t => t.lexeme.inCapitals) = ls

/-- The tokens of a layout carry the lexemes that are laid out. -/
theorem run_laid {ls : List Lexeme} {t : Text} (h : Laid Numeral.digitLimit ls t)
    (offset line : Nat) : ∃ ts, run t offset line = ⟨ts, none⟩ ∧ Carry ts ls := by
  induction h generalizing offset line with
  | nil => exact ⟨[], by rw [run], rfl⟩
  | @lineComment body hbody =>
    have htakes : Cut.Takes none ("--" ++ body) [] := Cut.takes_lineComment hbody (by simp)
    refine ⟨[], ?_, rfl⟩
    rw [← List.append_nil (Text.ofString "--" ++ body), run_takes_none htakes, run]
  | @cons l rest word gap t hword hgap hends _ ih =>
    obtain ⟨own, hown, htakes⟩ := Lexeme.takes_written hword hends
    obtain ⟨ts, hrun, hcarry⟩ := ih (offset + word.length + gap.length)
      (line + Text.lineFeeds word + Text.lineFeeds gap)
    refine ⟨⟨own, offset, line⟩ :: ts, ?_, ?_⟩
    · rw [run_takes_some htakes, run_separates hgap, hrun]
    · rw [Carry, List.map_cons, hown, hcarry]

/-- A row of digits too long to be read is the last thing that is looked at. -/
theorem run_digits {digits behind : Text} (hdigits : digits.IsNumeral)
    (hlimit : Numeral.digitLimit < digits.length)
    (hbehind : ∀ c ∈ behind.head?, CodePoint.isDigit c = false) (offset line : Nat) :
    run (digits ++ behind) offset line = ⟨[], some (.tooManyDigits digits.length, offset)⟩ := by
  obtain ⟨c, rest, rfl⟩ := List.exists_cons_of_ne_nil hdigits.some
  rw [List.cons_append, run]
  dsimp only
  rw [Cut.first_overlong hdigits hlimit hbehind]

/-- A layout has a number too long to be read, or it is one in which there are none. -/
theorem run_overlong {limit : Nat} {ls : List Lexeme} {t : Text} (h : Laid limit ls t)
    (offset line : Nat) :
    Laid Numeral.digitLimit ls t ∨
      ∃ count place, (run t offset line).stop = some (.tooManyDigits count, place) := by
  induction h generalizing offset line with
  | nil => exact .inl .nil
  | lineComment hbody => exact .inl (.lineComment hbody)
  | @cons l rest word gap t hword hgap hends _ ih =>
    have hshort : l.Written Numeral.digitLimit word →
        Laid Numeral.digitLimit (l :: rest) (word ++ (gap ++ t)) ∨ ∃ count place,
          (run (word ++ (gap ++ t)) offset line).stop = some (.tooManyDigits count, place) := by
      intro hword
      obtain ⟨own, -, htakes⟩ := Lexeme.takes_written hword hends
      refine (ih (offset + word.length + gap.length)
        (line + Text.lineFeeds word + Text.lineFeeds gap)).imp (.cons hword hgap hends) ?_
      rintro ⟨count, place, hstop⟩
      exact ⟨count, place, by rw [run_takes_some htakes, run_separates hgap, hstop]⟩
    cases hword with
    | reserved hspelling hword => exact hshort (.reserved hspelling hword)
    | identifier hname hplain => exact hshort (.identifier hname hplain)
    | expression hbody => exact hshort (.expression hbody)
    | sign => exact hshort .sign
    | number hdigits _ =>
      rcases Nat.lt_or_ge Numeral.digitLimit word.length with hlong | hfits
      · exact .inr ⟨word.length, offset, by rw [run_digits hdigits hlong hends]⟩
      · exact hshort (.number hdigits hfits)

end Token

end Express

end Part21
