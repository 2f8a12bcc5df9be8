import Part21.Proofs.Exchange.Directives
import Part21.Proofs.Exchange.RoundTrip

set_option autoImplicit false

/-!
# Encodings of strings

The body of a string literal is written segment by segment: a code point as itself, doubled, shifted
or by two digits, or a row of code points by digits in groups, with choices of an alphabet and line
breaks between the segments.  `Encodes` says which bodies are written for a value, in all mixtures
of the forms.

Whatever the mixture, the value is read back, `Encodes.reads`, and apostrophes come in pairs, so
that the literal ends where its body does, `Encodes.bodyLength?_eq`.  `Token.run_encoded` puts both
together for the token that is cut.
-/

namespace Part21

namespace StringBody

/-! ## Segments -/

/-- How code points are written within one segment of a body. -/
inductive Segment : Text → Text → Prop
  | plain {c : CodePoint} (hquote : c ≠ '\'') (hstroke : c ≠ '\\')
      (hbreak : breaksLine c = false) : Segment [c] [c]
  | quote : Segment "'" "''"
  | stroke : Segment "\\" "\\\\"
  | shifted {c d : CodePoint} (hquote : c ≠ '\'') (hbreak : breaksLine c = false)
      (hbasic : c.isBasic = true) (hd : d.toNat = c.toNat + 128) :
      Segment [d] ("\\S\\" ++ [c])
  | shiftedQuote {d : CodePoint} (hd : d.toNat = (CodePoint.ofChar '\'').toNat + 128) :
      Segment [d] "\\S\\''"
  | code {c : CodePoint} {digits : Text} (hlength : digits.length = 2)
      (hdigits : SpellsPlainly digits c) : Segment [c] ("\\X\\" ++ digits)
  | run {width : Nat} {mark value digits : Text} (hmark : RunMark width mark)
      (hdigits : Groups SpellsPlainly width value digits) :
      Segment value ("\\" ++ (mark ++ (digits ++ "\\X0\\")))

/-- What stands between segments without a value: the choice of an alphabet, or a line break. -/
inductive Filler : Text → Prop
  | alphabet {letter : CodePoint} (hletter : letter.between 'A' 'I' = true) :
      Filler ("\\P" ++ letter :: "\\")
  | lineBreak {c : CodePoint} (hbreak : breaksLine c = true) : Filler [c]

/-- The bodies that are written for a value, segment by segment. -/
inductive Encodes : Text → Text → Prop
  | nil : Encodes [] []
  | segment {own word value body : Text} (h : Segment own word) (hmore : Encodes value body) :
      Encodes (own ++ value) (word ++ body)
  | filler {word value body : Text} (h : Filler word) (hmore : Encodes value body) :
      Encodes value (word ++ body)

/-! ## Reading back -/

/-- A text holds neither a line break nor an apostrophe. -/
def Quiet (t : Text) : Prop := ∀ c ∈ t, breaksLine c = false ∧ c ≠ '\''

theorem Quiet.append {front behind : Text} (hfront : Quiet front) (hbehind : Quiet behind) :
    Quiet (front ++ behind) := by
  intro c hc
  rcases List.mem_append.mp hc with hc | hc
  · exact hfront c hc
  · exact hbehind c hc

theorem quiet_of_isHexDigit {digits : Text} (h : ∀ c ∈ digits, CodePoint.isHexDigit c = true) :
    Quiet digits := by
  intro c hc
  have hne : ∀ d : CodePoint, d.isHexDigit = false → c ≠ d := by
    rintro d hd rfl
    rw [h c hc] at hd
    cases hd
  exact ⟨by simp [breaksLine, hne '\r' (by decide), hne '\n' (by decide)], hne '\'' (by decide)⟩

theorem RunMark.quiet {width : Nat} {mark : Text} (h : RunMark width mark) : Quiet mark := by
  unfold Quiet
  cases h <;> decide

/-- Apostrophes stand in a segment as a pair at its end if at all. -/
theorem Segment.quiet {own word : Text} (h : Segment own word) :
    Quiet word ∨ ∃ front, Quiet front ∧ word = front ++ "''" := by
  have hmark : Quiet "\\X\\" ∧ Quiet "\\S\\" ∧ Quiet "\\" ∧ Quiet "\\X0\\" := by
    unfold Quiet
    decide
  obtain ⟨hcode, hshift, hstroke, hclose⟩ := hmark
  have hsingle : ∀ {c : CodePoint}, breaksLine c = false → c ≠ '\'' → Quiet [c] :=
    fun hbreak hquote => by simpa [Quiet] using ⟨hbreak, hquote⟩
  cases h with
  | plain hquote _ hbreak => exact .inl (hsingle hbreak hquote)
  | quote => exact .inr ⟨[], by simp [Quiet], rfl⟩
  | stroke => exact .inl (hstroke.append hstroke)
  | shifted hquote hbreak => exact .inl (hshift.append (hsingle hbreak hquote))
  | shiftedQuote => exact .inr ⟨"\\S\\", hshift, rfl⟩
  | code _ hdigits => exact .inl (hcode.append (quiet_of_isHexDigit hdigits.digits))
  | run hmark hdigits =>
    have hdigits := quiet_of_isHexDigit (hdigits.of_mem fun _ _ hspells => hspells.digits)
    exact .inl (hstroke.append (hmark.quiet.append (hdigits.append hclose)))

theorem unbroken_append (front behind : Text) :
    unbroken (front ++ behind) = unbroken front ++ unbroken behind :=
  List.filter_append front behind

theorem Quiet.unbroken {t : Text} (h : Quiet t) : unbroken t = t := by
  simpa [StringBody.unbroken] using fun c hc => (h c hc).1

/-- No segment is broken. -/
theorem Segment.unbroken {own word : Text} (h : Segment own word) : unbroken word = word := by
  rcases h.quiet with hquiet | ⟨front, hfront, rfl⟩
  · exact hquiet.unbroken
  · rw [unbroken_append, hfront.unbroken]
    rfl

/-- What a segment is written for is read from it, whatever follows. -/
theorem Segment.reads {own word value rest : Text} (h : Segment own word)
    (hrest : Reads SpellsPlainly value rest) : Reads SpellsPlainly (own ++ value) (word ++ rest) := by
  cases h with
  | plain hquote hstroke _ => exact .plain hquote hstroke hrest
  | quote => exact .quote hrest
  | stroke => exact .directive (.stroke rest) hrest
  | shifted hquote _ _ hd => exact .directive (.shift hquote hd rest) hrest
  | shiftedQuote hd => exact .directive (.shiftQuote hd (CodePoint.ofChar '\'' :: rest)) hrest
  | @code c digits hlength hdigits =>
    rw [List.append_assoc]
    exact .directive (.code hlength hdigits rest) hrest
  | @run width mark _ digits hmark hdigits =>
    have hparts : ("\\" ++ (mark ++ (digits ++ "\\X0\\")) ++ rest : Text) =
        CodePoint.ofChar '\\' :: (mark ++ (digits ++ ("\\X0\\" ++ rest))) := by
      simp [Text.ofString]
    rw [hparts]
    exact .directive (.run hmark hdigits rest) hrest

/-- A string is read from each of its encodings, as soon as the line breaks are out of it. -/
theorem Encodes.reads {value body : Text} (h : Encodes value body) :
    Reads SpellsPlainly value (unbroken body) := by
  induction h with
  | nil => exact .nil
  | segment h _ ih =>
    rw [unbroken_append, h.unbroken]
    exact h.reads ih
  | @filler word value body h _ ih =>
    rw [unbroken_append]
    cases h with
    | @alphabet letter hletter =>
      have hletters : Quiet ("\\P" ++ letter :: "\\") := by
        have hne : ∀ d : CodePoint, d.between 'A' 'I' = false → letter ≠ d := by
          rintro d hd rfl
          rw [hletter] at hd
          cases hd
        have hquiet : Quiet [letter] := by
          simp [Quiet, breaksLine, hne '\r' (by decide), hne '\n' (by decide),
            hne '\'' (by decide)]
        have hmark : Quiet "\\P" ∧ Quiet "\\" := by
          unfold Quiet
          decide
        exact hmark.1.append (hquiet.append hmark.2)
      rw [hletters.unbroken]
      exact .directive (.alphabet hletter (unbroken body)) ih
    | lineBreak hbreak => simpa [unbroken, hbreak] using ih

/-- A string is decoded from each of its encodings. -/
theorem Encodes.decode_eq {value body : Text} (h : Encodes value body) :
    decode body = .ok value :=
  decodeLine_eq_ok.mpr (h.reads.mono fun _ _ hplain => (spellsPlainly_iff.mp hplain).1)

/-! ## The end of a body -/

/-- The body of a literal that starts with a word goes on behind it. -/
def Passes (word : Text) : Prop :=
  ∀ (more : Text) (length : Nat), Cut.bodyLength? more = some length →
    Cut.bodyLength? (word ++ more) = some (word.length + length)

theorem Passes.append {front behind : Text} (hfront : Passes front) (hbehind : Passes behind) :
    Passes (front ++ behind) := by
  intro more length h
  rw [List.append_assoc, hfront _ _ (hbehind more length h), List.length_append, Nat.add_assoc]

theorem passes_of_not_mem {word : Text} (h : CodePoint.ofChar '\'' ∉ word) : Passes word := by
  induction word with
  | nil => simp [Passes]
  | cons c rest ih =>
    intro more length hmore
    have hne : c ≠ '\'' := fun hc => h (hc ▸ List.mem_cons_self)
    have hrest := ih (fun hmem => h (List.mem_cons_of_mem c hmem)) more length hmore
    have hsome : rest ++ more ≠ [] := by
      intro hnil
      rw [hnil] at hrest
      cases hrest
    rw [List.cons_append, Cut.bodyLength?_cons hne hsome, hrest, Option.map_some, List.length_cons]
    congr 1
    omega

theorem passes_quotes : Passes "''" := by
  intro more length h
  have hquotes : Cut.bodyLength? ("''" ++ more) = some (length + 2) := by
    have hpair : ("''" ++ more : Text) =
        CodePoint.ofChar '\'' :: CodePoint.ofChar '\'' :: more := rfl
    rw [hpair, Cut.bodyLength?, if_pos rfl, if_pos rfl, h]
    rfl
  rw [hquotes, Nat.add_comm]
  rfl

theorem Segment.passes {own word : Text} (h : Segment own word) : Passes word := by
  have hquiet : ∀ {t : Text}, Quiet t → Passes t := fun h =>
    passes_of_not_mem fun hmem => (h _ hmem).2 rfl
  rcases h.quiet with h | ⟨front, hfront, rfl⟩
  · exact hquiet h
  · exact (hquiet hfront).append passes_quotes

theorem Filler.passes {word : Text} (h : Filler word) : Passes word := by
  apply passes_of_not_mem
  cases h with
  | @alphabet letter hletter =>
    have hne : CodePoint.ofChar '\'' ≠ letter := by
      rintro rfl
      exact absurd hletter (by decide)
    have hP : CodePoint.ofChar '\'' ≠ 'P' ∧ CodePoint.ofChar '\'' ≠ '\\' := by decide
    simp [Text.ofString, hne, hP]
  | lineBreak hbreak =>
    rw [List.mem_singleton]
    rintro rfl
    exact absurd hbreak (by decide)

/-- A literal ends where the encoding of its string ends. -/
theorem Encodes.bodyLength?_eq {value body behind : Text} (h : Encodes value body)
    (hbehind : ∀ c ∈ behind.head?, c ≠ '\'') :
    Cut.bodyLength? (body ++ ("'" ++ behind)) = some body.length := by
  induction h with
  | nil =>
    cases behind with
    | nil => rfl
    | cons d rest =>
      have hd : d ≠ '\'' := hbehind d rfl
      have hends : Cut.bodyLength? (CodePoint.ofChar '\'' :: d :: rest) = some 0 := by
        rw [Cut.bodyLength?, if_pos rfl, if_neg hd]
      exact hends
  | segment h _ ih => rw [List.append_assoc, h.passes _ _ ih, List.length_append]
  | filler h _ ih => rw [List.append_assoc, h.passes _ _ ih, List.length_append]

end StringBody

/-- From each encoding of a string, the string is decoded, and the encoding between apostrophes is
cut as one token of that value if no apostrophe follows. -/
theorem Token.run_encoded {value body : Text} (h : StringBody.Encodes value body) :
    StringBody.decode body = .ok value ∧
      ∀ (behind : Text) (offset line : Nat), (∀ c ∈ behind.head?, c ≠ '\'') →
        run ("'" ++ (body ++ ("'" ++ behind))) offset line =
          ⟨⟨.string value, offset, line⟩ ::
              (run behind (offset + (body.length + 2)) (line + Text.lineFeeds body)).tokens,
            (run behind (offset + (body.length + 2)) (line + Text.lineFeeds body)).stop⟩ := by
  refine ⟨h.decode_eq, fun behind offset line hbehind => ?_⟩
  have htakes := Cut.takes_body h.decode_eq (h.bodyLength?_eq hbehind)
  have hparts : ("'" ++ (body ++ ("'" ++ behind)) : Text) = "'" ++ (body ++ "'") ++ behind := by
    simp
  have hlength : ("'" ++ (body ++ "'") : Text).length = body.length + 2 := by
    simp [Text.ofString]
  have hfeeds : Text.lineFeeds ("'" ++ (body ++ "'")) = Text.lineFeeds body := by
    have hmark : (Text.ofString "'").count Text.lineFeed = 0 := by decide
    simp [Text.lineFeeds, hmark]
  rw [hparts, run_takes_some htakes, hlength, hfeeds]

/-- A literal in which the directives for a code point, for a row of them and for a shift, doubled
apostrophes, the choice of an alphabet and a line break follow one another. -/
theorem Token.run_encoded_mixed :
    StringBody.Encodes "é'é§" "\\PA\\\\X\\e9''\n\\X2\\00E9\\X0\\\\S\\''" ∧
      StringBody.decode "\\PA\\\\X\\e9''\n\\X2\\00E9\\X0\\\\S\\''" = .ok "é'é§" ∧
      run ("'" ++ ("\\PA\\\\X\\e9''\n\\X2\\00E9\\X0\\\\S\\''" ++ ("'" ++ ";"))) 0 1 =
        ⟨⟨.string "é'é§", 0, 1⟩ :: (run ";" 31 2).tokens, (run ";" 31 2).stop⟩ := by
  have hcode : StringBody.SpellsPlainly "e9" 'é' := ⟨by decide, by decide, by decide⟩
  have hgroup : StringBody.SpellsPlainly "00E9" 'é' := ⟨by decide, by decide, by decide⟩
  have hgroups : StringBody.Groups StringBody.SpellsPlainly 4 "é" (Text.ofString "00E9" ++ []) :=
    .cons rfl hgroup .nil
  have halphabet : StringBody.Filler "\\PA\\" :=
    .alphabet (show (CodePoint.ofChar 'A').between 'A' 'I' = true by decide)
  have hencodes : StringBody.Encodes "é'é§" "\\PA\\\\X\\e9''\n\\X2\\00E9\\X0\\\\S\\''" :=
    .filler halphabet <| .segment (.code rfl hcode) <| .segment .quote <|
      .filler (.lineBreak (c := '\n') (by decide)) <| .segment (.run .four hgroups) <|
        .segment (.shiftedQuote (d := '§') (by decide)) .nil
  obtain ⟨hdecode, hrun⟩ := run_encoded hencodes
  exact ⟨hencodes, hdecode, hrun ";" 0 1 (by decide)⟩

end Part21
