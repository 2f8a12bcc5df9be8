import Part21.Proofs.Exchange.Restart
import Part21.Proofs.Number.Hexadecimal

set_option autoImplicit false

/-!
# Binaries are read back from their bits

A binary literal holds a row of bits by hexadecimal digits, four bits for each.  A row that is no
multiple of four bits long is filled up with zeros in front, and how many they are stands in front
of the digits.  `Binary.Spells` says which digits spell a row of bits, in either letter case.

The main statement is `Binary.round_trip`: from the literals of any row of bits these bits are read
back, and a binary that is cut from a text has four bits for each digit but for the unused ones.
-/

namespace Part21

/-! ## Digits -/

namespace CodePoint

theorem isBasic_of_isHexDigit {c : CodePoint} (h : c.isHexDigit = true) : c.isBasic = true := by
  have h9 : '9'.toNat = 57 := rfl
  have hF : 'F'.toNat = 70 := rfl
  have hf : 'f'.toNat = 102 := rfl
  simp only [isHexDigit, isBasicDigit, between, Bool.or_eq_true, Bool.and_eq_true,
    decide_eq_true_eq] at h
  simp only [isBasic, decide_eq_true_eq]
  omega

/-- A hexadecimal digit has the same value in capitals. -/
theorem hexValue?_capital {c : CodePoint} {value : Nat} (h : c.hexValue? = some value) :
    c.capital.hexValue? = some value := by
  have h0 : '0'.toNat = 48 := rfl
  have h9 : '9'.toNat = 57 := rfl
  have hA : 'A'.toNat = 65 := rfl
  have hF : 'F'.toNat = 70 := rfl
  have ha : 'a'.toNat = 97 := rfl
  have hf : 'f'.toNat = 102 := rfl
  have hz : 'z'.toNat = 122 := rfl
  unfold capital
  split
  · rename_i hsmall
    simp only [isSmall, hexValue?, isBasicDigit, between, Bool.and_eq_true, decide_eq_true_eq,
      h0, h9, hA, hF, ha, hf, hz] at *
    repeat' split at h
    all_goals grind
  · exact h

/-- Each value below sixteen has a digit. -/
theorem exists_digit {value : Nat} (h : value < 16) : ∃ c : CodePoint, c.hexValue? = some value := by
  have hall : ∀ n < 16, (Option.bind (Text.ofString "0123456789ABCDEF")[n]? hexValue?) = some n := by
    decide
  obtain ⟨c, _, hc⟩ := Option.bind_eq_some_iff.mp (hall value h)
  exact ⟨c, hc⟩

end CodePoint

namespace Binary

/-! ## Digits that spell bits -/

/-- The number that four bits are, the first of which counts most. -/
def nibbleValue (a b c d : Bool) : Nat := 8 * a.toNat + 4 * b.toNat + 2 * c.toNat + d.toNat

/-- Hexadecimal digits, in either letter case, spell a row of bits, four of them each. -/
inductive Spells : Text → List Bool → Prop
  | nil : Spells [] []
  | cons {digit : CodePoint} {a b c d : Bool} {digits : Text} {bits : List Bool}
      (hdigit : digit.hexValue? = some (nibbleValue a b c d)) (hrest : Spells digits bits) :
      Spells (digit :: digits) (a :: b :: c :: d :: bits)

/-- Bits as a text of zeros and ones. -/
def bitText (bits : List Bool) : Text := bits.map fun bit => if bit then '1' else '0'

/-- The literal of a binary. -/
def literal (unused : Nat) (digits : Text) : Text :=
  "\"" ++ (Text.ofNat unused ++ (digits ++ "\""))

theorem nibbleValue_lt (a b c d : Bool) : nibbleValue a b c d < 16 := by
  cases a <;> cases b <;> cases c <;> cases d <;> decide

theorem exists_nibbleValue {value : Nat} (h : value < 16) :
    ∃ a b c d, nibbleValue a b c d = value := by
  revert value
  decide

theorem nibble_nibbleValue (a b c d : Bool) :
    nibble (nibbleValue a b c d) = bitText [a, b, c, d] := by
  cases a <;> cases b <;> cases c <;> cases d <;> rfl

theorem length_bitText (bits : List Bool) : (bitText bits).length = bits.length := List.length_map _

/-- A row of bits in fours has digits. -/
theorem exists_spells {bits : List Bool} (h : 4 ∣ bits.length) : ∃ digits, Spells digits bits := by
  match bits with
  | [] => exact ⟨[], .nil⟩
  | [_] | [_, _] | [_, _, _] => simp at h
  | a :: b :: c :: d :: rest =>
    obtain ⟨digit, hdigit⟩ := CodePoint.exists_digit (nibbleValue_lt a b c d)
    have hrest : 4 ∣ rest.length := by simpa using h
    obtain ⟨digits, hdigits⟩ := exists_spells hrest
    exact ⟨digit :: digits, .cons hdigit hdigits⟩

/-- All hexadecimal digits spell bits. -/
theorem exists_spelled {digits : Text} (h : ∀ c ∈ digits, CodePoint.isHexDigit c = true) :
    ∃ bits, Spells digits bits := by
  induction digits with
  | nil => exact ⟨[], .nil⟩
  | cons digit rest ih =>
    obtain ⟨hdigit, hrest⟩ := List.forall_mem_cons.mp h
    obtain ⟨bits, hbits⟩ := ih hrest
    obtain ⟨value, hvalue⟩ := Numeral.exists_hexValue hdigit
    obtain ⟨a, b, c, d, rfl⟩ :=
      exists_nibbleValue (CodePoint.HasHexValue.lt (c := digit) (.inr hvalue))
    exact ⟨a :: b :: c :: d :: bits, .cons hvalue hbits⟩

namespace Spells

variable {digits : Text} {bits : List Bool}

theorem length (h : Spells digits bits) : bits.length = 4 * digits.length := by
  induction h with
  | nil => rfl
  | cons _ _ ih =>
    simp only [List.length_cons, ih]
    omega

theorem isHexDigit (h : Spells digits bits) : ∀ c ∈ digits, CodePoint.isHexDigit c = true := by
  induction h with
  | nil => simp
  | cons hdigit _ ih => exact List.forall_mem_cons.mpr ⟨Numeral.isHexDigit_of_hexValue? hdigit, ih⟩

/-- In capitals digits spell the same bits. -/
theorem upper (h : Spells digits bits) : Spells digits.upper bits := by
  rw [Text.upper_of_isBasic fun c hc => CodePoint.isBasic_of_isHexDigit (h.isHexDigit c hc)]
  induction h with
  | nil => exact .nil
  | cons hdigit _ ih => exact .cons (CodePoint.hexValue?_capital hdigit) ih

theorem digitBits (h : Spells digits bits) : digitBits digits = .ok (bitText bits) := by
  induction h with
  | nil => rfl
  | @cons digit a b c d digits bits hdigit _ ih =>
    rw [Binary.digitBits, CodePoint.digit?_eq_some.mpr (.inr hdigit), ih]
    dsimp only
    rw [nibble_nibbleValue]
    rfl

/-- The bits of a binary are those its digits spell, without the first ones. -/
theorem bits_drop (h : Spells digits bits) {unused : Nat} (hunused : unused ≤ bits.length) :
    Binary.bits unused digits = .ok (bitText (bits.drop unused)) := by
  rw [Binary.bits, h.digitBits]
  dsimp only
  rw [Place.cut_ofNat, length_bitText, Nat.min_eq_left hunused, bitText, bitText, List.map_drop]

end Spells

end Binary

/-! ## Literals -/

/-- What is cut as a binary has no more than three unused bits, and holds hexadecimal digits in
capitals. -/
theorem Cut.binary_of_takes {unused : Nat} {digits w behind : Text}
    (h : Takes (some (.binary unused digits)) w behind) :
    unused ≤ 3 ∧ ∃ plain : Text, digits = plain.upper ∧
      ∀ c ∈ plain, CodePoint.isHexDigit c = true := by
  obtain ⟨c, rest, rfl, hfirst⟩ := h
  generalize (c :: rest).length = length at hfirst
  cases rule_of_first hfirst with
  | structureWord hl _ => rcases hl with hl | hl <;> cases hl
  | unsigned _ h | signed h => rcases number_lexeme h with ⟨_, hl⟩ | ⟨_, hl⟩ <;> cases hl
  | entityName h =>
    obtain ⟨_, hl⟩ := entityName_lexeme h
    cases hl
  | string h =>
    obtain ⟨_, hl⟩ := string_lexeme h
    cases hl
  | binary h =>
    obtain ⟨_, plain, hl, hfits, hplain⟩ := binary_lexeme h
    cases hl
    exact ⟨hfits, plain, rfl, hplain⟩
  | enumeration h =>
    obtain ⟨_, hl⟩ := enumeration?_lexeme h
    cases hl
  | word h =>
    obtain ⟨spelling, hcut, _⟩ := word?_eq_some h
    have hword : word spelling = .binary unused digits := by
      simpa using (congrArg Cut.lexeme hcut).symm
    unfold word at hword
    repeat' split at hword
    all_goals cases hword
  | mark h =>
    unfold punctuation? at h
    repeat' split at h
    all_goals cases h

namespace Binary

/-- A binary literal stands in one line. -/
theorem lineFeeds_literal {unused : Nat} {digits : Text} (hunused : unused ≤ 3)
    (hdigits : ∀ c ∈ digits, CodePoint.isHexDigit c = true) :
    Text.lineFeeds (literal unused digits) = 0 := by
  have hinside : Text.lineFeeds digits = 0 := by
    refine List.count_eq_zero.mpr fun hmem => ?_
    have hfeed : CodePoint.isHexDigit Text.lineFeed = false := by decide
    rw [hdigits _ hmem] at hfeed
    cases hfeed
  rw [literal, Text.lineFeeds_append, Text.lineFeeds_append, Text.lineFeeds_append, hinside]
  obtain rfl | rfl | rfl | rfl : unused = 0 ∨ unused = 1 ∨ unused = 2 ∨ unused = 3 := by omega
  all_goals rfl

/-- The literal of a binary is one token, whatever stands behind it. -/
theorem run_literal {unused : Nat} {digits : Text} (hunused : unused ≤ 3)
    (hdigits : ∀ c ∈ digits, CodePoint.isHexDigit c = true) (behind : Text) (offset line : Nat) :
    Token.run (literal unused digits ++ behind) offset line =
      ⟨⟨.binary unused digits.upper, offset, line⟩ ::
          (Token.run behind (offset + (literal unused digits).length) line).tokens,
        (Token.run behind (offset + (literal unused digits).length) line).stop⟩ := by
  have hfeeds := lineFeeds_literal hunused hdigits
  rw [literal, Token.run_takes_some (Cut.takes_hexDigits hunused hdigits behind), ← literal, hfeeds,
    Nat.add_zero]

end Binary

/-- A record is read from a text in which the digits of a binary stand in either letter case.  All
its other lexemes may have any spelling, and all may be separated in any way. -/
theorem Record.ofText_literal {r : Record} (hr : r.IsSpellable) {unused : Nat} {digits : Text}
    (hunused : unused ≤ 3) (hdigits : ∀ c ∈ digits, CodePoint.isHexDigit c = true)
    {before after : List Lexeme}
    (hlexemes : r.lexemes = before ++ .binary unused digits.upper :: after)
    {lead front gap back : Text} (hlead : Separates lead) (hfront : Laid before front)
    (hgap : Separates gap) (hback : Laid after back) :
    ofText (lead ++ (front ++ (Binary.literal unused digits ++ (gap ++ back)))) =
      .ok { r with offset := some lead.length, line := some (lead.lineFeeds + 1) } := by
  have hsettled := r.settled
  rw [hlexemes] at hsettled
  obtain ⟨_, hbehind⟩ := List.isChain_cons.mp hsettled.right_of_append
  -- A binary is no mark, so what is in front of it has an end of its own.
  have hborder : (∀ m ∈ (Lexeme.binary unused digits.upper :: after).head?, m.isMark = true) →
      Cut.Stops (Binary.literal unused digits ++ (gap ++ back)) := fun hmark => by
    cases hmark _ rfl
  obtain ⟨ts, hrun, hts, hfirst⟩ := Token.run_laid_append hfront hsettled hborder
    (0 + lead.length) (1 + lead.lineFeeds)
  rw [Binary.run_literal hunused hdigits, Token.run_separates hgap] at hrun
  obtain ⟨more, hmore, hlast, _⟩ := Token.run_laid hback hbehind
    (0 + lead.length + front.length + (Binary.literal unused digits).length + gap.length)
    (1 + lead.lineFeeds + front.lineFeeds + gap.lineFeeds)
  rw [hmore] at hrun
  refine ofText_of_run hr hlead hrun ?_ fun first hmem => ?_
  · rw [List.map_append, List.map_cons, hts, hlast, hlexemes]
  · cases ts with
    | cons t others => exact hfirst first hmem
    | nil =>
      obtain rfl : before = [] := hts.symm
      cases hfront
      cases hmem
      exact ⟨rfl, rfl⟩

namespace Binary

/-- A binary that is cut from a text has as many bits as its digits spell but for the unused
ones, of which there are no more than its digits spell. -/
theorem length_bits_of_mem {t : Text} {start : Nat} {token : Token} {unused : Nat} {digits : Text}
    (hmem : token ∈ (Token.runFrom t start).tokens) (hl : token.lexeme = .binary unused digits)
    (hsome : digits ≠ []) :
    ∃ bits, Binary.bits unused digits = .ok bits ∧ bits.length + unused = 4 * digits.length := by
  obtain ⟨hunused, plain, rfl, hplain⟩ :=
    Cut.binary_of_takes (hl ▸ (Token.cutFrom_runFrom hmem).slice)
  obtain ⟨bits, hbits⟩ := exists_spelled hplain
  have hlength := hbits.upper.length
  have hpositive := List.length_pos_iff.mpr hsome
  refine ⟨_, hbits.upper.bits_drop (by omega), ?_⟩
  rw [length_bitText, List.length_drop]
  omega

/-- Bits are read back from binary literals.

A row of bits has digits if it is filled up with zeros to a multiple of four.  Whatever their letter
case is, the literal of these digits is one token, with as many unused bits as there are zeros, and
with the digits in capitals; it is so in front of any other text, too.  That is also the parameter
that is read where the literal stands in a record.  The bits of it are those of the row.

Of all binaries that are cut from a text, those with digits have four bits for each digit but for
the unused ones. -/
theorem round_trip :
    (∀ (bits : List Bool) (unused : Nat), unused ≤ 3 → 4 ∣ unused + bits.length →
      (∃ digits, Spells digits (List.replicate unused false ++ bits)) ∧
      ∀ digits, Spells digits (List.replicate unused false ++ bits) →
        Token.ofText (literal unused digits) = ⟨[⟨.binary unused digits.upper, 0, 1⟩], none⟩ ∧
        (∀ (behind : Text) (offset line : Nat),
          Token.run (literal unused digits ++ behind) offset line =
            ⟨⟨.binary unused digits.upper, offset, line⟩ ::
                (Token.run behind (offset + (literal unused digits).length) line).tokens,
              (Token.run behind (offset + (literal unused digits).length) line).stop⟩) ∧
        (∀ (r : Record) (before after : List Lexeme) (lead front gap back : Text),
          r.IsSpellable → r.lexemes = before ++ .binary unused digits.upper :: after →
          Separates lead → Laid before front → Separates gap → Laid after back →
          Record.ofText (lead ++ (front ++ (literal unused digits ++ (gap ++ back)))) =
            .ok { r with offset := some lead.length, line := some (lead.lineFeeds + 1) }) ∧
        Binary.bits unused digits.upper = .ok (bitText bits)) ∧
    ∀ (t : Text) (start : Nat) (token : Token) (unused : Nat) (digits : Text),
      token ∈ (Token.runFrom t start).tokens → token.lexeme = .binary unused digits →
      digits ≠ [] →
      ∃ bits, Binary.bits unused digits = .ok bits ∧
        bits.length + unused = 4 * digits.length := by
  refine ⟨fun bits unused hunused hfours => ⟨?_, fun digits hspells => ⟨?_, ?_, ?_, ?_⟩⟩, ?_⟩
  · apply exists_spells
    rwa [List.length_append, List.length_replicate]
  · have hrun := run_literal hunused hspells.isHexDigit [] 0 1
    rwa [List.append_nil, Token.run_nil] at hrun
  · exact run_literal hunused hspells.isHexDigit
  · intro r before after lead front gap back hr hlexemes hlead hfront hgap hback
    exact Record.ofText_literal hr hunused hspells.isHexDigit hlexemes hlead hfront hgap hback
  · have hfilled : unused ≤ (List.replicate unused false ++ bits).length := by
      rw [List.length_append, List.length_replicate]
      omega
    have hdrop : (List.replicate unused false ++ bits).drop unused = bits :=
      List.drop_left' List.length_replicate
    rw [hspells.upper.bits_drop hfilled, hdrop]
  · intro t start token unused digits hmem hl hsome
    exact length_bits_of_mem hmem hl hsome

/-- The six bits 111010 make the literal with two unused bits and the digits 3 and a. -/
theorem round_trip_six_bits :
    Record.ofText "#1=A(\"23a\");" =
        .ok ⟨some 1, .simple ⟨"A", [.binary 2 "3A"]⟩, some 0, some 1⟩ ∧
      Binary.bits 2 "3A" = .ok "111010" ∧
      ∃ bits, Binary.bits 2 "3A" = .ok bits ∧ bits.length + 2 = 4 * 2 := by
  have hspells : Spells "3a" (List.replicate 2 false ++ [true, true, true, false, true, false]) :=
    .cons (by decide) (.cons (by decide) .nil)
  obtain ⟨htokens, _, hlaid, hbits⟩ :=
    (round_trip.1 [true, true, true, false, true, false] 2 (by decide) (by decide)).2 _ hspells
  have hname : Lexeme.Written (.entityName 1) "#1" := Lexeme.written_entityName (by decide)
  have hfront : Laid [.entityName 1, .equals, .keyword "A", .leftParen] "#1=A(" :=
    .cons hname .nil <|
      .cons (.mark (c := '=') rfl) .nil <|
      .cons (.keyword ⟨.inl (.mk (by decide) (by decide)), by decide⟩) .nil <|
      .cons (.mark (c := '(') rfl) .nil .nil
  have hback : Laid [.rightParen, .semicolon] ");" :=
    .cons (.mark (c := ')') rfl) .nil <| .cons (.mark (c := ';') rfl) .nil .nil
  refine ⟨?_, hbits, ?_⟩
  · exact hlaid ⟨some 1, .simple ⟨"A", [.binary 2 "3A"]⟩, none, none⟩ _ _ [] "#1=A(" [] ");"
      ⟨by decide, ⟨Int.natCast_nonneg 2, trivial⟩, by decide⟩ rfl .nil hfront .nil hback
  · have hmem : (⟨.binary 2 "3A", 0, 1⟩ : Token) ∈ (Token.runFrom "\"23a\"" 0).tokens :=
      congrArg TokenRun.tokens htokens ▸ List.mem_cons_self
    exact round_trip.2 "\"23a\"" 0 _ 2 "3A" hmem rfl (by decide)

end Binary

end Part21
