import Mathlib.Data.List.Chain
import Part21.Proofs.Exchange.Cutting

set_option autoImplicit false

/-!
# Lexemes are cut from their spellings

The spellings of keywords, strings, enumeration items and binaries, and comments.  A word is cut as
a keyword unless it goes on to be one of the two words with hyphens, and a hyphen is not a border.
Doubled apostrophes hide the end of a string until its last one, and what is cut decodes to what was
encoded, `StringBody.decode_encode`.

The main statement is `Lexeme.takes_written`: every spelling is cut whole.  Where a lexeme has an
end of its own it does not matter what stands behind it.
-/

namespace Part21

/-! ## Marks -/

/-- A text is parted at the first place where a mark stands, and a mark without repeated code
points overlaps itself nowhere. -/
theorem Text.cut?_append {mark body behind : Text} (hmark : mark.Nodup)
    (hbody : ¬ mark <:+: body) :
    Text.cut? mark (body ++ (mark ++ behind)) = some (body, behind) := by
  induction body with
  | nil =>
    cases mark with
    | nil => exact absurd (List.infix_refl []) hbody
    | cons a others =>
      have hstart : (a :: others).isPrefixOf? (a :: (others ++ behind)) = some behind :=
        List.isPrefixOf?_eq_some_iff_append_eq.mpr rfl
      rw [List.nil_append, List.cons_append, Text.cut?, hstart]
  | cons c rest ih =>
    have hrest : ¬ mark <:+: rest := fun h => hbody (List.infix_cons h)
    have hstart : mark.isPrefixOf? (c :: (rest ++ (mark ++ behind))) = none := by
      rw [Option.eq_none_iff_forall_ne_some]
      intro more hmore
      have hsame := List.isPrefixOf?_eq_some_iff_append_eq.mp hmore
      have hlonger : mark <+: (c :: rest) ++ (mark ++ behind) := ⟨more, hsame⟩
      rcases List.prefix_or_prefix_of_prefix hlonger (List.prefix_append _ _) with hshort | hlong
      · exact hbody hshort.isInfix
      · obtain ⟨overlap, rfl⟩ := hlong
        cases overlap with
        | nil => exact hbody (by simp)
        | cons d others =>
          -- The part of the mark behind the body is where the mark stands again.
          rw [List.append_assoc] at hsame
          have hnext := List.append_cancel_left hsame
          obtain ⟨rfl, -⟩ := List.cons.inj hnext
          simp at hmark
    rw [List.cons_append, Text.cut?, hstart, ih hrest]
    rfl

namespace Cut

/-! ## Names -/

/-- A name is read from a text up to where it ends. -/
theorem nameAt_append {name behind : Text} (hname : name.IsName)
    (hbehind : ∀ c ∈ behind.head?, CodePoint.continuesName c = false) :
    nameAt (name ++ behind) = name := by
  obtain ⟨hc, hrest⟩ := hname
  rw [List.cons_append, nameAt, if_pos hc, takeWhile_append_eq hrest hbehind]

/-- A text that starts with a name starts with no word that goes on otherwise. -/
theorem not_isPrefixOf (front : Text) {mark : CodePoint} {name behind tail : Text}
    (hfront : ∀ c ∈ front, CodePoint.continuesName c = true)
    (hmark : mark.continuesName = false ∧ mark ∉ borders)
    (hname : ∀ c ∈ name, CodePoint.continuesName c = true) (hbehind : Stops behind) :
    (front ++ mark :: tail).isPrefixOf (name ++ behind) = false := by
  rw [Bool.eq_false_iff, ne_eq, List.isPrefixOf_iff_prefix]
  rintro ⟨more, hsame⟩
  rw [List.append_assoc, List.cons_append] at hsame
  have hrow := hbehind.takeWhile_eq spares_continuesName hname
  have hmarkEnds : ∀ c ∈ (mark :: (tail ++ more)).head?, CodePoint.continuesName c = false :=
    fun c hc => by
      cases hc
      exact hmark.1
  rw [← hsame, takeWhile_append_eq hfront hmarkEnds] at hrow
  rw [hrow] at hsame
  have hrest := List.append_cancel_left hsame
  exact hmark.2 (hbehind mark (by rw [← hrest]; rfl))

theorem isName_continues {name : Text} (hname : name.IsName) :
    ∀ c ∈ name, CodePoint.continuesName c = true := by
  obtain ⟨hc, hrest⟩ := hname
  refine List.forall_mem_cons.mpr ⟨?_, hrest⟩
  rw [CodePoint.continuesName, hc]
  rfl

theorem word_of_plain {name : Text} (h : name ≠ "HEADER" ∧ name ≠ "DATA" ∧ name ≠ "ENDSEC") :
    word name = .keyword name := by
  rw [word, if_neg h.1, if_neg h.2.1, if_neg h.2.2]

/-- A hyphen neither goes on with a name nor ends it. -/
theorem hyphen_foreign : CodePoint.continuesName '-' = false ∧ CodePoint.ofChar '-' ∉ borders := by
  decide

/-- A keyword is cut from its spelling. -/
theorem takes_keyword {name behind : Text} (hname : name.IsKeyword) (hbehind : Stops behind) :
    Takes (some (.keyword name)) name behind := by
  have hends : ∀ c ∈ behind.head?, CodePoint.continuesName c = false := fun c hc =>
    spares_continuesName c (hbehind c hc)
  obtain ⟨hform, hplain⟩ := hname
  rcases hform with hbare | ⟨bare, hbare, rfl⟩
  · have hclosing : Lexeme.closing.fixedSpelling.isPrefixOf (name ++ behind) = false :=
      not_isPrefixOf "END" (by decide) hyphen_foreign
        (isName_continues hbare) hbehind
    have hopening : Lexeme.opening.fixedSpelling.isPrefixOf (name ++ behind) = false :=
      not_isPrefixOf "ISO" (by decide) hyphen_foreign
        (isName_continues hbare) hbehind
    have hrow := nameAt_append hbare hends
    cases hbare with
    | @mk c rest hc hrest =>
      have hne : c ≠ '!' := by
        rintro rfl
        exact absurd hc (by decide)
      have hrow : nameAt (c :: (rest ++ behind)) = c :: rest := hrow
      have hword : word? (c :: (rest ++ behind)) =
          some ⟨some (.keyword (c :: rest)), (c :: rest).length⟩ := by
        rw [word?, if_neg hne, hrow, if_neg (List.cons_ne_nil c rest), if_neg hne,
          ← word_of_plain hplain]
      exact ⟨c, rest, rfl, first_of_startsName hc hclosing hopening hword⟩
  · refine ⟨'!', bare, rfl, first_exclamation ?_⟩
    have hsome : bare ≠ [] := by
      rintro rfl
      cases hbare
    have hword : word? ("!" ++ (bare ++ behind)) =
        if nameAt (bare ++ behind) = [] then none
        else some ⟨some (word ("!" ++ nameAt (bare ++ behind))),
          (Text.ofString "!" ++ nameAt (bare ++ behind)).length⟩ := rfl
    rw [hword, nameAt_append hbare hends, if_neg hsome, word_of_plain hplain]

/-! ## Letter case -/

theorem isBasic_of_continuesName {c : CodePoint} (h : c.continuesName = true) :
    c.isBasic = true := by
  simp only [CodePoint.continuesName, CodePoint.startsName, CodePoint.isLetter,
    CodePoint.isCapital, CodePoint.isSmall, CodePoint.isBasicDigit, CodePoint.between,
    Bool.or_eq_true, Bool.and_eq_true, decide_eq_true_eq] at h
  have hz : 'z'.toNat = 122 := rfl
  have hZ : 'Z'.toNat = 90 := rfl
  have h9 : '9'.toNat = 57 := rfl
  simp only [CodePoint.isBasic, decide_eq_true_eq]
  rcases h with ((h | h) | rfl) | h
  · omega
  · omega
  · decide
  · omega

/-- Letters of the basic character set that are not small stay in capitals. -/
theorem upper_of_capitals {t : Text} (hbasic : ∀ c ∈ t, CodePoint.isBasic c = true)
    (hcapitals : ∀ c ∈ t, CodePoint.isSmall c = false) : t.upper = t := by
  rw [Text.upper_of_isBasic hbasic]
  refine (List.map_congr_left fun c hc => ?_).trans (List.map_id t)
  rw [CodePoint.capital, hcapitals c hc]
  rfl

/-- An enumeration item is cut from its spelling. -/
theorem takes_enumeration {item : Text} (hitem : item.IsName)
    (hcapitals : ∀ c ∈ item, CodePoint.isSmall c = false) (behind : Text) :
    Takes (some (.enumeration item)) ("." ++ (item ++ ".")) behind := by
  refine ⟨'.', item ++ ".", rfl, first_point ?_⟩
  have hsome : item ≠ [] := by
    rintro rfl
    cases hitem
  have hpoint : ∀ c ∈ (Text.ofString "." ++ behind).head?, CodePoint.continuesName c = false :=
    fun c hc => by
      cases hc
      rfl
  have hbasic : ∀ c ∈ item, CodePoint.isBasic c = true := fun c hc =>
    isBasic_of_continuesName (isName_continues hitem c hc)
  have hrow := nameAt_append hitem hpoint
  have hlength : ("." ++ (item ++ ".") : Text).length = item.length + 2 := by
    rw [List.length_append, List.length_append, Nat.add_comm]
    rfl
  rw [List.append_assoc, enumeration?, hrow, List.drop_left, if_pos ⟨hsome, rfl⟩,
    upper_of_capitals hbasic hcapitals, hlength]

/-! ## Binaries -/

/-- A binary is cut from its digits in either letter case, and holds them in capitals. -/
theorem takes_hexDigits {unused : Nat} {digits : Text} (hunused : unused ≤ 3)
    (hdigits : ∀ c ∈ digits, CodePoint.isHexDigit c = true) (behind : Text) :
    Takes (some (.binary unused digits.upper)) ("\"" ++ (Text.ofNat unused ++ (digits ++ "\"")))
      behind := by
  have hmark : ∀ c ∈ (Text.ofString "\"" ++ behind).head?, CodePoint.isHexDigit c = false :=
    fun c hc => by
      cases hc
      rfl
  have hrow := takeWhile_append_eq hdigits hmark
  obtain ⟨d, hd, hfits, hvalue⟩ : ∃ d : CodePoint, Text.ofNat unused = [d] ∧
      d.between '0' '3' = true ∧ d.toNat - '0'.toNat = unused := by
    obtain rfl | rfl | rfl | rfl : unused = 0 ∨ unused = 1 ∨ unused = 2 ∨ unused = 3 := by omega
    · exact ⟨'0', rfl, rfl, rfl⟩
    · exact ⟨'1', rfl, rfl, rfl⟩
    · exact ⟨'2', rfl, rfl, rfl⟩
    · exact ⟨'3', rfl, rfl, rfl⟩
  have hlength : ("\"" ++ (Text.ofNat unused ++ (digits ++ "\"")) : Text).length =
      digits.length + 3 := by
    have hmarkLength : (Text.ofString "\"").length = 1 := rfl
    rw [hd, List.length_append, List.length_append, List.length_append, hmarkLength,
      List.length_singleton]
    omega
  refine ⟨'"', Text.ofNat unused ++ (digits ++ "\""), rfl, ?_⟩
  have hbinary : first '"' (Text.ofNat unused ++ (digits ++ "\"") ++ behind) =
      binary (d :: (digits ++ ("\"" ++ behind))) := by
    rw [hd, List.append_assoc, List.append_assoc]
    rfl
  rw [hbinary, binary, hrow, List.drop_left, hfits, hvalue, hlength]
  rfl

/-- A binary is cut from its spelling. -/
theorem takes_binary {unused : Nat} {digits : Text} (hunused : unused ≤ 3)
    (hdigits : ∀ c ∈ digits, CodePoint.isBasicDigit c = true ∨ c.between 'A' 'F' = true)
    (behind : Text) :
    Takes (some (.binary unused digits)) ("\"" ++ (Text.ofNat unused ++ (digits ++ "\"")))
      behind := by
  have hhex : ∀ c ∈ digits, CodePoint.isHexDigit c = true := by
    intro c hc
    rcases hdigits c hc with h | h <;> simp [CodePoint.isHexDigit, h]
  have hcapitals : ∀ c ∈ digits, CodePoint.isBasic c = true ∧ CodePoint.isSmall c = false := by
    have h9 : '9'.toNat = 57 := rfl
    have hA : 'F'.toNat = 70 := rfl
    have ha : 'a'.toNat = 97 := rfl
    intro c hc
    have := hdigits c hc
    simp only [CodePoint.isBasicDigit, CodePoint.isBasic, CodePoint.isSmall, CodePoint.between,
      Bool.and_eq_true, Bool.and_eq_false_iff, decide_eq_true_eq, decide_eq_false_iff_not] at *
    omega
  have hupper := upper_of_capitals (fun c hc => (hcapitals c hc).1) fun c hc => (hcapitals c hc).2
  have htakes := takes_hexDigits hunused hhex behind
  rwa [hupper] at htakes

end Cut

/-! ## Strings -/

namespace StringBody

theorem encode_cons_double {c : CodePoint} (hc : c = '\'' ∨ c = '\\') (value : Text) :
    encode (c :: value) = c :: c :: encode value := by
  rw [encode, List.flatMap_cons, if_pos hc]
  rfl

theorem encode_cons_single {c : CodePoint} (hc : ¬ (c = '\'' ∨ c = '\\')) (value : Text) :
    encode (c :: value) = c :: encode value := by
  rw [encode, List.flatMap_cons, if_neg hc]
  rfl

/-- Encoding breaks no line. -/
theorem encode_breaks {value : Text} (hvalue : ∀ c ∈ value, breaksLine c = false) :
    ∀ c ∈ encode value, breaksLine c = false := by
  intro c hc
  obtain ⟨d, hd, hmem⟩ := List.mem_flatMap.mp hc
  have hsame : c = d := by
    split at hmem
    · simpa using hmem
    · simpa using hmem
  exact hsame ▸ hvalue d hd

theorem decodeLine_encode (value : Text) : decodeLine (encode value) = .ok value := by
  induction value with
  | nil => rw [encode, List.flatMap_nil, decodeLine]
  | cons c rest ih =>
    by_cases hquote : c = '\''
    · rw [encode_cons_double (.inl hquote), decodeLine, if_pos hquote, List.drop_one,
        List.tail_cons, ih]
    · by_cases hstroke : c = '\\'
      · rw [encode_cons_double (.inr hstroke), decodeLine, if_neg hquote, if_pos hstroke, directive,
          if_pos hstroke]
        dsimp only
        rw [List.drop_one, List.tail_cons, ih, hstroke]
        rfl
      · rw [encode_cons_single (not_or.mpr ⟨hquote, hstroke⟩), decodeLine, if_neg hquote,
          if_neg hstroke, ih]

/-- A string is decoded from its encoding. -/
theorem decode_encode {value : Text} (hvalue : ∀ c ∈ value, breaksLine c = false) :
    decode (encode value) = .ok value := by
  have hline : (encode value).filter (fun c => !breaksLine c) = encode value := by
    rw [List.filter_eq_self]
    intro c hc
    rw [encode_breaks hvalue c hc]
    rfl
  rw [decode, hline, decodeLine_encode]

end StringBody

namespace Cut

theorem bodyLength?_cons {c : CodePoint} (hc : c ≠ '\'') {t : Text} (ht : t ≠ []) :
    bodyLength? (c :: t) = (bodyLength? t).map (· + 1) := by
  obtain ⟨d, rest, rfl⟩ := List.exists_cons_of_ne_nil ht
  rw [bodyLength?, if_neg hc]

/-- The body of a literal ends where its encoding ends. -/
theorem bodyLength?_encode (value : Text) {behind : Text}
    (hbehind : ∀ c ∈ behind.head?, c ≠ '\'') :
    bodyLength? (StringBody.encode value ++ ("'" ++ behind)) =
      some (StringBody.encode value).length := by
  induction value with
  | nil =>
    cases behind with
    | nil => rfl
    | cons d rest =>
      have hd : d ≠ '\'' := hbehind d rfl
      have hends : bodyLength? ((CodePoint.ofChar '\'') :: d :: rest) = some 0 := by
        rw [bodyLength?, if_pos rfl, if_neg hd]
      exact hends
  | cons c rest ih =>
    have hsome : (StringBody.encode rest ++ ("'" ++ behind) : Text) ≠ [] := by
      intro hnil
      cases (List.append_eq_nil_iff.mp hnil).2
    by_cases hquote : c = '\''
    · rw [StringBody.encode_cons_double (.inl hquote), List.cons_append, List.cons_append,
        bodyLength?, if_pos hquote, if_pos hquote, ih]
      rfl
    · by_cases hstroke : c = '\\'
      · rw [StringBody.encode_cons_double (.inr hstroke), List.cons_append, List.cons_append,
          bodyLength?_cons hquote (List.cons_ne_nil _ _), bodyLength?_cons hquote hsome, ih]
        rfl
      · rw [StringBody.encode_cons_single (not_or.mpr ⟨hquote, hstroke⟩), List.cons_append,
          bodyLength?_cons hquote hsome, ih]
        rfl

/-- A string is cut as a whole if its body ends at the closing apostrophe. -/
theorem takes_body {value body behind : Text} (hvalue : StringBody.decode body = .ok value)
    (hend : bodyLength? (body ++ ("'" ++ behind)) = some body.length) :
    Takes (some (.string value)) ("'" ++ (body ++ "'")) behind := by
  refine ⟨'\'', body ++ "'", rfl, ?_⟩
  have hstring : first '\'' (body ++ "'" ++ behind) = string (body ++ ("'" ++ behind)) := by
    rw [List.append_assoc]
    rfl
  have hlength : ("'" ++ (body ++ "'") : Text).length = body.length + 2 := by
    rw [List.length_append, List.length_append, Nat.add_comm]
    rfl
  rw [hstring, string, hend]
  dsimp only
  rw [List.take_left, hvalue, hlength]

/-- A string is cut from its spelling. -/
theorem takes_string {value behind : Text}
    (hvalue : ∀ c ∈ value, StringBody.breaksLine c = false)
    (hbehind : ∀ c ∈ behind.head?, c ≠ '\'') :
    Takes (some (.string value)) ("'" ++ (StringBody.encode value ++ "'")) behind :=
  takes_body (StringBody.decode_encode hvalue) (bodyLength?_encode value hbehind)

/-! ## Comments -/

theorem first_comment {c : CodePoint} {rest : Text} {length : Nat}
    (h : commentLength? (c :: rest) = some length) : first c rest = .ok ⟨none, length⟩ := by
  obtain ⟨body, hsame⟩ : Text.ofString "/*" <+: c :: rest := by
    rw [commentLength?] at h
    split at h
    · cases h
    · rename_i body hbody
      exact ⟨body, List.isPrefixOf?_eq_some_iff_append_eq.mp hbody⟩
  have hsame : CodePoint.ofChar '/' :: ("*" ++ body) = c :: rest := hsame
  obtain ⟨rfl, rfl⟩ := List.cons.inj hsame
  unfold first
  dsimp only
  rw [h]
  rfl

/-- A complete comment is cut. -/
theorem takes_comment {body : Text} (hbody : ¬ Text.ofString "*/" <:+: body) (behind : Text) :
    Takes none ("/*" ++ (body ++ "*/")) behind := by
  refine ⟨'/', "*" ++ (body ++ "*/"), rfl, ?_⟩
  have hlength : ("/*" ++ (body ++ "*/") : Text).length = body.length + 4 := by
    rw [List.length_append, List.length_append, Nat.add_comm]
    rfl
  have hcomment : commentLength? (CodePoint.ofChar '/' :: ("*" ++ (body ++ "*/") ++ behind)) =
      (Text.cut? "*/" (body ++ ("*/" ++ behind))).map fun parts => parts.1.length + 4 := by
    rw [List.append_assoc, List.append_assoc]
    rfl
  rw [hlength]
  apply first_comment
  rw [hcomment, Text.cut?_append (by decide) hbody]
  rfl

end Cut

/-! ## Any lexeme -/

namespace Lexeme

/-- A word that only ends where something else starts. -/
def isOpen : Lexeme → Bool
  | keyword _ => true
  | entityName _ => true
  | integer _ => true
  | real _ => true
  | string _ => true
  | _ => false

/-- A lexeme is cut from each of its spellings, in front of a border at least. -/
theorem takes_written {l : Lexeme} {word behind : Text} (h : l.Written word)
    (hbehind : l.isOpen = true → Cut.Stops behind) : Cut.Takes (some l) word behind := by
  cases h with
  | keyword hname => exact Cut.takes_keyword hname (hbehind rfl)
  | entityName hdigits hlimit => exact Cut.takes_entityName hdigits hlimit (hbehind rfl)
  | integer hdigits hlimit => exact Cut.takes_integer hdigits hlimit (hbehind rfl)
  | real htext => exact Cut.takes_real htext (hbehind rfl)
  | string hvalue =>
    have hborders : ∀ c ∈ Cut.borders, c ≠ '\'' := by decide
    exact Cut.takes_string hvalue fun c hc => hborders c (hbehind rfl c hc)
  | binary hunused hdigits => exact Cut.takes_binary hunused hdigits behind
  | enumeration hitem hcapitals => exact Cut.takes_enumeration hitem hcapitals behind
  | mark hc => exact ⟨_, [], rfl, Cut.first_mark hc behind⟩

end Lexeme

end Part21
