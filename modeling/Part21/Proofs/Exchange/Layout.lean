import Mathlib.Algebra.Group.Nat.Defs
import Part21.Exchange.Token

set_option autoImplicit false

/-!
# Layouts

A row of lexemes can be laid out as a text in many ways: a real has many spellings, and between any
two lexemes there may be blanks and comments or nothing at all.  `Lexeme.Written` gives the
spellings of one lexeme, `Separates` what may stand around lexemes, and `Laid` puts the two
together.

Not all values have a spelling: a keyword has to be a name, for example, and a string must not break
its line.
-/

namespace Part21

/-! ## Numbers -/

/-- What may stand in front of the digits of a number. -/
inductive Sign where
  | absent
  | plus
  | minus

namespace Sign

/-- The text of a sign. -/
def text : Sign → Text
  | absent => []
  | plus => "+"
  | minus => "-"

/-- The sign turns a number over. -/
def isNegative : Sign → Bool
  | minus => true
  | _ => false

end Sign

namespace Text

/-- Digits, one at least. -/
structure IsNumeral (t : Text) : Prop where
  some : t ≠ []
  digits : ∀ c ∈ t, CodePoint.isDigit c = true

end Text

namespace Cut

/-- The spellings of an exponent: a letter e, a sign if any, and digits. -/
inductive Exponent.Written : Exponent → Text → Prop
  | mk {e : CodePoint} {sign : Sign} {digits : Text} (he : e = 'e' ∨ e = 'E')
      (hdigits : digits.IsNumeral) :
      Exponent.Written ⟨sign.isNegative, digits, digits.length + sign.text.length + 1⟩
        (e :: (sign.text ++ digits))

/-- The spellings of a real: with a point, with an exponent, or with both.  No digits need stand
behind the point. -/
inductive RealWritten : Binary64 → Text → Prop
  | point {sign : Sign} {whole fraction : Text} (hwhole : whole.IsNumeral)
      (hfraction : ∀ c ∈ fraction, CodePoint.isDigit c = true) :
      RealWritten (realValue sign.isNegative whole fraction none)
        (sign.text ++ (whole ++ ("." ++ fraction)))
  | exponent {sign : Sign} {whole text : Text} {e : Exponent} (hwhole : whole.IsNumeral)
      (he : e.Written text) :
      RealWritten (realValue sign.isNegative whole [] (some e)) (sign.text ++ (whole ++ text))
  | both {sign : Sign} {whole fraction text : Text} {e : Exponent} (hwhole : whole.IsNumeral)
      (hfraction : ∀ c ∈ fraction, CodePoint.isDigit c = true) (he : e.Written text) :
      RealWritten (realValue sign.isNegative whole fraction (some e))
        (sign.text ++ (whole ++ ("." ++ (fraction ++ text))))

end Cut

/-! ## Decimal forms -/

namespace CodePoint

theorem digitValue?_of_basic {c : Char} (hc : c.isDigit = true) :
    (ofChar c).digitValue? = some (c.toNat - '0'.toNat) := by
  obtain ⟨hlow, hhigh⟩ := Char.isDigit_iff_toNat.mp hc
  have hlow : 0x30 ≤ c.toNat := hlow
  have hhigh : c.toNat < 0x30 + 10 := Nat.lt_succ_of_le hhigh
  have hfound : zeroDigits.find? (fun start => start ≤ c.toNat && c.toNat < start + 10) =
      some 0x30 := by
    rw [zeroDigits, List.find?_cons_of_pos]
    simp [hlow, hhigh]
  have hvalue : (ofChar c).digitValue? =
      (zeroDigits.find? (fun start => start ≤ c.toNat && c.toNat < start + 10)).map
        (c.toNat - ·) := rfl
  rw [hvalue, hfound]
  rfl

theorem digitValue?_le {c : CodePoint} {value : Nat} (h : c.digitValue? = some value) :
    value ≤ 9 := by
  obtain ⟨start, hfound, rfl⟩ := Option.map_eq_some_iff.mp h
  have hrange := List.find?_some hfound
  simp only [Bool.and_eq_true, decide_eq_true_eq] at hrange
  omega

end CodePoint

namespace Text

theorem ofNat_eq_digits (n : Nat) :
    ofNat n = (Nat.toDigits 10 n).map CodePoint.ofChar := by
  rw [ofNat, ofString, Nat.toString_eq_ofList_toDigits, String.toList_ofList]

theorem isNumeral_ofNat (n : Nat) : (ofNat n).IsNumeral := by
  rw [ofNat_eq_digits]
  refine ⟨by simp, fun c hc => ?_⟩
  obtain ⟨d, hd, rfl⟩ := List.mem_map.mp hc
  have hdigit := Nat.isDigit_of_mem_toDigits (by decide) (Nat.le_refl 10) hd
  rw [CodePoint.isDigit, CodePoint.digitValue?_of_basic hdigit]
  rfl

/-- The decimal form of a number spells it. -/
theorem digitsValue_ofNat (n : Nat) : (ofNat n).digitsValue = n := by
  have hfold : ∀ (ds : List Char) (start : Nat), (∀ d ∈ ds, d.isDigit = true) →
      (ds.map CodePoint.ofChar).foldl (fun n c => 10 * n + (CodePoint.digitValue? c).getD 0) start =
        Nat.ofDigitChars 10 ds start := by
    intro ds
    induction ds with
    | nil => exact fun start _ => rfl
    | cons d rest ih =>
      intro start hds
      obtain ⟨hd, hrest⟩ := List.forall_mem_cons.mp hds
      rw [List.map_cons, List.foldl_cons, CodePoint.digitValue?_of_basic hd, ih _ hrest,
        Nat.ofDigitChars_cons]
      rfl
  have hdigits : ∀ d ∈ Nat.toDigits 10 n, d.isDigit = true := fun d hd =>
    Nat.isDigit_of_mem_toDigits (by decide) (Nat.le_refl 10) hd
  rw [ofNat_eq_digits, digitsValue, hfold _ 0 hdigits, Nat.ofDigitChars_ten_toDigits]

/-- A row of digits spells a number of at most as many digits. -/
theorem digitsValue_lt (digits : Text) : digits.digitsValue < 10 ^ digits.length := by
  have hfold : ∀ (digits : Text) (start : Nat),
      digits.foldl (fun n c => 10 * n + (CodePoint.digitValue? c).getD 0) start <
        (start + 1) * 10 ^ digits.length := by
    intro digits
    induction digits with
    | nil => exact fun start => by simp
    | cons c rest ih =>
      intro start
      have hdigit : (CodePoint.digitValue? c).getD 0 ≤ 9 := by
        cases hvalue : CodePoint.digitValue? c with
        | none => exact Nat.zero_le 9
        | some value => exact CodePoint.digitValue?_le hvalue
      calc (c :: rest).foldl (fun n c => 10 * n + (CodePoint.digitValue? c).getD 0) start
          < (10 * start + (CodePoint.digitValue? c).getD 0 + 1) * 10 ^ rest.length := ih _
        _ ≤ ((start + 1) * 10) * 10 ^ rest.length := Nat.mul_le_mul_right _ (by omega)
        _ = (start + 1) * 10 ^ (c :: rest).length := by
          rw [List.length_cons, Nat.pow_succ, Nat.mul_assoc, Nat.mul_comm 10]
  have hzero := hfold digits 0
  rwa [Nat.zero_add, Nat.one_mul] at hzero

end Text

/-! ## Names and strings -/

namespace Text

/-- A letter or the low line, and then letters, digits and low lines. -/
inductive IsName : Text → Prop
  | mk {c : CodePoint} {rest : Text} (hc : c.startsName = true)
      (hrest : ∀ d ∈ rest, CodePoint.continuesName d = true) : IsName (c :: rest)

/-- A name, an exclamation mark in front of it if any, that is no word of a section. -/
structure IsKeyword (t : Text) : Prop where
  name : t.IsName ∨ ∃ name : Text, name.IsName ∧ t = "!" ++ name
  plain : t ≠ "HEADER" ∧ t ≠ "DATA" ∧ t ≠ "ENDSEC"

end Text

namespace StringBody

/-- The body of the literal of a string: apostrophes and backslashes are doubled. -/
def encode (value : Text) : Text :=
  value.flatMap fun c : CodePoint => if c = '\'' ∨ c = '\\' then [c, c] else [c]

end StringBody

/-! ## Lexemes -/

namespace Lexeme

/-- The spellings of a lexeme, words of the structure around records apart. -/
inductive Written : Lexeme → Text → Prop
  | keyword {name : Text} (hname : name.IsKeyword) : Written (.keyword name) name
  | entityName {digits : Text} (hdigits : digits.IsNumeral)
      (hlimit : digits.length ≤ Numeral.digitLimit) :
      Written (.entityName digits.digitsValue) ("#" ++ digits)
  | integer {sign : Sign} {digits : Text} (hdigits : digits.IsNumeral)
      (hlimit : digits.length ≤ Numeral.digitLimit) :
      Written (.integer (Cut.integerValue sign.isNegative digits)) (sign.text ++ digits)
  | real {value : Binary64} {text : Text} (htext : Cut.RealWritten value text) :
      Written (.real value) text
  | string {value : Text} (hvalue : ∀ c ∈ value, StringBody.breaksLine c = false) :
      Written (.string value) ("'" ++ (StringBody.encode value ++ "'"))
  | binary {unused : Nat} {digits : Text} (hunused : unused ≤ 3)
      (hdigits : ∀ c ∈ digits, CodePoint.isBasicDigit c = true ∨ c.between 'A' 'F' = true) :
      Written (.binary unused digits) ("\"" ++ (Text.ofNat unused ++ (digits ++ "\"")))
  | enumeration {item : Text} (hitem : item.IsName)
      (hcapitals : ∀ c ∈ item, CodePoint.isSmall c = false) :
      Written (.enumeration item) ("." ++ (item ++ "."))
  | mark {c : CodePoint} {lexeme : Lexeme} (hc : Cut.punctuation? c = some lexeme) :
      Written lexeme [c]

/-- The same lexeme; reals are compared as numbers, so the two zeros are the same. -/
def same : Lexeme → Lexeme → Prop
  | real x, real y => x.same y = true
  | a, b => a = b

/-! The decimal forms of integers and names are among their spellings. -/

theorem written_integer {i : Int} (hlimit : (Text.ofNat i.natAbs).length ≤ Numeral.digitLimit) :
    Written (.integer i) (Text.ofInt i) := by
  cases i with
  | ofNat n =>
    have hform : Written (.integer ((Text.ofNat n).digitsValue : Int)) (Text.ofNat n) :=
      @Written.integer .absent _ (Text.isNumeral_ofNat n) hlimit
    rwa [Text.digitsValue_ofNat] at hform
  | negSucc n =>
    have hform : Written (.integer (-((Text.ofNat (n + 1)).digitsValue : Int)))
        ("-" ++ Text.ofNat (n + 1)) :=
      @Written.integer .minus _ (Text.isNumeral_ofNat (n + 1)) hlimit
    have htext : Text.ofInt (Int.negSucc n) = "-" ++ Text.ofNat (n + 1) := by
      have hdigits : toString (Int.negSucc n) = "-" ++ toString (n + 1) := rfl
      rw [Text.ofInt, Text.ofNat, hdigits, Text.ofString, String.toList_append, List.map_append]
      rfl
    rwa [Text.digitsValue_ofNat, ← htext] at hform

theorem written_entityName {id : Nat} (hlimit : (Text.ofNat id).length ≤ Numeral.digitLimit) :
    Written (.entityName id) ("#" ++ Text.ofNat id) := by
  have hform := Written.entityName (Text.isNumeral_ofNat id) hlimit
  rwa [Text.digitsValue_ofNat] at hform

end Lexeme

/-- Blanks and complete comments, in any number and order. -/
inductive Separates : Text → Prop
  | nil : Separates []
  | blank {c : CodePoint} {t : Text} (hc : Cut.isSeparator c = true) (ht : Separates t) :
      Separates (c :: t)
  | comment {body t : Text} (hbody : ¬ Text.ofString "*/" <:+: body) (ht : Separates t) :
      Separates ("/*" ++ (body ++ ("*/" ++ t)))

/-- A text that holds lexemes one after another, each in one of its spellings and with separators
behind it. -/
inductive Laid : List Lexeme → Text → Prop
  | nil : Laid [] []
  | cons {l : Lexeme} {rest : List Lexeme} {word gap t : Text} (hword : l.Written word)
      (hgap : Separates gap) (hrest : Laid rest t) : Laid (l :: rest) (word ++ (gap ++ t))

end Part21
