import Mathlib.Algebra.Group.Int.Defs
import Mathlib.Data.List.Induction
import Mathlib.Data.List.TakeWhile
import Part21.Proofs.Exchange.Cutting

set_option autoImplicit false

/-!
# Hexadecimal numerals

What is read as a hexadecimal numeral is more than a row of the sixteen digits: digits of all
scripts count, a low line may stand between two digits, and a mark, a sign and blanks may stand
around the row.  `Numeral.IsHexadecimal` says which texts are numerals and of which number, and the
main statement, `Numeral.integer?_eq_some`, that these are the ones that are read.

A row of plain digits, in either letter case, is a numeral of the number it spells
(`Numeral.IsHexadecimal.of_plain`), and if nothing else than letters and digits of the basic
character set stands in a text, and no mark, it is a numeral only as such a row
(`Numeral.IsHexadecimal.plain`).
-/

namespace Part21

/-! ## Digits -/

namespace CodePoint

/-- A digit of a hexadecimal numeral with its value: a decimal digit of any script, or one of the
first six Latin letters. -/
def HasHexValue (c : CodePoint) (value : Nat) : Prop :=
  c.digitValue? = some value ∨ c.hexValue? = some value

theorem digitValue?_of_isBasicDigit {c : CodePoint} (h : c.isBasicDigit = true) :
    c.digitValue? = some (c.toNat - '0'.toNat) := by
  have h0 : '0'.toNat = 0x30 := rfl
  have h9 : '9'.toNat = 0x39 := rfl
  simp only [isBasicDigit, between, Bool.and_eq_true, decide_eq_true_eq, h0, h9] at h
  have hlt : c.toNat < 0x30 + 10 := by omega
  rw [digitValue?, zeroDigits, List.find?_cons_of_pos]
  · simp [h0]
  · simp [h.1, hlt]

/-- The letters among the plain digits are digits of no script. -/
theorem isBasicDigit_of_hexValue? {c : CodePoint} {value : Nat} (h : c.hexValue? = some value)
    (hdigit : c.isDigit = true) : c.isBasicDigit = true := by
  by_contra hbasic
  have hletter : c.startsName = true := by
    have hF : 'F'.toNat = 0x46 := rfl
    have hf : 'f'.toNat = 0x66 := rfl
    have hZ : 'Z'.toNat = 0x5a := rfl
    have hz : 'z'.toNat = 0x7a := rfl
    simp only [hexValue?, if_neg hbasic] at h
    simp only [startsName, isLetter, isCapital, isSmall, between, Bool.or_eq_true,
      Bool.and_eq_true, decide_eq_true_eq] at h ⊢
    split at h
    · omega
    split at h
    · omega
    · cases h
  rw [isDigit_of_startsName hletter] at hdigit
  cases hdigit

/-- Where both readings of a digit apply they agree. -/
theorem digitValue?_of_hexValue? {c : CodePoint} {value : Nat} (h : c.hexValue? = some value)
    (hdigit : c.isDigit = true) : c.digitValue? = some value := by
  have hbasic := isBasicDigit_of_hexValue? h hdigit
  rw [digitValue?_of_isBasicDigit hbasic, ← h, hexValue?, if_pos hbasic]

theorem digit?_eq_some {c : CodePoint} {value : Nat} :
    Radix.hexadecimal.digit? c = some value ↔ c.HasHexValue value := by
  unfold Radix.digit? HasHexValue
  cases hdigit : c.digitValue? with
  | none => simp
  | some own =>
    refine ⟨.inl, ?_⟩
    rintro (h | h)
    · exact h
    · exact hdigit.symm.trans (digitValue?_of_hexValue? h (by simp [isDigit, hdigit]))

namespace HasHexValue

variable {c : CodePoint} {value : Nat}

theorem ne (h : c.HasHexValue value) {d : CodePoint}
    (hd : d.digitValue? = none ∧ d.hexValue? = none) : c ≠ d := by
  rintro rfl
  rcases h with h | h
  · rw [hd.1] at h
    cases h
  · rw [hd.2] at h
    cases h

/-- No digit is a blank. -/
theorem not_blank (h : c.HasHexValue value) : c.isNumeralBlank = false := by
  have hblank : c.isBlank = false := by
    rw [isBlank, List.any_eq_false]
    intro run hrun
    rcases h with h | h
    · have hapart : ∀ start ∈ zeroDigits, ∀ run ∈ blankRuns,
          run.2 < start ∨ start + 10 ≤ run.1 := by decide
      obtain ⟨start, hfound, -⟩ := Option.map_eq_some_iff.mp h
      have hrange := List.find?_some hfound
      have := hapart start (List.mem_of_find?_eq_some hfound) run hrun
      simp only [Bool.and_eq_true, decide_eq_true_eq] at hrange ⊢
      omega
    · have hapart : ∀ run ∈ blankRuns, run.2 < 0x30 ∨ 0x67 ≤ run.1 := by decide
      have := hapart run hrun
      have h0 : '0'.toNat = 0x30 := rfl
      have hA : 'A'.toNat = 0x41 := rfl
      have ha : 'a'.toNat = 0x61 := rfl
      have h9 : '9'.toNat = 0x39 := rfl
      have hF : 'F'.toNat = 0x46 := rfl
      have hf : 'f'.toNat = 0x66 := rfl
      simp only [hexValue?, isBasicDigit, between, Bool.and_eq_true, decide_eq_true_eq] at h ⊢
      repeat' split at h
      all_goals first
        | omega
        | cases h
  rw [isNumeralBlank, hblank, Bool.false_and]

theorem lt (h : c.HasHexValue value) : value < 16 := by
  rcases h with h | h
  · obtain ⟨start, hfound, rfl⟩ := Option.map_eq_some_iff.mp h
    have hrange := List.find?_some hfound
    simp only [Bool.and_eq_true, decide_eq_true_eq] at hrange
    omega
  · have h0 : '0'.toNat = 0x30 := rfl
    have hA : 'A'.toNat = 0x41 := rfl
    have ha : 'a'.toNat = 0x61 := rfl
    have h9 : '9'.toNat = 0x39 := rfl
    have hF : 'F'.toNat = 0x46 := rfl
    have hf : 'f'.toNat = 0x66 := rfl
    simp only [hexValue?, isBasicDigit, between, Bool.and_eq_true, decide_eq_true_eq] at h
    repeat' split at h
    all_goals first
      | (cases h; omega)
      | cases h

end HasHexValue

end CodePoint

namespace Text

/-- Blanks at the two ends of a text are taken off. -/
theorem trim_append {drop : CodePoint → Bool} {before core behind : Text}
    (hbefore : ∀ c ∈ before, drop c = true) (hbehind : ∀ c ∈ behind, drop c = true)
    (hfirst : ∀ c ∈ core.head?, drop c = false) (hlast : ∀ c ∈ core.getLast?, drop c = false)
    (hsome : core ≠ []) : trim drop (before ++ (core ++ behind)) = core := by
  have hends : ∀ s : Text, s ≠ [] → (∀ c ∈ s.head?, drop c = false) → s.dropWhile drop = s := by
    intro s hs hhead
    obtain ⟨c, rest, rfl⟩ := List.exists_cons_of_ne_nil hs
    simp [hhead c rfl]
  have hstart : (before ++ (core ++ behind)).dropWhile drop = core ++ behind := by
    rw [List.dropWhile_append_of_pos hbefore]
    obtain ⟨c, rest, rfl⟩ := List.exists_cons_of_ne_nil hsome
    exact hends _ (by simp) hfirst
  have hback : (core ++ behind).reverse.dropWhile drop = core.reverse := by
    rw [List.reverse_append,
      List.dropWhile_append_of_pos fun c hc => hbehind c (List.mem_reverse.mp hc)]
    exact hends _ (by simp [hsome]) fun c hc => hlast c (by rwa [List.head?_reverse] at hc)
  rw [trim, hstart, hback, List.reverse_reverse]

/-- A text is what is left of it between the blanks at its ends. -/
theorem exists_trim (drop : CodePoint → Bool) (t : Text) :
    ∃ before behind : Text, (∀ c ∈ before, drop c = true) ∧ (∀ c ∈ behind, drop c = true) ∧
      t = before ++ (t.trim drop ++ behind) := by
  refine ⟨t.takeWhile drop, ((t.dropWhile drop).reverse.takeWhile drop).reverse,
    fun c hc => List.mem_takeWhile_imp hc,
    fun c hc => List.mem_takeWhile_imp (List.mem_reverse.mp hc), ?_⟩
  rw [trim, ← List.reverse_append, List.takeWhile_append_dropWhile, List.reverse_reverse,
    List.takeWhile_append_dropWhile]

end Text

namespace Numeral

/-! ## Rows of digits -/

/-- A row of digits of a hexadecimal numeral, the most significant first, with single low lines
between them if any, and the number it spells. -/
inductive HexRow : Nat → Text → Prop
  | digit {c : CodePoint} {value : Nat} (hc : c.HasHexValue value) : HexRow value [c]
  | next {n value : Nat} {row : Text} {c : CodePoint} (hrow : HexRow n row)
      (hc : c.HasHexValue value) : HexRow (n * 16 + value) (row ++ [c])
  | joined {n value : Nat} {row : Text} {c : CodePoint} (hrow : HexRow n row)
      (hc : c.HasHexValue value) : HexRow (n * 16 + value) (row ++ [CodePoint.ofChar '_', c])

namespace HexRow

variable {n : Nat} {row : Text}

theorem ne_nil (h : HexRow n row) : row ≠ [] := by
  cases h <;> simp

theorem of_mem (h : HexRow n row) {c : CodePoint} (hc : c ∈ row) :
    c = '_' ∨ ∃ value, c.HasHexValue value := by
  induction h with
  | digit hd =>
    obtain rfl := List.mem_singleton.mp hc
    exact .inr ⟨_, hd⟩
  | next _ hd ih =>
    rcases List.mem_append.mp hc with hc | hc
    · exact ih hc
    · obtain rfl := List.mem_singleton.mp hc
      exact .inr ⟨_, hd⟩
  | joined _ hd ih =>
    rcases List.mem_append.mp hc with hc | hc
    · exact ih hc
    · rcases List.mem_cons.mp hc with rfl | hc
      · exact .inl rfl
      · obtain rfl := List.mem_singleton.mp hc
        exact .inr ⟨_, hd⟩

/-- A row begins and ends with a digit. -/
theorem ends (h : HexRow n row) :
    (∀ c ∈ row.head?, ∃ value, CodePoint.HasHexValue c value) ∧
      ∀ c ∈ row.getLast?, ∃ value, CodePoint.HasHexValue c value := by
  induction h with
  | digit hd => simpa using ⟨_, hd⟩
  | next hrow hd ih | joined hrow hd ih =>
    obtain ⟨c, rest, hc⟩ := List.exists_cons_of_ne_nil hrow.ne_nil
    refine ⟨fun d hmem => ih.1 d ?_, by simpa using ⟨_, hd⟩⟩
    simpa [hc] using hmem

theorem lt_pow (h : HexRow n row) : n < 16 ^ row.length := by
  induction h with
  | digit hd => simpa using hd.lt
  | next _ hd ih =>
    have := hd.lt
    simp only [List.length_append, List.length_singleton, Nat.pow_succ]
    omega
  | joined _ hd ih =>
    have := hd.lt
    simp only [List.length_append, List.length_cons, List.length_nil, Nat.pow_succ]
    omega

end HexRow

/-- What has been read of a row: nothing, a row, or a row with a low line behind it. -/
inductive HexStart : Nat → Bool → Text → Prop
  | nothing : HexStart 0 false []
  | row {n : Nat} {row : Text} (h : HexRow n row) : HexStart n true row
  | line {n : Nat} {row : Text} (h : HexRow n row) : HexStart n false (row ++ [CodePoint.ofChar '_'])

theorem HexStart.next {n value : Nat} {afterDigit : Bool} {before : Text} {c : CodePoint}
    (h : HexStart n afterDigit before) (hc : c.HasHexValue value) :
    HexStart (n * 16 + value) true (before ++ [c]) := by
  cases h with
  | nothing => simpa using HexStart.row (.digit hc)
  | row hrow => exact .row (.next hrow hc)
  | line hrow => simpa using HexStart.row (.joined hrow hc)

theorem hexRow_of_row? {n value : Nat} {afterDigit : Bool} {before t : Text}
    (hbefore : HexStart value afterDigit before)
    (h : row? .hexadecimal value afterDigit t = some n) : HexRow n (before ++ t) := by
  induction t generalizing value afterDigit before with
  | nil =>
    rw [row?] at h
    cases hbefore with
    | row hrow => simpa [← Option.some.inj h] using hrow
    | nothing | line => cases h
  | cons c rest ih =>
    rw [row?] at h
    have hrow : before ++ c :: rest = before ++ [c] ++ rest := by simp
    rw [hrow]
    split at h
    · rename_i hline
      subst hline
      cases hbefore with
      | row hbefore => exact ih (.line hbefore) h
      | nothing | line => cases h
    · split at h
      · rename_i digit hdigit
        exact ih (hbefore.next (CodePoint.digit?_eq_some.mp hdigit)) h
      · cases h

theorem row?_of_hexRow {n : Nat} {row : Text} (h : HexRow n row) (rest : Text) :
    row? .hexadecimal 0 false (row ++ rest) = row? .hexadecimal n true rest := by
  have hdigit : ∀ {c : CodePoint} {value : Nat}, c.HasHexValue value →
      ∀ (start : Nat) (afterDigit : Bool) (rest : Text),
        row? .hexadecimal start afterDigit (c :: rest) =
          row? .hexadecimal (start * 16 + value) true rest := by
    intro c value hc start afterDigit rest
    rw [row?, if_neg (hc.ne (by decide)), CodePoint.digit?_eq_some.mpr hc]
    rfl
  induction h generalizing rest with
  | digit hc => simpa using hdigit hc 0 false rest
  | next hrow hc ih => simpa [ih] using hdigit hc _ true rest
  | joined hrow hc ih => simpa [ih, row?] using hdigit hc _ false rest

theorem row?_eq_some {n : Nat} {t : Text} :
    row? .hexadecimal 0 false t = some n ↔ HexRow n t := by
  constructor
  · exact fun h => hexRow_of_row? .nothing h
  · intro h
    have hread := row?_of_hexRow h []
    rwa [List.append_nil] at hread

/-! ## Numerals -/

/-- What may stand between the sign and the digits of a hexadecimal numeral: a zero of any script,
the letter x in either case, and a low line behind it if any. -/
inductive HexMark : Text → Prop
  | none : HexMark []
  | mark {zero x : CodePoint} (hzero : zero.digitValue? = some 0) (hx : x = 'x' ∨ x = 'X') :
      HexMark [zero, x]
  | joined {zero x : CodePoint} (hzero : zero.digitValue? = some 0) (hx : x = 'x' ∨ x = 'X') :
      HexMark [zero, x, '_']

/-- The hexadecimal numerals of a number. -/
inductive IsHexadecimal : Int → Text → Prop
  | mk {before mark row behind : Text} {sign : Sign} {n : Nat}
      (hbefore : ∀ c ∈ before, CodePoint.isNumeralBlank c = true) (hmark : HexMark mark)
      (hrow : HexRow n row) (hbehind : ∀ c ∈ behind, CodePoint.isNumeralBlank c = true) :
      IsHexadecimal (if sign.isNegative then -(n : Int) else n)
        (before ++ (sign.text ++ (mark ++ row) ++ behind))

theorem unmarked_append {mark row : Text} {n : Nat} (hmark : HexMark mark) (hrow : HexRow n row) :
    unmarked .hexadecimal (mark ++ row) = row := by
  have hx : ∀ {x : CodePoint}, x ∈ row → ¬(x = 'x' ∨ x = 'X') := by
    rintro x hmem (rfl | rfl)
    · rcases hrow.of_mem hmem with hline | ⟨value, hvalue⟩
      · cases hline
      · exact hvalue.ne (by decide) rfl
    · rcases hrow.of_mem hmem with hline | ⟨value, hvalue⟩
      · cases hline
      · exact hvalue.ne (by decide) rfl
  have hfirst : ∀ c ∈ row.head?, c ≠ '_' := fun c hc => by
    obtain ⟨value, hvalue⟩ := hrow.ends.1 c hc
    exact hvalue.ne (by decide)
  cases hmark with
  | none =>
    unfold unmarked
    split
    · rw [if_neg fun h => hx (by simp_all) h.2]
      simp
    · simp
  | mark hzero hletter =>
    obtain ⟨c, rest, rfl⟩ := List.exists_cons_of_ne_nil hrow.ne_nil
    simp [unmarked, hzero, hletter, hfirst c rfl]
  | joined hzero hletter => simp [unmarked, hzero, hletter]

/-- A mark is taken off where there is one. -/
theorem exists_unmarked (t : Text) :
    ∃ mark, HexMark mark ∧ t = mark ++ unmarked .hexadecimal t := by
  unfold unmarked
  split
  · rename_i zero letter rest _
    split
    · rename_i hmark
      split
      · split
        · rename_i hline
          exact ⟨[zero, letter, '_'], .joined hmark.1 hmark.2, by rw [hline]; rfl⟩
        · exact ⟨[zero, letter], .mark hmark.1 hmark.2, rfl⟩
      · exact ⟨[zero, letter], .mark hmark.1 hmark.2, rfl⟩
    · exact ⟨[], .none, rfl⟩
  · exact ⟨[], .none, rfl⟩

theorem natural?_eq_some {n : Nat} {t : Text} :
    natural? .hexadecimal t = some n ↔
      ∃ mark row, HexMark mark ∧ HexRow n row ∧ t = mark ++ row := by
  rw [natural?, row?_eq_some]
  constructor
  · intro h
    obtain ⟨mark, hmark, ht⟩ := exists_unmarked t
    exact ⟨mark, _, hmark, h, ht⟩
  · rintro ⟨mark, row, hmark, hrow, rfl⟩
    rwa [unmarked_append hmark hrow]

/-- What stands behind the sign begins with a digit. -/
theorem head_mark_append {mark row : Text} {n : Nat} (hmark : HexMark mark) (hrow : HexRow n row) :
    ∃ c rest value, mark ++ row = c :: rest ∧ CodePoint.HasHexValue c value := by
  cases hmark with
  | none =>
    obtain ⟨c, rest, rfl⟩ := List.exists_cons_of_ne_nil hrow.ne_nil
    obtain ⟨value, hvalue⟩ := hrow.ends.1 c rfl
    exact ⟨c, rest, value, rfl, hvalue⟩
  | mark hzero _ | joined hzero _ => exact ⟨_, _, 0, rfl, .inl hzero⟩

theorem signed?_cons (c : CodePoint) (rest : Text) :
    signed? .hexadecimal (c :: rest) =
      if c = '-' then (natural? .hexadecimal rest).map fun n : Nat => -(n : Int)
      else (natural? .hexadecimal (if c = '+' then rest else c :: rest)).map
        fun n : Nat => (n : Int) := by
  rw [signed?]
  split
  · cases natural? .hexadecimal rest <;> rfl
  · split
    · cases natural? .hexadecimal rest <;> rfl
    · cases natural? .hexadecimal (c :: rest) <;> rfl

theorem signed?_eq_some {i : Int} {t : Text} :
    signed? .hexadecimal t = some i ↔
      ∃ (sign : Sign) (n : Nat) (mark row : Text), HexMark mark ∧ HexRow n row ∧
        t = sign.text ++ (mark ++ row) ∧ i = if sign.isNegative then -(n : Int) else n := by
  constructor
  · intro h
    cases t with
    | nil => cases h
    | cons c rest =>
      rw [signed?_cons] at h
      split at h
      · rename_i hminus
        obtain ⟨n, hn, rfl⟩ := Option.map_eq_some_iff.mp h
        obtain ⟨mark, row, hmark, hrow, rfl⟩ := natural?_eq_some.mp hn
        exact ⟨.minus, n, mark, row, hmark, hrow, by rw [hminus]; rfl, rfl⟩
      · obtain ⟨n, hn, rfl⟩ := Option.map_eq_some_iff.mp h
        obtain ⟨mark, row, hmark, hrow, ht⟩ := natural?_eq_some.mp hn
        split at ht
        · rename_i hplus
          exact ⟨.plus, n, mark, row, hmark, hrow, by rw [ht, hplus]; rfl, rfl⟩
        · exact ⟨.absent, n, mark, row, hmark, hrow, ht, rfl⟩
  · rintro ⟨sign, n, mark, row, hmark, hrow, rfl, rfl⟩
    have hread := natural?_eq_some.mpr ⟨mark, row, hmark, hrow, rfl⟩
    cases sign with
    | absent =>
      obtain ⟨c, rest, value, hstart, hc⟩ := head_mark_append hmark hrow
      rw [hstart] at hread ⊢
      have hminus : c ≠ '-' := hc.ne (by decide)
      have hplus : c ≠ '+' := hc.ne (by decide)
      simp [Sign.text, Sign.isNegative, signed?_cons, hminus, hplus, hread]
    | plus =>
      have hne : CodePoint.ofChar '+' ≠ CodePoint.ofChar '-' := by decide
      simp [Sign.text, Sign.isNegative, Text.ofString, signed?_cons, hne, hread]
    | minus => simp [Sign.text, Sign.isNegative, Text.ofString, signed?_cons, hread]

/-- What is read as a hexadecimal numeral is one, and all numerals are read. -/
theorem integer?_eq_some {i : Int} {t : Text} :
    integer? .hexadecimal t = some i ↔ IsHexadecimal i t := by
  constructor
  · intro h
    obtain ⟨sign, n, mark, row, hmark, hrow, hcore, rfl⟩ := signed?_eq_some.mp h
    obtain ⟨before, behind, hbefore, hbehind, ht⟩ :=
      Text.exists_trim CodePoint.isNumeralBlank t
    rw [ht, hcore]
    exact .mk hbefore hmark hrow hbehind
  · rintro ⟨hbefore, hmark, hrow, hbehind⟩
    rename_i before mark row behind sign n
    have htrim : Text.trim CodePoint.isNumeralBlank
        (before ++ (sign.text ++ (mark ++ row) ++ behind)) = sign.text ++ (mark ++ row) := by
      refine Text.trim_append hbefore hbehind ?_ ?_ (by simp [hrow.ne_nil])
      · intro c hc
        cases sign with
        | absent =>
          obtain ⟨d, rest, value, hstart, hd⟩ := head_mark_append hmark hrow
          obtain rfl : d = c := by simpa [Sign.text, hstart] using hc
          exact hd.not_blank
        | plus | minus =>
          cases hc
          decide
      · intro c hc
        obtain ⟨value, hvalue⟩ := hrow.ends.2 c <| by
          obtain ⟨front, last, rfl⟩ := List.eq_nil_or_concat row |>.resolve_left hrow.ne_nil
          simpa using hc
        exact hvalue.not_blank
    rw [integer?, htrim, signed?_eq_some]
    exact ⟨sign, n, mark, row, hmark, hrow, rfl, rfl⟩

/-! ## Plain digits -/

/-- The number that a row of plain digits spells, the most significant first. -/
def plainValue (row : Text) : Nat :=
  row.foldl (fun n c => n * 16 + (CodePoint.hexValue? c).getD 0) 0

/-- A row of the sixteen plain digits, one at least and letters in either case, and the number it
spells. -/
structure IsPlain (n : Nat) (row : Text) : Prop where
  nonempty : row ≠ []
  digits : ∀ c ∈ row, CodePoint.isHexDigit c = true
  value : plainValue row = n

theorem plainValue_concat (row : Text) {c : CodePoint} {value : Nat} (hc : c.hexValue? = some value) :
    plainValue (row ++ [c]) = plainValue row * 16 + value := by
  simp [plainValue, hc]

/-- What may stand in a numeral beside the plain digits: a sign, a low line, the letter x, a blank,
or a digit of another script. -/
def isLax (c : CodePoint) : Bool :=
  decide (c = '+') || decide (c = '-') || decide (c = '_') || decide (c = 'x') ||
    decide (c = 'X') || c.isNumeralBlank || (c.isDigit && !c.isBasicDigit)

theorem exists_hexValue {c : CodePoint} (h : c.isHexDigit = true) :
    ∃ value, c.hexValue? = some value := by
  simp only [CodePoint.isHexDigit, Bool.or_eq_true] at h
  unfold CodePoint.hexValue?
  split
  · exact ⟨_, rfl⟩
  split
  · exact ⟨_, rfl⟩
  · rw [if_pos (by simp_all)]
    exact ⟨_, rfl⟩

theorem isHexDigit_of_hexValue? {c : CodePoint} {value : Nat} (h : c.hexValue? = some value) :
    c.isHexDigit = true := by
  simp only [CodePoint.isHexDigit, Bool.or_eq_true]
  unfold CodePoint.hexValue? at h
  split at h
  · exact .inl (.inl ‹_›)
  split at h
  · exact .inl (.inr ‹_›)
  split at h
  · exact .inr ‹_›
  · cases h

/-- A digit that is not lax is a plain one. -/
theorem hexValue?_of_not_lax {c : CodePoint} {value : Nat} (h : c.HasHexValue value)
    (hlax : isLax c = false) : c.hexValue? = some value := by
  rcases h with h | h
  · have hbasic : c.isBasicDigit = true := by
      simpa [isLax, CodePoint.isDigit, h] using (Bool.or_eq_false_iff.mp hlax).2
    rw [← h, CodePoint.digitValue?_of_isBasicDigit hbasic, CodePoint.hexValue?, if_pos hbasic]
  · exact h

theorem HexRow.plain {n : Nat} {row : Text} (h : HexRow n row)
    (hlax : ∀ c ∈ row, isLax c = false) : IsPlain n row := by
  have hdigit : ∀ {c : CodePoint} {value : Nat}, c.HasHexValue value → isLax c = false →
      c.isHexDigit = true := fun hc hnot =>
    isHexDigit_of_hexValue? (hexValue?_of_not_lax hc hnot)
  induction h with
  | @digit c value hc =>
    have hnot := hlax c (by simp)
    refine ⟨by simp, by simpa using hdigit hc hnot, ?_⟩
    simp [plainValue, hexValue?_of_not_lax hc hnot]
  | @next n value row c _ hc ih =>
    have hnot := hlax c (by simp)
    obtain ⟨-, hdigits, rfl⟩ := ih fun d hd => hlax d (by simp [hd])
    refine ⟨by simp, fun d hd => ?_, plainValue_concat row (hexValue?_of_not_lax hc hnot)⟩
    rcases List.mem_append.mp hd with hd | hd
    · exact hdigits d hd
    · rw [List.mem_singleton.mp hd]
      exact hdigit hc hnot
  | joined => simpa [isLax] using hlax '_' (by simp)

theorem IsPlain.hexRow {n : Nat} {row : Text} (h : IsPlain n row) : HexRow n row := by
  obtain ⟨hsome, hdigits, rfl⟩ := h
  induction row using List.reverseRecOn with
  | nil => exact absurd rfl hsome
  | append_singleton front c ih =>
    obtain ⟨value, hvalue⟩ := exists_hexValue (hdigits c (by simp))
    rw [plainValue_concat front hvalue]
    by_cases hfront : front = []
    · subst hfront
      simpa [plainValue] using HexRow.digit (.inr hvalue)
    · exact .next (ih hfront fun d hd => hdigits d (by simp [hd])) (.inr hvalue)

/-- Nothing lax is a plain digit. -/
theorem isLax_of_isHexDigit {c : CodePoint} (h : c.isHexDigit = true) : isLax c = false := by
  obtain ⟨value, hvalue⟩ := exists_hexValue h
  have hne : ∀ d : CodePoint, d.digitValue? = none ∧ d.hexValue? = none → c ≠ d := fun d hd =>
    CodePoint.HasHexValue.ne (.inr hvalue) hd
  have hblank := CodePoint.HasHexValue.not_blank (.inr hvalue)
  have hdigit := CodePoint.isBasicDigit_of_hexValue? hvalue
  simpa [isLax, hblank, hne '+' (by decide), hne '-' (by decide), hne '_' (by decide),
    hne 'x' (by decide), hne 'X' (by decide)] using hdigit

namespace IsHexadecimal

/-- What a numeral is made of: plain digits and what is lax. -/
theorem of_mem {i : Int} {t : Text} (h : IsHexadecimal i t) {c : CodePoint} (hc : c ∈ t) :
    isLax c = true ∨ c.isHexDigit = true := by
  have hdigit : ∀ {value : Nat}, c.HasHexValue value → isLax c = true ∨ c.isHexDigit = true := by
    intro value hvalue
    by_cases hlax : isLax c = true
    · exact .inl hlax
    · exact .inr (isHexDigit_of_hexValue? (hexValue?_of_not_lax hvalue (by simpa using hlax)))
  obtain ⟨hbefore, hmark, hrow, hbehind⟩ := h
  rename_i before mark row behind sign n
  simp only [List.mem_append] at hc
  rcases hc with hc | (hc | hc | hc) | hc
  · simp [isLax, hbefore c hc]
  · cases sign with
    | absent => cases hc
    | plus | minus =>
      obtain rfl := List.mem_singleton.mp hc
      exact .inl (by decide)
  · cases hmark with
    | none => cases hc
    | mark hzero hx | joined hzero hx =>
      simp only [List.mem_cons, List.not_mem_nil, or_false] at hc
      rcases hc with rfl | hc
      · exact hdigit (.inl hzero)
      · left
        rcases hc with rfl | rfl <;> rcases hx with rfl | rfl <;> decide
  · rcases hrow.of_mem hc with rfl | ⟨value, hvalue⟩
    · exact .inl (by decide)
    · exact hdigit hvalue
  · simp [isLax, hbehind c hc]

/-- A numeral of few code points is of a small number. -/
theorem lt_pow {i : Int} {t : Text} (h : IsHexadecimal i t) : i < (16 : Int) ^ t.length := by
  obtain ⟨hbefore, hmark, hrow, hbehind⟩ := h
  rename_i before mark row behind sign n
  have hlength : row.length ≤ (before ++ (sign.text ++ (mark ++ row) ++ behind)).length := by
    simp only [List.length_append]
    omega
  have hpow : 16 ^ row.length ≤ 16 ^ (before ++ (sign.text ++ (mark ++ row) ++ behind)).length :=
    Nat.pow_le_pow_right (by decide) hlength
  have hsmall := Nat.lt_of_lt_of_le hrow.lt_pow hpow
  have hcast : (n : Int) < (16 : Int) ^ (before ++ (sign.text ++ (mark ++ row) ++ behind)).length :=
    by exact_mod_cast hsmall
  split <;> omega

/-- A row of plain digits is a numeral. -/
theorem of_plain {n : Nat} {row : Text} (h : IsPlain n row) : IsHexadecimal n row := by
  simpa [Sign.text, Sign.isNegative] using
    @IsHexadecimal.mk [] [] row [] .absent n (by simp) .none h.hexRow (by simp)

/-- A numeral that holds nothing lax is a row of plain digits. -/
theorem plain {i : Int} {t : Text} (h : IsHexadecimal i t) (hlax : ∀ c ∈ t, isLax c = false) :
    ∃ n : Nat, i = n ∧ IsPlain n t := by
  obtain ⟨hbefore, hmark, hrow, hbehind⟩ := h
  rename_i before mark row behind sign n
  have hblanks : ∀ blanks : Text, (∀ c ∈ blanks, CodePoint.isNumeralBlank c = true) →
      (∀ c ∈ blanks, isLax c = false) → blanks = [] := by
    intro blanks hblank hnone
    refine List.eq_nil_iff_forall_not_mem.mpr fun c hc => ?_
    simpa [isLax, hblank c hc] using hnone c hc
  obtain rfl := hblanks before hbefore fun c hc => hlax c (by simp [hc])
  obtain rfl := hblanks behind hbehind fun c hc => hlax c (by simp [hc])
  obtain rfl : mark = [] := by
    cases hmark with
    | none => rfl
    | @mark zero x _ hx | @joined zero x _ hx =>
      have hnone := hlax x (by simp)
      rcases hx with rfl | rfl <;> simp [isLax] at hnone
  cases sign with
  | absent =>
    refine ⟨n, rfl, ?_⟩
    simpa [Sign.text] using hrow.plain fun c hc => hlax c (by simp [hc])
  | plus => simpa [isLax] using hlax '+' (by simp [Sign.text, Text.ofString])
  | minus => simpa [isLax] using hlax '-' (by simp [Sign.text, Text.ofString])

end IsHexadecimal

end Numeral

end Part21
