import Mathlib.Data.Prod.Lex
import Part21.Text.Position

set_option autoImplicit false

/-!
# Lines and columns as addresses

One code point further on is the next column, or the first column of the next line behind a line
feed (`Text.lineAt_succ`, `Text.columnAt_succ`).  So addresses ascend with the offsets, by line and
then by column, and an offset is found again from the start of its line
(`Text.lineAndColumn_addresses`).
-/

namespace Part21

namespace Text

variable {t : Text} {offset : Nat} {c : CodePoint}

/-! ## One code point further on -/

@[simp]
theorem lineAt_zero (t : Text) : t.lineAt 0 = 1 := rfl

@[simp]
theorem columnAt_zero (t : Text) : t.columnAt 0 = 1 := by
  rw [columnAt, List.take_zero, Nat.zero_sub]
  rfl

theorem take_succ_of_getElem? (hc : t[offset]? = some c) :
    t.take (offset + 1) = t.take offset ++ [c] := by
  rw [List.take_add_one, hc, Option.toList_some]

/-- A line ends behind its line feed. -/
theorem lineAt_succ (hc : t[offset]? = some c) :
    t.lineAt (offset + 1) = if c = lineFeed then t.lineAt offset + 1 else t.lineAt offset := by
  rw [lineAt, lineAt, take_succ_of_getElem? hc, lineFeeds, lineFeeds, List.count_append,
    List.count_singleton]
  split <;> simp_all

theorem lastLineLength_concat (t : Text) (c : CodePoint) :
    lastLineLength (t ++ [c]) = if c = lineFeed then 0 else lastLineLength t + 1 := by
  rw [lastLineLength, lastLineLength, List.reverse_append, List.reverse_singleton,
    List.singleton_append, List.takeWhile_cons]
  split <;> simp_all

/-- Columns count on to the end of the line. -/
theorem columnAt_succ (hc : t[offset]? = some c) :
    t.columnAt (offset + 1) = if c = lineFeed then 1 else t.columnAt offset + 1 := by
  obtain ⟨hlt, -⟩ := List.getElem?_eq_some_iff.mp hc
  rw [columnAt, columnAt, take_succ_of_getElem? hc, lastLineLength_concat,
    Nat.sub_eq_zero_of_le hlt, Nat.sub_eq_zero_of_le (Nat.le_of_lt hlt)]
  split <;> rfl

/-! ## The order of addresses -/

/-- The address of the next offset is later. -/
theorem address_lt_succ (h : offset < t.length) :
    toLex (t.lineAt offset, t.columnAt offset) <
      toLex (t.lineAt (offset + 1), t.columnAt (offset + 1)) := by
  have hc := List.getElem?_eq_getElem h
  rw [Prod.Lex.toLex_lt_toLex, lineAt_succ hc, columnAt_succ hc]
  split
  · exact .inl (Nat.lt_succ_self _)
  · exact .inr ⟨rfl, Nat.lt_succ_self _⟩

/-- Later offsets have later addresses. -/
theorem address_lt {p q : Nat} (hpq : p < q) (hq : q ≤ t.length) :
    toLex (t.lineAt p, t.columnAt p) < toLex (t.lineAt q, t.columnAt q) := by
  induction q, hpq using Nat.le_induction with
  | base => exact address_lt_succ hq
  | succ q _ ih => exact (ih (Nat.le_of_succ_le hq)).trans (address_lt_succ hq)

/-! ## Starts of lines -/

/-- The offset at which a line starts: the first line at zero, each other one behind the line feed
that ends the line before it. -/
def lineStart : Text → Nat → Nat
  | [], _ => 0
  | c :: rest, line =>
    if line ≤ 1 then 0
    else if c = lineFeed then lineStart rest (line - 1) + 1
    else lineStart rest line + 1

theorem lineStart_one (t : Text) : t.lineStart 1 = 0 := by
  cases t <;> rfl

/-- Behind a line feed starts the line that counts all line feeds so far. -/
theorem lineStart_behind (before behind : Text) :
    (before ++ lineFeed :: behind).lineStart (lineFeeds before + 2) = before.length + 1 := by
  induction before with
  | nil =>
    have hfirst : lineStart (lineFeed :: behind) 2 = behind.lineStart 1 + 1 := rfl
    exact hfirst.trans (congrArg (· + 1) (lineStart_one behind))
  | cons c rest ih =>
    rw [List.cons_append, lineStart, if_neg (by omega), List.length_cons]
    by_cases hc : c = lineFeed
    · have hfeeds : lineFeeds (c :: rest) = lineFeeds rest + 1 := by
        rw [hc, lineFeeds, lineFeeds, List.count_cons_self]
      rw [if_pos hc, hfeeds]
      exact congrArg (· + 1) ih
    · have hfeeds : lineFeeds (c :: rest) = lineFeeds rest := List.count_cons_of_ne hc
      rw [if_neg hc, hfeeds, ih]

/-- The columns of a line count from its start. -/
theorem lineStart_add_columnAt (h : offset ≤ t.length) :
    t.lineStart (t.lineAt offset) + t.columnAt offset = offset + 1 := by
  induction offset with
  | zero => rw [lineAt_zero, columnAt_zero, lineStart_one]
  | succ offset ih =>
    have hc := List.getElem?_eq_getElem h
    rw [lineAt_succ hc, columnAt_succ hc]
    split
    · rename_i hfeed
      have hsplit : t.take offset ++ lineFeed :: t.drop (offset + 1) = t := by
        rw [← hfeed, List.getElem_cons_drop, List.take_append_drop]
      have hstart := lineStart_behind (t.take offset) (t.drop (offset + 1))
      rw [hsplit, List.length_take_of_le (Nat.le_of_lt h)] at hstart
      exact congrArg (· + 1) hstart
    · rw [← Nat.add_assoc, ih (Nat.le_of_lt h)]

theorem lineAt_le (t : Text) (offset : Nat) : t.lineAt offset ≤ t.lineFeeds + 1 :=
  Nat.succ_le_succ ((List.take_sublist offset t).count_le lineFeed)

/-! ## Addresses -/

/-- Addresses ascend with the offsets of a text.  Lines and columns count from one, there is one
line more than line feeds at most, and the start of the line and the column give the offset. -/
theorem lineAndColumn_addresses (t : Text) :
    (∀ p q : Int, 0 ≤ p → p < q → q ≤ t.length →
      toLex (t.lineAndColumn p) < toLex (t.lineAndColumn q)) ∧
    ∀ p : Int, 0 ≤ p → p ≤ t.length →
      1 ≤ (t.lineAndColumn p).1 ∧ 1 ≤ (t.lineAndColumn p).2 ∧
        (t.lineAndColumn p).1 ≤ t.lineFeeds + 1 ∧
        t.lineStart (t.lineAndColumn p).1 + (t.lineAndColumn p).2 - 1 = p := by
  refine ⟨fun p q hp hpq hq => ?_, fun p hp hlength => ?_⟩
  · obtain ⟨p, rfl⟩ := Int.eq_ofNat_of_zero_le hp
    obtain ⟨q, rfl⟩ := Int.eq_ofNat_of_zero_le (Int.le_trans hp (Int.le_of_lt hpq))
    have hlt := address_lt (Int.ofNat_lt.mp hpq) (Int.ofNat_le.mp hq)
    rw [Prod.Lex.toLex_lt_toLex] at hlt
    rw [lineAndColumn_ofNat, lineAndColumn_ofNat, Prod.Lex.toLex_lt_toLex]
    exact hlt.imp_right fun h => ⟨h.1, Int.ofNat_lt.mpr h.2⟩
  · obtain ⟨p, rfl⟩ := Int.eq_ofNat_of_zero_le hp
    have hback := lineStart_add_columnAt (Int.ofNat_le.mp hlength)
    have hcolumn : 1 ≤ t.columnAt p := Nat.succ_le_succ (Nat.zero_le _)
    rw [lineAndColumn_ofNat]
    refine ⟨Nat.succ_le_succ (Nat.zero_le _), Int.ofNat_le.mpr hcolumn, lineAt_le t p, ?_⟩
    dsimp only
    omega

/-- A line feed, and the end of a text behind two of them. -/
theorem lineAndColumn_addresses_feeds :
    toLex (Text.lineAndColumn "ab\n\n" 2) < toLex (Text.lineAndColumn "ab\n\n" 4) ∧
      Text.lineStart "ab\n\n" (Text.lineAndColumn "ab\n\n" 4).1 +
        (Text.lineAndColumn "ab\n\n" 4).2 - 1 = 4 := by
  obtain ⟨horder, haddress⟩ := lineAndColumn_addresses "ab\n\n"
  exact ⟨horder 2 4 (by decide) (by decide) (by decide),
    (haddress 4 (by decide) (by decide)).2.2.2⟩

end Text

end Part21
