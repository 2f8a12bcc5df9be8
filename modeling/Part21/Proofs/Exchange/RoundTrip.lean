import Part21.Proofs.Exchange.Literals
import Part21.Proofs.Exchange.Sameness
import Part21.Proofs.Exchange.Unambiguity

set_option autoImplicit false

/-!
# Records are read back from their layouts

However the lexemes of a record are laid out, the tokens of the text are those lexemes.  A lexeme
that only ends where something else starts is followed in a record by a mark, so nothing has to
stand between the two.  Reading the text gives the record back, at the place where its first lexeme
stands.  The main statement is `Record.ofText_laid`.
-/

namespace Part21

/-! ## Tokens of a layout -/

namespace Text

theorem lineFeeds_append (s t : Text) : lineFeeds (s ++ t) = lineFeeds s + lineFeeds t :=
  List.count_append

end Text

namespace Token

theorem run_nil (offset line : Nat) : run [] offset line = ⟨[], none⟩ := by rw [run]

/-- What separates lexemes only moves the tokens behind it. -/
theorem run_takes_none {w behind : Text} (h : Cut.Takes none w behind) (offset line : Nat) :
    run (w ++ behind) offset line =
      run behind (offset + w.length) (line + Text.lineFeeds w) := by
  obtain ⟨c, rest, rfl, hcut⟩ := h
  rw [List.cons_append, run]
  dsimp only
  rw [hcut]
  dsimp only
  rw [List.length_cons, Nat.add_sub_cancel, List.drop_left, ← List.cons_append,
    ← List.length_cons, List.take_left]

/-- A lexeme that is cut is the next token. -/
theorem run_takes_some {l : Lexeme} {w behind : Text} (h : Cut.Takes (some l) w behind)
    (offset line : Nat) :
    run (w ++ behind) offset line =
      ⟨⟨l, offset, line⟩ :: (run behind (offset + w.length) (line + Text.lineFeeds w)).tokens,
        (run behind (offset + w.length) (line + Text.lineFeeds w)).stop⟩ := by
  obtain ⟨c, rest, rfl, hcut⟩ := h
  rw [List.cons_append, run]
  dsimp only
  rw [hcut]
  dsimp only
  rw [List.length_cons, Nat.add_sub_cancel, List.drop_left, ← List.cons_append,
    ← List.length_cons, List.take_left]

/-- Separators hold no token. -/
theorem run_separates {gap : Text} (h : Separates gap) (behind : Text) (offset line : Nat) :
    run (gap ++ behind) offset line =
      run behind (offset + gap.length) (line + Text.lineFeeds gap) := by
  have hstep : ∀ {w more : Text}, Cut.Takes none w (more ++ behind) → ∀ offset line : Nat,
      (∀ offset line, run (more ++ behind) offset line =
        run behind (offset + more.length) (line + Text.lineFeeds more)) →
      run (w ++ (more ++ behind)) offset line =
        run behind (offset + (w ++ more).length) (line + Text.lineFeeds (w ++ more)) := by
    intro w more htakes offset line hmore
    rw [run_takes_none htakes, hmore, List.length_append, Text.lineFeeds_append, Nat.add_assoc,
      Nat.add_assoc]
  induction h generalizing offset line with
  | nil => rfl
  | @blank c more hc _ ih =>
    have htakes : Cut.Takes none [c] (more ++ behind) := ⟨c, [], rfl, Cut.first_separator hc _⟩
    exact hstep htakes offset line ih
  | @comment body more hbody _ ih =>
    have hstep := hstep (Cut.takes_comment hbody (more ++ behind)) offset line ih
    simpa only [List.append_assoc] using hstep

end Token

/-! ## Rows in which every lexeme ends -/

namespace Lexeme

/-- A lexeme of a single code point. -/
def isMark : Lexeme → Bool
  | dollar | star | leftParen | rightParen | comma | semicolon | equals => true
  | _ => false

/-- What needs a border behind it has a mark there. -/
def Settles (l m : Lexeme) : Prop := l.isOpen = true → m.isMark = true

/-- Every lexeme of a row ends where the next one starts. -/
abbrev Settled (ls : List Lexeme) : Prop := List.IsChain Settles ls

theorem Settled.cons_closed {l : Lexeme} {ls : List Lexeme} (hl : l.isOpen = false)
    (h : Settled ls) : Settled (l :: ls) := by
  refine List.isChain_cons.mpr ⟨fun m _ hopen => ?_, h⟩
  rw [hl] at hopen
  cases hopen

theorem Settled.cons_mark {l : Lexeme} {ls : List Lexeme} (hls : ∀ m ∈ ls.head?, m.isMark = true)
    (h : Settled ls) : Settled (l :: ls) :=
  List.isChain_cons.mpr ⟨fun m hm _ => hls m hm, h⟩

end Lexeme

open Lexeme (Settled)

namespace Parameter

mutual

/-- A parameter in front of a mark is settled. -/
theorem settled (p : Parameter) {behind : List Lexeme}
    (hmark : ∀ m ∈ behind.head?, m.isMark = true) (h : Settled behind) :
    Settled (p.lexemes ++ behind) := by
  match p with
  | .list items =>
    rw [lexemes]
    simp only [List.cons_append, List.append_assoc]
    exact .cons_closed rfl (settled_row items (fun m hm => by cases hm; rfl) (.cons_closed rfl h))
  | .typed keyword value =>
    rw [lexemes]
    simp only [List.cons_append, List.append_assoc]
    refine .cons_mark (fun m hm => by cases hm; rfl) (.cons_closed rfl ?_)
    exact settled value (fun m hm => by cases hm; rfl) (.cons_closed rfl h)
  | .integer _ | .real _ | .string _ | .enumeration _ | .binary _ _ | .reference _ | .unset
  | .inapplicable => exact .cons_mark hmark h

/-- A row of parameters in front of a mark is settled. -/
theorem settled_row (items : List Parameter) {behind : List Lexeme}
    (hmark : ∀ m ∈ behind.head?, m.isMark = true) (h : Settled behind) :
    Settled (rowLexemes items ++ behind) := by
  match items with
  | [] => exact h
  | item :: rest =>
    rw [rowLexemes, List.append_assoc]
    obtain ⟨hrest, hnext⟩ := settled_rest rest hmark h
    exact settled item hnext hrest

/-- Parameters behind another one start with a mark. -/
theorem settled_rest (items : List Parameter) {behind : List Lexeme}
    (hmark : ∀ m ∈ behind.head?, m.isMark = true) (h : Settled behind) :
    Settled (restLexemes items ++ behind) ∧
      ∀ m ∈ (restLexemes items ++ behind).head?, m.isMark = true := by
  match items with
  | [] => exact ⟨h, hmark⟩
  | item :: rest =>
    rw [restLexemes]
    simp only [List.cons_append, List.append_assoc]
    obtain ⟨hrest, hnext⟩ := settled_rest rest hmark h
    exact ⟨.cons_closed rfl (settled item hnext hrest), fun m hm => by cases hm; rfl⟩

end

end Parameter

theorem Group.settled (g : Group) {behind : List Lexeme} (h : Settled behind) :
    Settled (g.lexemes ++ behind) := by
  rw [Group.lexemes]
  simp only [List.cons_append, List.append_assoc]
  refine .cons_mark (fun m hm => by cases hm; rfl) (.cons_closed rfl ?_)
  exact Parameter.settled_row g.parameters (fun m hm => by cases hm; rfl) (.cons_closed rfl h)

theorem Group.settled_row (groups : List Group) {behind : List Lexeme} (h : Settled behind) :
    Settled (groups.flatMap Group.lexemes ++ behind) := by
  induction groups with
  | nil => exact h
  | cons g rest ih =>
    rw [List.flatMap_cons, List.append_assoc]
    exact g.settled ih

theorem Body.settled (b : Body) {behind : List Lexeme} (h : Settled behind) :
    Settled (b.lexemes ++ behind) := by
  cases b with
  | simple g => exact g.settled h
  | complex first others loose =>
    rw [Body.lexemes]
    simp only [List.cons_append, List.append_assoc]
    exact .cons_closed rfl (Group.settled_row _ (.cons_closed rfl h))

theorem Record.settled (r : Record) : Settled r.lexemes := by
  have hbody : Settled (r.body.lexemes ++ [.semicolon]) :=
    r.body.settled (.cons_closed rfl .nil)
  rw [Record.lexemes, List.append_assoc]
  cases r.id with
  | none => exact hbody
  | some id => exact .cons_mark (fun m hm => by cases hm; rfl) (.cons_closed rfl hbody)

/-! ## The tokens of a layout -/

theorem Separates.stops {gap behind : Text} (h : Separates gap) (hbehind : Cut.Stops behind) :
    Cut.Stops (gap ++ behind) := by
  cases h with
  | nil => exact hbehind
  | blank hc _ =>
    intro c hmem
    cases hmem
    exact Cut.mem_borders_of_isSeparator hc
  | comment _ _ =>
    intro c hmem
    cases hmem
    decide

/-- A layout that starts with a mark starts with a border, and so does an empty one in front of
one. -/
theorem Laid.stops_append {ls : List Lexeme} {t behind : Text} (h : Laid ls t)
    (hls : ∀ m ∈ ls.head?, m.isMark = true) (hbehind : ls = [] → Cut.Stops behind) :
    Cut.Stops (t ++ behind) := by
  cases h with
  | nil => exact hbehind rfl
  | @cons l rest word gap t hword hgap hrest =>
    have hl : l.isMark = true := hls l rfl
    cases hword with
    | mark hc =>
      intro c hmem
      cases hmem
      exact Cut.mem_borders_of_punctuation? hc
    | _ => cases hl

/-- The tokens of a layout are the lexemes that are laid out, and the text behind it is cut on its
own.  Where a mark or nothing is to come, that text has to start with a border. -/
theorem Token.run_laid_append {ls more : List Lexeme} {t behind : Text} (h : Laid ls t)
    (hls : Settled (ls ++ more))
    (hbehind : (∀ m ∈ more.head?, m.isMark = true) → Cut.Stops behind) (offset line : Nat) :
    ∃ ts, Token.run (t ++ behind) offset line =
        ⟨ts ++ (Token.run behind (offset + t.length) (line + Text.lineFeeds t)).tokens,
          (Token.run behind (offset + t.length) (line + Text.lineFeeds t)).stop⟩ ∧
      ts.map Token.lexeme = ls ∧ ∀ first ∈ ts.head?, first.offset = offset ∧ first.line = line := by
  induction h generalizing offset line with
  | nil => exact ⟨[], rfl, rfl, by simp⟩
  | @cons l rest word gap t hword hgap hrest ih =>
    rw [List.cons_append] at hls
    obtain ⟨hnext, hsettled⟩ := List.isChain_cons.mp hls
    have hends : l.isOpen = true → Cut.Stops (gap ++ (t ++ behind)) := by
      intro hopen
      refine hgap.stops (hrest.stops_append (fun m hm => hnext m ?_ hopen) ?_)
      · exact List.mem_head?_append_of_mem_head? hm
      · rintro rfl
        exact hbehind fun m hm => hnext m hm hopen
    obtain ⟨ts, hrun, hlexemes, _⟩ := ih hsettled (offset + word.length + gap.length)
      (line + Text.lineFeeds word + Text.lineFeeds gap)
    refine ⟨⟨l, offset, line⟩ :: ts, ?_, by rw [List.map_cons, hlexemes], ?_⟩
    · rw [List.append_assoc, List.append_assoc,
        Token.run_takes_some (Lexeme.takes_written hword hends), Token.run_separates hgap, hrun]
      simp only [List.length_append, Text.lineFeeds_append, Nat.add_assoc, List.cons_append]
    · intro first hfirst
      cases hfirst
      exact ⟨rfl, rfl⟩

/-- The tokens of a layout are the lexemes that are laid out. -/
theorem Token.run_laid {ls : List Lexeme} {t : Text} (h : Laid ls t) (hls : Settled ls)
    (offset line : Nat) :
    ∃ ts, Token.run t offset line = ⟨ts, none⟩ ∧ ts.map Token.lexeme = ls ∧
      ∀ first ∈ ts.head?, first.offset = offset ∧ first.line = line := by
  have hsettled : Settled (ls ++ []) := by rwa [List.append_nil]
  obtain ⟨ts, hrun, htokens⟩ :=
    Token.run_laid_append h hsettled (fun _ c (hc : c ∈ ([] : Text).head?) => by cases hc) offset line
  rw [List.append_nil, Token.run_nil, List.append_nil] at hrun
  exact ⟨ts, hrun, htokens⟩

/-! ## Records -/

namespace Record

/-- A record is read from its lexemes, at the place of the first one. -/
theorem ofText_of_run {r : Record} (hr : r.IsSpellable) {lead t : Text} (hlead : Separates lead)
    {ts : List Token}
    (hrun : Token.run t (0 + lead.length) (1 + lead.lineFeeds) = ⟨ts, none⟩)
    (hlexemes : ts.map Token.lexeme = r.lexemes)
    (hfirst : ∀ first ∈ ts.head?,
      first.offset = 0 + lead.length ∧ first.line = 1 + lead.lineFeeds) :
    ofText (lead ++ t) =
      .ok { r with offset := some lead.length, line := some (lead.lineFeeds + 1) } := by
  have htokens : Token.ofText (lead ++ t) = ⟨ts, none⟩ := by
    rw [Token.ofText, Token.run_separates hlead, hrun]
  rw [ofText, ofRun_eq_ok, htokens]
  refine ⟨⟨⟨hr.name, hr.body, hr.named⟩, hlexemes, fun first hmem => ?_⟩, rfl⟩
  obtain ⟨hoffset, hline⟩ := hfirst first hmem
  rw [hoffset, hline, Nat.zero_add, Nat.add_comm]
  exact ⟨rfl, rfl⟩

/-- A record is read back from a layout of its lexemes, at the place of the first one. -/
theorem ofText_append {r : Record} (hr : r.IsSpellable) {lead t : Text} (hlead : Separates lead)
    (ht : Laid r.lexemes t) :
    ofText (lead ++ t) =
      .ok { r with offset := some lead.length, line := some (lead.lineFeeds + 1) } := by
  obtain ⟨ts, hrun, hlexemes, hfirst⟩ :=
    Token.run_laid ht r.settled (0 + lead.length) (1 + lead.lineFeeds)
  exact ofText_of_run hr hlead hrun hlexemes hfirst

/-- A record is read back from every layout of its lexemes, whatever spellings they have and
whatever separates them.  Any literal will do for a real that reads as the same number. -/
theorem ofText_laid {r : Record} (hr : r.IsSpellable) {lead t : Text} (hlead : Separates lead)
    {written : List Lexeme} (hwritten : Lexeme.AllSame written r.lexemes) (ht : Laid written t) :
    ∃ own, ofText (lead ++ t) = .ok own ∧ own.same r = true ∧ own.lexemes = written ∧
      own.offset = some lead.length ∧ own.line = some (lead.lineFeeds + 1) := by
  obtain ⟨other, hother, rfl, hsame⟩ := exists_same hr hwritten
  exact ⟨_, ofText_append hother hlead ht, hsame, rfl, rfl, rfl⟩

/-- Comments before and between the lexemes, a doubled apostrophe, and a zero of the other sign. -/
theorem ofText_laid_commented :
    ∃ own, ofText "/***/\n#1=A/*(*/(-0. ,-7,'it''s');" = .ok own ∧
      own.same ⟨some 1, .simple ⟨"A", [.real ⟨false, 0, by decide⟩, .integer (-7),
        .string "it's"]⟩, none, none⟩ = true ∧
      own.lexemes = [.entityName 1, .equals, .keyword "A", .leftParen,
        .real (Cut.realValue true "0" [] none), .comma, .integer (-7), .comma, .string "it's",
        .rightParen, .semicolon] ∧
      own.offset = some 6 ∧ own.line = some 2 := by
  have hlead : Separates "/***/\n" :=
    @Separates.comment "*" "\n" (by decide) (.blank (by decide) .nil)
  have hname : Lexeme.Written (.entityName 1) "#1" := Lexeme.written_entityName (by decide)
  have hkeyword : Lexeme.Written (.keyword "A") "A" :=
    .keyword ⟨.inl (.mk (by decide) (by decide)), by decide⟩
  have hreal : Lexeme.Written (.real (Cut.realValue true "0" [] none)) "-0." :=
    .real (@Cut.RealWritten.point .minus "0" [] ⟨by decide, by decide⟩ (by decide))
  have hinteger : Lexeme.Written (.integer (-7)) "-7" := Lexeme.written_integer (by decide)
  have hstring : Lexeme.Written (.string "it's") "'it''s'" := .string (by decide)
  have hblank : Separates " " := .blank (by decide) .nil
  have hcomment : Separates "/*(*/" := @Separates.comment "(" [] (by decide) .nil
  have hcomma : Lexeme.Written .comma "," := .mark (c := ',') rfl
  have hlaid : Laid [.entityName 1, .equals, .keyword "A", .leftParen,
      .real (Cut.realValue true "0" [] none), .comma, .integer (-7), .comma, .string "it's",
      .rightParen, .semicolon] "#1=A/*(*/(-0. ,-7,'it''s');" :=
    .cons hname .nil <| .cons (.mark (c := '=') rfl) .nil <| .cons hkeyword hcomment <|
      .cons (.mark (c := '(') rfl) .nil <| .cons hreal hblank <| .cons hcomma .nil <|
      .cons hinteger .nil <| .cons hcomma .nil <| .cons hstring .nil <|
      .cons (.mark (c := ')') rfl) .nil <| .cons (.mark (c := ';') rfl) .nil .nil
  have hwritten : Lexeme.AllSame [.entityName 1, .equals, .keyword "A", .leftParen,
      .real (Cut.realValue true "0" [] none), .comma, .integer (-7), .comma, .string "it's",
      .rightParen, .semicolon]
      [.entityName 1, .equals, .keyword "A", .leftParen, .real ⟨false, 0, by decide⟩, .comma,
        .integer (-7), .comma, .string "it's", .rightParen, .semicolon] :=
    .cons rfl <| .cons rfl <| .cons rfl <| .cons rfl <| .cons rfl <| .cons rfl <| .cons rfl <|
      .cons rfl <| .cons rfl <| .cons rfl <| .cons rfl .nil
  exact @ofText_laid
    ⟨some 1, .simple ⟨"A", [.real ⟨false, 0, by decide⟩, .integer (-7), .string "it's"]⟩, none,
      none⟩
    ⟨by decide, ⟨trivial, trivial, trivial, trivial⟩, by decide⟩ _ _ hlead _ hwritten hlaid

end Record

end Part21
