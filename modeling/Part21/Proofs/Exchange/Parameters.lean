import Part21.Proofs.Exchange.Spelling

set_option autoImplicit false

/-!
# Reading parameters

A reader is exact if it answers a value, and leaves a rest, where the tokens in front of the rest
spell the value and only there (`Reader.Exact`).  The reader of parameters is exact.

It is sound because at any time the items read so far, what is open around them and the phase of
the reader have a spelling of their own, and each token is appended to it (`Reader.soFar`).  It is
complete by induction on the parameters that are spelled, whatever stands behind them.  The main
statement is `Reader.exact_parameters`.
-/

namespace Part21

namespace Reader

/-- The reader answers those values that tokens spell, and uses up these tokens. -/
def Exact {α : Type} (read : List Token → Answer α) (spells : α → List Token → Prop) : Prop :=
  ∀ ts value rest, read ts = .ok (value, rest) ↔ ∃ used, ts = used ++ rest ∧ spells value used

/-! ## What has been read so far -/

/-- The lexemes of the items read so far, the last one first, each with a comma behind it. -/
def itemLexemes (items : List Parameter) : List Lexeme :=
  items.reverse.flatMap fun item => item.lexemes ++ [.comma]

namespace Frame

/-- The lexemes that have opened a frame, and those of the items in it. -/
def lexemes : Frame → List Lexeme
  | row items => .leftParen :: itemLexemes items
  | typed keyword => [.keyword keyword, .leftParen]

/-- Lexemes spell the items. -/
def IsSpellable : Frame → Prop
  | row items => Parameter.AllSpellable items
  | typed _ => True

end Frame

namespace Phase

/-- The lexemes read since the last item or the last opening. -/
def lexemes : Phase → List Lexeme
  | opened => []
  | wanted => []
  | named keyword => [.keyword keyword]
  | filled value => value.lexemes

/-- Lexemes spell the last parameter. -/
def IsSpellable : Phase → Prop
  | filled value => value.IsSpellable
  | _ => True

end Phase

/-- The lexemes read so far. -/
def soFar (items : List Parameter) (frames : List Frame) (phase : Phase) : List Lexeme :=
  itemLexemes items ++ frames.reverse.flatMap Frame.lexemes ++ phase.lexemes

/-- What the reader may have come to: everything read so far is spelled by lexemes, and a group
that was just opened is a row without items. -/
structure Legal (items : List Parameter) (frames : List Frame) (phase : Phase) : Prop where
  done : Parameter.AllSpellable items
  around : ∀ frame ∈ frames, frame.IsSpellable
  last : phase.IsSpellable
  fresh : phase = .opened → (frames = [] ∧ items = []) ∨ ∃ outer, frames = .row [] :: outer

theorem itemLexemes_cons (value : Parameter) (items : List Parameter) :
    itemLexemes (value :: items) = itemLexemes items ++ value.lexemes ++ [.comma] := by
  simp [itemLexemes]

theorem rowLexemes_reverse (value : Parameter) (items : List Parameter) :
    Parameter.rowLexemes (items.reverse ++ [value]) = itemLexemes items ++ value.lexemes := by
  rw [Parameter.rowLexemes_concat, itemLexemes]

theorem lexemes_of_literal? {l : Lexeme} {value : Parameter} (h : literal? l = some value) :
    value.lexemes = [l] ∧ value.IsSpellable := by
  cases l <;> cases h <;> simp [Parameter.lexemes, Parameter.IsSpellable]

/-- The tokens up to the rest complete what has been read so far to the spelling of a row and a
closing parenthesis. -/
def Completes (before : List Lexeme) (ts : List Token) (values : List Parameter)
    (rest : List Token) : Prop :=
  Parameter.AllSpellable values ∧ ∃ used, ts = used ++ rest ∧
    before ++ used.map Token.lexeme = Parameter.rowLexemes values ++ [.rightParen]

theorem Completes.cons {before after : List Lexeme} {t : Token} {ts rest : List Token}
    {values : List Parameter} (h : Completes after ts values rest)
    (hstep : after = before ++ [t.lexeme]) : Completes before (t :: ts) values rest := by
  obtain ⟨hvalues, used, rfl, hused⟩ := h
  subst hstep
  refine ⟨hvalues, t :: used, rfl, ?_⟩
  rw [List.map_cons, ← hused, List.append_assoc]
  rfl

theorem Completes.close {before : List Lexeme} {t : Token} {rest : List Token}
    {values : List Parameter} (hvalues : Parameter.AllSpellable values)
    (hbefore : before = Parameter.rowLexemes values) (ht : t.lexeme = .rightParen) :
    Completes before (t :: rest) values rest :=
  ⟨hvalues, [t], rfl, by rw [hbefore, List.map_singleton, ht]⟩

theorem allSpellable_reverse {items : List Parameter} (h : Parameter.AllSpellable items) :
    Parameter.AllSpellable items.reverse := by
  rw [Parameter.allSpellable_iff] at h ⊢
  exact fun item hmem => h item (List.mem_reverse.mp hmem)

/-! ## Soundness -/

/-- What the reader of parameters answers is spelled by the tokens read so far and those that it
uses up. -/
theorem completes_of_parameters {items : List Parameter} {frames : List Frame} {phase : Phase}
    {ts : List Token} {values : List Parameter} {rest : List Token}
    (hlegal : Legal items frames phase)
    (h : parameters items frames phase ts = .ok (values, rest)) :
    Completes (soFar items frames phase) ts values rest := by
  obtain ⟨hitems, hframes, hlast, hfresh⟩ := hlegal
  fun_induction parameters items frames phase ts
  all_goals first | cases h; done | skip
  -- the parenthesis of a typed value
  case case2 items frames t more keyword ht ih =>
    refine (ih h hitems (List.forall_mem_cons.mpr ⟨trivial, hframes⟩) trivial (by simp)).cons ?_
    simp [soFar, Frame.lexemes, Phase.lexemes, ht]
  -- a comma
  case case4 items t more value ht ih =>
    refine (ih h ⟨hlast, hitems⟩ hframes trivial (by simp)).cons ?_
    simp [soFar, itemLexemes_cons, Phase.lexemes, ht]
  case case5 items t more value ht row outer ih =>
    obtain ⟨hrow, houter⟩ := List.forall_mem_cons.mp hframes
    refine (ih h hitems (List.forall_mem_cons.mpr ⟨⟨hlast, hrow⟩, houter⟩) trivial
      (by simp)).cons ?_
    simp [soFar, Frame.lexemes, itemLexemes_cons, Phase.lexemes, ht]
  -- a closing parenthesis
  case case7 items t more value ht =>
    cases h
    refine .close (allSpellable_reverse ⟨hlast, hitems⟩) ?_ ht
    simp [soFar, rowLexemes_reverse, Phase.lexemes]
  case case8 items t more value ht row outer ih =>
    obtain ⟨hrow, houter⟩ := List.forall_mem_cons.mp hframes
    refine (ih h hitems houter (allSpellable_reverse ⟨hlast, hrow⟩) (by simp)).cons ?_
    simp [soFar, Frame.lexemes, Phase.lexemes, Parameter.lexemes, rowLexemes_reverse, ht]
  case case9 items t more value ht keyword outer ih =>
    obtain ⟨_, houter⟩ := List.forall_mem_cons.mp hframes
    refine (ih h hitems houter hlast (by simp)).cons ?_
    simp [soFar, Frame.lexemes, Phase.lexemes, Parameter.lexemes, ht]
  case case11 items t more ht =>
    cases h
    obtain ⟨_, rfl⟩ | ⟨_, hnone⟩ := hfresh rfl
    · exact .close trivial rfl ht
    · cases hnone
  case case12 items t more ht row outer ih =>
    obtain ⟨hrow, houter⟩ := List.forall_mem_cons.mp hframes
    obtain ⟨hnone, _⟩ | ⟨_, hempty⟩ := hfresh rfl
    · cases hnone
    · cases hempty
      refine (ih h hitems houter trivial (by simp)).cons ?_
      simp [soFar, Frame.lexemes, itemLexemes, Phase.lexemes, Parameter.lexemes,
        Parameter.rowLexemes, ht]
  -- the start of a parameter
  case case14 items frames t more ht ih | case18 items frames t more ht ih =>
    refine (ih h hitems (List.forall_mem_cons.mpr ⟨trivial, hframes⟩) trivial
      (fun _ => .inr ⟨_, rfl⟩)).cons ?_
    simp [soFar, Frame.lexemes, itemLexemes, Phase.lexemes, ht]
  case case15 items frames t more name ht ih | case19 items frames t more name ht ih =>
    refine (ih h hitems hframes trivial (by simp)).cons ?_
    simp [soFar, Phase.lexemes, ht]
  case case16 items frames t more value _ _ _ ht ih | case20 items frames t more value _ _ ht ih =>
    obtain ⟨hvalue, hspellable⟩ := lexemes_of_literal? ht
    refine (ih h hitems hframes hspellable (by simp)).cons ?_
    simp [soFar, Phase.lexemes, hvalue]

/-! ## Completeness -/

namespace Phase

/-- A parameter may start in this phase. -/
def Awaits (phase : Phase) : Prop := phase = .opened ∨ phase = .wanted

end Phase

section Steps

variable {phase : Phase} {t : Token} (items : List Parameter) (frames : List Frame)
  (rest : List Token)

theorem parameters_leftParen (hphase : phase.Awaits) (ht : t.lexeme = .leftParen) :
    parameters items frames phase (t :: rest) =
      parameters items (.row [] :: frames) .opened rest := by
  rcases hphase with rfl | rfl <;> simp only [parameters, ht]

theorem parameters_keyword (hphase : phase.Awaits) {name : Text}
    (ht : t.lexeme = .keyword name) :
    parameters items frames phase (t :: rest) = parameters items frames (.named name) rest := by
  rcases hphase with rfl | rfl <;> simp only [parameters, ht]

theorem parameters_named (keyword : Text) (ht : t.lexeme = .leftParen) :
    parameters items frames (.named keyword) (t :: rest) =
      parameters items (.typed keyword :: frames) .wanted rest := by
  rw [parameters, ht]

theorem parameters_literal (hphase : phase.Awaits) {value : Parameter}
    (ht : literal? t.lexeme = some value) :
    parameters items frames phase (t :: rest) = parameters items frames (.filled value) rest := by
  rcases hphase with rfl | rfl <;> rw [parameters.eq_def] <;> dsimp only <;> split
  all_goals first
    | rw [ht]
    | rename_i hlexeme
      rw [hlexeme] at ht
      cases ht

end Steps

/-- A lexeme that spells a parameter alone is read as that parameter. -/
theorem literal?_of_lexemes {value : Parameter} {l : Lexeme} (hvalue : value.IsSpellable)
    (h : value.lexemes = [l]) : literal? l = some value := by
  cases value <;> simp only [Parameter.lexemes, List.cons.injEq, and_true] at h
  case list items => simp at h
  case typed keyword value => simp at h
  case binary unusedBits digits => rw [← h, literal?, Int.toNat_of_nonneg hvalue]
  case reference id => rw [← h, literal?, Int.toNat_of_nonneg hvalue]
  all_goals rw [← h, literal?]

mutual

/-- Tokens that spell a parameter are read as that parameter. -/
theorem parameters_of_lexemes (value : Parameter) (hvalue : value.IsSpellable)
    {ts : List Token} (hts : ts.map Token.lexeme = value.lexemes) {phase : Phase}
    (hphase : phase.Awaits) (items : List Parameter) (frames : List Frame) (rest : List Token) :
    parameters items frames phase (ts ++ rest) = parameters items frames (.filled value) rest := by
  match value with
  | .list [] =>
    obtain ⟨t, more, rfl, ht, hmore⟩ := List.map_eq_cons_iff.mp hts
    obtain ⟨close, rfl, hclose⟩ := List.map_eq_singleton_iff.mp hmore
    rw [List.cons_append, parameters_leftParen items frames _ hphase ht, List.cons_append,
      parameters, hclose]
    rfl
  | .list (first :: others) =>
    rw [Parameter.lexemes, Parameter.rowLexemes] at hts
    obtain ⟨t, more, rfl, ht, hmore⟩ := List.map_eq_cons_iff.mp hts
    obtain ⟨row, last, rfl, hrow, hlast⟩ := List.map_eq_append_iff.mp hmore
    obtain ⟨close, rfl, hclose⟩ := List.map_eq_singleton_iff.mp hlast
    obtain ⟨start, behind, rfl, hstart, hbehind⟩ := List.map_eq_append_iff.mp hrow
    rw [List.cons_append, parameters_leftParen items frames _ hphase ht, List.append_assoc,
      List.append_assoc, parameters_of_lexemes first hvalue.1 hstart (.inl rfl),
      parameters_of_restLexemes others hvalue.2 hbehind hclose]
    rfl
  | .typed keyword value =>
    rw [Parameter.lexemes] at hts
    obtain ⟨t, more, rfl, ht, hmore⟩ := List.map_eq_cons_iff.mp hts
    obtain ⟨paren, inside, rfl, hparen, hinside⟩ := List.map_eq_cons_iff.mp hmore
    obtain ⟨own, last, rfl, hown, hlast⟩ := List.map_eq_append_iff.mp hinside
    obtain ⟨close, rfl, hclose⟩ := List.map_eq_singleton_iff.mp hlast
    rw [List.cons_append, parameters_keyword items frames _ hphase ht, List.cons_append,
      parameters_named items frames _ keyword hparen, List.append_assoc,
      parameters_of_lexemes value hvalue hown (.inr rfl), List.singleton_append, parameters, hclose]
  | .integer _ | .real _ | .string _ | .enumeration _ | .binary _ _ | .reference _ | .unset
  | .inapplicable =>
    obtain ⟨t, more, rfl, ht, hmore⟩ := List.map_eq_cons_iff.mp hts
    obtain rfl := List.map_eq_nil_iff.mp hmore
    exact parameters_literal items frames rest hphase (literal?_of_lexemes hvalue (ht ▸ rfl))

/-- Tokens that spell further items of a list and its closing parenthesis are read so. -/
theorem parameters_of_restLexemes (others : List Parameter)
    (hothers : Parameter.AllSpellable others) {ts : List Token}
    (hts : ts.map Token.lexeme = Parameter.restLexemes others) {close : Token}
    (hclose : close.lexeme = .rightParen) {items row : List Parameter} {outer : List Frame}
    {last : Parameter} {rest : List Token} :
    parameters items (.row row :: outer) (.filled last) (ts ++ ([close] ++ rest)) =
      parameters items outer (.filled (.list (row.reverse ++ last :: others))) rest := by
  match others with
  | [] =>
    obtain rfl := List.map_eq_nil_iff.mp hts
    rw [List.nil_append, List.singleton_append, parameters, hclose, List.reverse_cons]
  | next :: others =>
    rw [Parameter.restLexemes] at hts
    obtain ⟨comma, more, rfl, hcomma, hmore⟩ := List.map_eq_cons_iff.mp hts
    obtain ⟨own, behind, rfl, hown, hbehind⟩ := List.map_eq_append_iff.mp hmore
    rw [List.cons_append, parameters, hcomma]
    dsimp only
    rw [List.append_assoc, parameters_of_lexemes next hothers.1 hown (.inr rfl),
      parameters_of_restLexemes others hothers.2 hbehind hclose, List.reverse_cons,
      List.append_assoc]
    rfl

end

/-- The same of the items of the outermost row, which is then complete. -/
theorem parameters_of_lastLexemes {others : List Parameter}
    (hothers : Parameter.AllSpellable others) {ts : List Token}
    (hts : ts.map Token.lexeme = Parameter.restLexemes others) {close : Token}
    (hclose : close.lexeme = .rightParen) {items : List Parameter} {last : Parameter}
    {rest : List Token} :
    parameters items [] (.filled last) (ts ++ ([close] ++ rest)) =
      .ok (items.reverse ++ last :: others, rest) := by
  induction others generalizing ts items last with
  | nil =>
    obtain rfl := List.map_eq_nil_iff.mp hts
    rw [List.nil_append, List.singleton_append, parameters, hclose, List.reverse_cons]
  | cons next others ih =>
    rw [Parameter.restLexemes] at hts
    obtain ⟨comma, more, rfl, hcomma, hmore⟩ := List.map_eq_cons_iff.mp hts
    obtain ⟨own, behind, rfl, hown, hbehind⟩ := List.map_eq_append_iff.mp hmore
    rw [List.cons_append, parameters, hcomma]
    dsimp only
    rw [List.append_assoc, parameters_of_lexemes next hothers.1 hown (.inr rfl),
      ih hothers.2 hbehind, List.reverse_cons, List.append_assoc]
    rfl

/-! ## The row of a group -/

/-- Tokens spell a row of parameters and the parenthesis that closes it. -/
structure SpellsRow (values : List Parameter) (ts : List Token) : Prop where
  spellable : Parameter.AllSpellable values
  lexemes : ts.map Token.lexeme = Parameter.rowLexemes values ++ [.rightParen]

theorem spellsRow_of_completes {ts : List Token} {values : List Parameter} {rest : List Token}
    (h : Completes [] ts values rest) : ∃ used, ts = used ++ rest ∧ SpellsRow values used := by
  obtain ⟨hvalues, used, hts, hused⟩ := h
  exact ⟨used, hts, hvalues, hused⟩

/-- A row that is not empty is read, be it that an empty one might have come or not. -/
theorem parameters_of_spellsRow {first : Parameter} {others : List Parameter} {ts : List Token}
    (h : SpellsRow (first :: others) ts) {phase : Phase} (hphase : phase.Awaits)
    (rest : List Token) :
    parameters [] [] phase (ts ++ rest) = .ok (first :: others, rest) := by
  have hts := h.lexemes
  rw [Parameter.rowLexemes] at hts
  obtain ⟨row, last, rfl, hrow, hlast⟩ := List.map_eq_append_iff.mp hts
  obtain ⟨close, rfl, hclose⟩ := List.map_eq_singleton_iff.mp hlast
  obtain ⟨start, behind, rfl, hstart, hbehind⟩ := List.map_eq_append_iff.mp hrow
  rw [List.append_assoc, List.append_assoc,
    parameters_of_lexemes first h.spellable.1 hstart hphase,
    parameters_of_lastLexemes h.spellable.2 hbehind hclose]
  rfl

/-- The reader of parameters is exact, where the row may be empty. -/
theorem exact_parameters : Exact (parameters [] [] .opened) SpellsRow := by
  intro ts values rest
  constructor
  · intro h
    have hlegal : Legal [] [] .opened := ⟨trivial, by simp, trivial, fun _ => .inl ⟨rfl, rfl⟩⟩
    exact spellsRow_of_completes (completes_of_parameters hlegal h)
  · rintro ⟨used, rfl, hrow⟩
    cases values with
    | cons first others => exact parameters_of_spellsRow hrow (.inl rfl) rest
    | nil =>
      obtain ⟨close, rfl, hclose⟩ := List.map_eq_singleton_iff.mp hrow.lexemes
      rw [List.singleton_append, parameters, hclose]
      rfl

/-- The reader of parameters is exact, where there has to be one at least. -/
theorem exact_parameters_wanted :
    Exact (parameters [] [] .wanted) fun values ts => values ≠ [] ∧ SpellsRow values ts := by
  intro ts values rest
  constructor
  · intro h
    have hlegal : Legal [] [] .wanted := ⟨trivial, by simp, trivial, by simp⟩
    obtain ⟨used, rfl, hrow⟩ := spellsRow_of_completes (completes_of_parameters hlegal h)
    refine ⟨used, rfl, ?_, hrow⟩
    rintro rfl
    -- Only a closing parenthesis spells no parameters.
    obtain ⟨close, none, rfl, hclose, hnone⟩ := List.map_eq_cons_iff.mp hrow.lexemes
    rw [List.cons_append, parameters.eq_def] at h
    dsimp only at h
    rw [hclose] at h
    cases h
  · rintro ⟨used, rfl, hvalues, hrow⟩
    obtain ⟨first, others, rfl⟩ := List.exists_cons_of_ne_nil hvalues
    exact parameters_of_spellsRow hrow (.inr rfl) rest

/-! ## Groups -/

/-- A lexeme that has only one spelling is known by its class. -/
theorem lexeme_eq_of_kind {l m : Lexeme} (hfixed : m.fixedSpelling.isEmpty = false)
    (h : l.kind = m.kind) : l = m := by
  cases m
  all_goals first
    | (cases l <;> first | rfl | cases h; done)
    | cases hfixed

theorem require_of_lexeme {k : LexemeKind} {t : Token} {m : Lexeme} (ht : t.lexeme = m)
    (hk : m.kind = k) (rest : List Token) : require k (t :: rest) = .ok rest :=
  if_pos ((congrArg Lexeme.kind ht).trans hk)

/-- What is required is there, if it has only one spelling. -/
theorem lexeme_of_require {k : LexemeKind} {m : Lexeme} (hk : m.kind = k)
    (hfixed : m.fixedSpelling.isEmpty = false) {ts rest : List Token}
    (h : require k ts = .ok rest) : ∃ t, ts = t :: rest ∧ t.lexeme = m := by
  unfold require at h
  split at h
  · cases h
  · rename_i t more
    split at h
    · rename_i ht
      cases h
      exact ⟨t, rfl, lexeme_eq_of_kind hfixed (ht.trans hk.symm)⟩
    · cases h

/-- Tokens spell a group but for its keyword. -/
structure SpellsGroup (name : Text) (g : Group) (ts : List Token) : Prop where
  keyword : g.keyword = name
  spellable : g.IsSpellable
  lexemes : .keyword name :: ts.map Token.lexeme = g.lexemes

/-- The reader of groups is exact. -/
theorem exact_group (keyword : Text) : Exact (group keyword) (SpellsGroup keyword) := by
  intro ts g rest
  unfold group
  constructor
  · intro h
    split at h
    · cases h
    · rename_i inside hopen
      obtain ⟨t, rfl, ht⟩ := lexeme_of_require (m := .leftParen) rfl rfl hopen
      split at h
      · cases h
      · rename_i values more hvalues
        cases h
        obtain ⟨used, rfl, hrow⟩ := (exact_parameters _ _ _).mp hvalues
        refine ⟨t :: used, rfl, rfl, hrow.spellable, ?_⟩
        rw [List.map_cons, ht, hrow.lexemes]
        rfl
  · rintro ⟨used, rfl, rfl, hspellable, hused⟩
    rw [Group.lexemes, List.cons_append, List.cons_append, List.cons_inj_right] at hused
    obtain ⟨t, inside, rfl, ht, hinside⟩ := List.map_eq_cons_iff.mp hused
    rw [List.cons_append, require_of_lexeme (k := .leftParen) ht rfl]
    dsimp only
    rw [(exact_parameters _ _ _).mpr ⟨inside, rfl, hspellable, hinside⟩]

end Reader

end Part21
