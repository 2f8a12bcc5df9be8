import Part21.Proofs.Exchange.Parameters

set_option autoImplicit false

/-!
# Reading records

A record is read from the tokens that spell it and from no others, whatever stands behind them
(`Record.exact_read`).  A row of instances is read up to the first token that names no instance;
behind each of them a token has to come that can follow there
(`Reader.instances_of_spellsInstances`).
-/

namespace Part21

namespace Reader

/-! ## What can follow -/

/-- The class of the next token. -/
def next : List Token → Terminal
  | [] => .endOfInput
  | t :: _ => .lexeme t.kind

theorem follow_eq_ok {anywhere here : List Terminal} {ts : List Token} :
    follow anywhere here ts = .ok () ↔ next ts ∈ anywhere ∧ next ts ∈ here := by
  have hnext : follow anywhere here ts =
      if anywhere.contains (next ts) then
        if here.contains (next ts) then .ok () else .error ⟨ts, here⟩
      else .error ⟨ts, anywhere⟩ := by
    cases ts <;> rfl
  rw [hnext]
  simp only [List.contains_iff_mem]
  split
  · rename_i hanywhere
    split
    · rename_i hhere
      exact iff_of_true rfl ⟨hanywhere, hhere⟩
    · rename_i hhere
      exact iff_of_false (by simp) fun h => hhere h.2
  · rename_i hanywhere
    exact iff_of_false (by simp) fun h => hanywhere h.1

theorem next_cons {t : Token} {l : Lexeme} (ht : t.lexeme = l) (rest : List Token) :
    next (t :: rest) = .lexeme l.kind := congrArg Terminal.lexeme (congrArg Lexeme.kind ht)

theorem next_eq_lexeme {ts : List Token} {k : LexemeKind} (h : next ts = .lexeme k) :
    ∃ t rest, ts = t :: rest ∧ t.kind = k := by
  cases ts with
  | nil => cases h
  | cons t rest => exact ⟨t, rest, rfl, Terminal.lexeme.inj h⟩

/-- A simple record ends with a semicolon. -/
theorem endOfSimple_eq_ok {ts rest : List Token} :
    endOfSimple ts = .ok rest ↔ ∃ t, ts = t :: rest ∧ t.lexeme = .semicolon := by
  have hfollow : follow behindGroup (kinds [.semicolon]) ts = .ok () ↔
      next ts = .lexeme .semicolon := by
    rw [follow_eq_ok]
    simp +contextual [behindGroup, kinds]
  unfold endOfSimple
  constructor
  · intro h
    split at h
    · cases h
    · rename_i hok
      cases h
      obtain ⟨t, rest, rfl, ht⟩ := next_eq_lexeme (hfollow.mp hok)
      exact ⟨t, rfl, lexeme_eq_of_kind (m := .semicolon) rfl ht⟩
  · rintro ⟨t, rfl, ht⟩
    rw [hfollow.mpr (next_cons ht rest)]
    rfl

/-! ## Parts -/

/-- Tokens spell parts, one at least, and the parenthesis that closes them. -/
structure SpellsParts (groups : List Group) (ts : List Token) : Prop where
  some : groups ≠ []
  spellable : ∀ part ∈ groups, part.IsSpellable
  lexemes : ts.map Token.lexeme = groups.flatMap Group.lexemes ++ [.rightParen]

theorem SpellsGroup.cons {name : Text} {part : Group} {t : Token} {used : List Token}
    (h : SpellsGroup name part used) (ht : t.lexeme = .keyword name) :
    part.IsSpellable ∧ (t :: used).map Token.lexeme = part.lexemes :=
  ⟨h.spellable, by rw [List.map_cons, ht, h.lexemes]⟩

/-- Tokens that spell a group begin with its keyword. -/
theorem spellsGroup_of_lexemes {g : Group} {ts : List Token} (hg : g.IsSpellable)
    (hts : ts.map Token.lexeme = g.lexemes) :
    ∃ t used, ts = t :: used ∧ t.lexeme = .keyword g.keyword ∧ SpellsGroup g.keyword g used := by
  obtain ⟨t, used, rfl, ht, hused⟩ := List.map_eq_cons_iff.mp hts
  exact ⟨t, used, rfl, ht, rfl, hg, by rw [hused]; rfl⟩

/-- What is read as parts is spelled by tokens. -/
theorem spellsParts_of_parts {before : List Group} {ts : List Token} {groups : List Group}
    {rest : List Token} (h : parts before ts = .ok (groups, rest)) :
    ∃ used more, ts = used ++ rest ∧ groups = before.reverse ++ more ∧ SpellsParts more used := by
  fun_induction parts before ts
  all_goals first | cases h; done | skip
  case case5 t inside name ht part close more _ hclose hgroup _ =>
    cases h
    obtain ⟨used, rfl, hspells⟩ := (exact_group name _ _ _).mp hgroup
    obtain ⟨hpart, hlexemes⟩ := hspells.cons ht
    refine ⟨t :: used ++ [close], [part], by simp, by simp, by simp, by simpa using hpart, ?_⟩
    rw [List.map_append, hlexemes, List.map_singleton, List.flatMap_singleton,
      lexeme_eq_of_kind (m := .rightParen) rfl hclose]
  case case6 t inside name ht part close behind _ _ hgroup _ ih =>
    obtain ⟨more, others, hmore, rfl, hothers⟩ := ih h
    obtain ⟨used, rfl, hspells⟩ := (exact_group name _ _ _).mp hgroup
    obtain ⟨hpart, hlexemes⟩ := hspells.cons ht
    refine ⟨t :: used ++ more, part :: others, by simp [hmore], by simp, by simp,
      List.forall_mem_cons.mpr ⟨hpart, hothers.spellable⟩, ?_⟩
    rw [List.map_append, hlexemes, hothers.lexemes, List.flatMap_cons, List.append_assoc]

/-- Behind the group of a part comes the closing parenthesis or another part. -/
theorem parts_cons {t next : Token} {name : Text} (ht : t.lexeme = .keyword name)
    {inside more : List Token} {part : Group}
    (hgroup : group name inside = .ok (part, next :: more))
    (hnext : next.kind = .keyword ∨ next.kind = .rightParen) (before : List Group) :
    parts before (t :: inside) =
      if next.kind = .rightParen then .ok ((part :: before).reverse, more)
      else parts (part :: before) (next :: more) := by
  have hfollow : follow behindGroup (kinds [.keyword, .rightParen]) (next :: more) = .ok () := by
    rw [follow_eq_ok]
    rcases hnext with h | h <;> simp [Reader.next, h, behindGroup, kinds]
  rw [parts.eq_def]
  dsimp only
  split
  · rename_i own hown
    obtain rfl : name = own := Lexeme.keyword.inj (ht.symm.trans hown)
    split
    · rename_i stop hstop
      rw [hgroup] at hstop
      cases hstop
    · rename_i hread
      rw [hgroup] at hread
      cases hread
      rw [hfollow]
  · rename_i hother
    exact absurd ht (hother name)

/-- Tokens that spell parts are read so. -/
theorem parts_of_spellsParts {groups before : List Group} {used : List Token}
    (h : SpellsParts groups used) (rest : List Token) :
    parts before (used ++ rest) = .ok (before.reverse ++ groups, rest) := by
  induction groups generalizing before used with
  | nil => exact absurd rfl h.some
  | cons part others ih =>
    obtain ⟨hpart, hothers⟩ := List.forall_mem_cons.mp h.spellable
    have hused := h.lexemes
    rw [List.flatMap_cons, List.append_assoc] at hused
    obtain ⟨own, behind, rfl, hown, hbehind⟩ := List.map_eq_append_iff.mp hused
    obtain ⟨t, inside, rfl, ht, hgroup⟩ := spellsGroup_of_lexemes hpart hown
    have hread := (exact_group part.keyword _ part (behind ++ rest)).mpr ⟨inside, rfl, hgroup⟩
    rw [List.append_assoc, List.cons_append]
    cases others with
    | nil =>
      obtain ⟨close, rfl, hclose⟩ := List.map_eq_singleton_iff.mp hbehind
      have hkind : close.kind = .rightParen := congrArg Lexeme.kind hclose
      rw [parts_cons ht hread (.inr hkind), if_pos hkind, List.reverse_cons]
      rfl
    | cons second others =>
      obtain ⟨next, more, rfl, hnext, -⟩ := List.map_eq_cons_iff.mp hbehind
      have hkind : next.kind = .keyword := congrArg Lexeme.kind hnext
      have hbehind : SpellsParts (second :: others) (next :: more) := ⟨by simp, hothers, hbehind⟩
      rw [parts_cons ht hread (.inl hkind), if_neg (by rw [hkind]; simp)]
      refine (ih hbehind).trans ?_
      rw [List.reverse_cons, List.append_assoc]
      rfl

end Reader

/-! ## Records -/

namespace Record

open Reader

/-- Tokens that spell a named record: the name, an equals sign, the body and a semicolon. -/
theorem spelledBy_named {id : Nat} {name equals semicolon : Token} {body : Body}
    {used : List Token} (hname : name.lexeme = .entityName id) (hequals : equals.lexeme = .equals)
    (hbody : body.IsSpellable) (hused : used.map Token.lexeme = body.lexemes)
    (hsemicolon : semicolon.lexeme = .semicolon) :
    SpelledBy ⟨some id, body, some name.offset, some name.line⟩
      (name :: equals :: (used ++ [semicolon])) where
  spellable := by
    refine ⟨?_, hbody, fun _ => rfl⟩
    rintro i hi
    cases hi
    exact Int.natCast_nonneg id
  lexemes := by
    simp [lexemes, nameLexemes, hname, hequals, hused, hsemicolon]
  placed := by
    rintro first hfirst
    cases hfirst
    exact ⟨rfl, rfl⟩

/-- Tokens that spell a record without name: a group and a semicolon. -/
theorem spelledBy_unnamed {start semicolon : Token} {g : Group} {used : List Token}
    (hg : g.IsSpellable) (hused : (start :: used).map Token.lexeme = g.lexemes)
    (hsemicolon : semicolon.lexeme = .semicolon) :
    SpelledBy ⟨none, .simple g, some start.offset, some start.line⟩
      (start :: (used ++ [semicolon])) where
  spellable := ⟨by simp, hg, by simp [Body.isComplex]⟩
  lexemes := by
    rw [← List.cons_append, List.map_append, hused, List.map_singleton, hsemicolon]
    rfl
  placed := by
    rintro first hfirst
    cases hfirst
    exact ⟨rfl, rfl⟩

/-- There are no other tokens that spell a named record. -/
theorem SpelledBy.of_named {r : Record} {i : Int} {ts : List Token} (h : r.SpelledBy ts)
    (hi : r.id = some i) :
    ∃ name equals used semicolon, ts = name :: equals :: (used ++ [semicolon]) ∧
      name.lexeme = .entityName i.toNat ∧ equals.lexeme = .equals ∧
      used.map Token.lexeme = r.body.lexemes ∧ semicolon.lexeme = .semicolon ∧
      r = ⟨some (i.toNat : Int), r.body, some name.offset, some name.line⟩ := by
  obtain ⟨hspellable, hlexemes, hplaced⟩ := h
  rw [Record.lexemes, hi] at hlexemes
  obtain ⟨start, last, rfl, hstart, hlast⟩ := List.map_eq_append_iff.mp hlexemes
  obtain ⟨semicolon, rfl, hsemicolon⟩ := List.map_eq_singleton_iff.mp hlast
  obtain ⟨name, behind, rfl, hname, hbehind⟩ := List.map_eq_cons_iff.mp hstart
  obtain ⟨equals, used, rfl, hequals, hused⟩ := List.map_eq_cons_iff.mp hbehind
  obtain ⟨hoffset, hline⟩ := hplaced name rfl
  refine ⟨name, equals, used, semicolon, rfl, hname, hequals, hused, hsemicolon, ?_⟩
  rw [Int.toNat_of_nonneg (hspellable.name i hi), ← hi, ← hoffset, ← hline]

/-- Nor one without name. -/
theorem SpelledBy.of_unnamed {r : Record} {ts : List Token} (h : r.SpelledBy ts)
    (hnone : r.id = none) :
    ∃ g start used semicolon, ts = start :: (used ++ [semicolon]) ∧
      start.lexeme = .keyword g.keyword ∧ SpellsGroup g.keyword g used ∧
      semicolon.lexeme = .semicolon ∧
      r = ⟨none, .simple g, some start.offset, some start.line⟩ := by
  obtain ⟨hspellable, hlexemes, hplaced⟩ := h
  obtain ⟨id, body, offset, line⟩ := r
  cases hnone
  cases body with
  | complex first others loose => cases hspellable.named rfl
  | simple g =>
    obtain ⟨inside, last, rfl, hinside, hlast⟩ := List.map_eq_append_iff.mp hlexemes
    obtain ⟨semicolon, rfl, hsemicolon⟩ := List.map_eq_singleton_iff.mp hlast
    obtain ⟨start, used, rfl, hstart, hused⟩ := spellsGroup_of_lexemes hspellable.body hinside
    obtain ⟨hoffset, hline⟩ := hplaced start rfl
    refine ⟨g, start, used, semicolon, rfl, hstart, hused, hsemicolon, ?_⟩
    rw [← hoffset, ← hline]

/-- The record that is read behind the name of an instance is spelled by the name and the tokens
that are used up. -/
theorem spelledBy_of_namedRecord {id : Nat} {name : Token} (hname : name.lexeme = .entityName id)
    {ts rest : List Token} {r : Record} (h : namedRecord id name ts = .ok (r, rest)) :
    ∃ used, ts = used ++ rest ∧ r.SpelledBy (name :: used) ∧ r.id.isSome = true := by
  unfold namedRecord at h
  split at h
  · cases h
  · cases h
  · rename_i t more hrequire
    obtain ⟨equals, rfl, hequals⟩ := lexeme_of_require (m := .equals) rfl rfl hrequire
    split at h
    · rename_i keyword ht
      split at h
      · cases h
      · rename_i g behind hgroup
        split at h
        · cases h
        · rename_i after hend
          cases h
          obtain ⟨used, rfl, hspells⟩ := (exact_group keyword _ _ _).mp hgroup
          obtain ⟨semicolon, rfl, hsemicolon⟩ := endOfSimple_eq_ok.mp hend
          obtain ⟨hg, hlexemes⟩ := hspells.cons ht
          have hbody : (Body.simple g).IsSpellable := hg
          exact ⟨equals :: (t :: used ++ [semicolon]), by simp,
            spelledBy_named hname hequals hbody hlexemes hsemicolon, rfl⟩
    · rename_i ht
      split at h
      · cases h
      · cases h
      · rename_i first others behind hparts
        split at h
        · cases h
        · rename_i after hend
          cases h
          obtain ⟨used, groups, rfl, hgroups, hspells⟩ := spellsParts_of_parts hparts
          obtain rfl : first :: others = groups := hgroups
          obtain ⟨semicolon, rfl, hsemicolon⟩ := lexeme_of_require (m := .semicolon) rfl rfl hend
          have hused : (t :: used).map Token.lexeme = (Body.complex first others []).lexemes := by
            rw [List.map_cons, ht, hspells.lexemes]
            rfl
          exact ⟨equals :: (t :: used ++ [semicolon]), by simp,
            spelledBy_named hname hequals ⟨hspells.spellable, rfl⟩ hused hsemicolon, rfl⟩
    · cases h

/-- Tokens behind the name of an instance that spell a record with it are read as that record. -/
theorem namedRecord_of_spelledBy {r : Record} {id : Int} (hid : r.id = some id) {name : Token}
    {used : List Token} (h : r.SpelledBy (name :: used)) (rest : List Token) :
    namedRecord id.toNat name (used ++ rest) = .ok (r, rest) := by
  obtain ⟨name, equals, inside, semicolon, hts, -, hequals, hinside, hsemicolon, hr⟩ :=
    h.of_named hid
  have hbody := h.spellable.body
  cases hts
  rw [hr]
  unfold namedRecord
  rw [List.cons_append, require_of_lexeme (k := .equals) hequals rfl, List.append_assoc]
  generalize r.body = body at hinside hbody ⊢
  cases body with
  | simple g =>
    obtain ⟨t, row, rfl, ht, hrow⟩ := spellsGroup_of_lexemes hbody hinside
    have hgroup := (exact_group g.keyword _ g ([semicolon] ++ rest)).mpr ⟨row, rfl, hrow⟩
    rw [List.cons_append]
    dsimp only
    rw [ht]
    dsimp only
    rw [hgroup]
    dsimp only
    rw [List.singleton_append, endOfSimple_eq_ok.mpr ⟨semicolon, rfl, hsemicolon⟩]
  | complex first others loose =>
    obtain ⟨hparts, rfl⟩ := hbody
    obtain ⟨t, row, rfl, ht, hrow⟩ := List.map_eq_cons_iff.mp hinside
    have hspells : SpellsParts (first :: others) row := ⟨by simp, hparts, hrow⟩
    rw [List.cons_append]
    dsimp only
    rw [ht]
    dsimp only
    rw [parts_of_spellsParts hspells]
    dsimp only [List.reverse_nil, List.nil_append]
    rw [List.singleton_append, require_of_lexeme (k := .semicolon) hsemicolon rfl]

/-- The record that is read behind a keyword is spelled by the keyword and the tokens that are used
up. -/
theorem spelledBy_of_unnamedRecord {keyword : Text} {start : Token}
    (hstart : start.lexeme = .keyword keyword) {ts rest : List Token} {r : Record}
    (h : unnamedRecord keyword start ts = .ok (r, rest)) :
    ∃ used, ts = used ++ rest ∧ r.SpelledBy (start :: used) ∧ r.id = none := by
  unfold unnamedRecord at h
  split at h
  · cases h
  · rename_i g behind hgroup
    split at h
    · cases h
    · rename_i more hend
      cases h
      obtain ⟨used, rfl, hspells⟩ := (exact_group keyword _ _ _).mp hgroup
      obtain ⟨semicolon, rfl, hsemicolon⟩ := endOfSimple_eq_ok.mp hend
      obtain ⟨hg, hlexemes⟩ := hspells.cons hstart
      exact ⟨used ++ [semicolon], by simp, spelledBy_unnamed hg hlexemes hsemicolon, rfl⟩

/-- Tokens behind a keyword that spell a record without name are read as that record. -/
theorem unnamedRecord_of_spelledBy {r : Record} (hid : r.id = none) {start : Token}
    {used : List Token} (h : r.SpelledBy (start :: used)) (rest : List Token) :
    ∃ keyword, start.lexeme = .keyword keyword ∧
      unnamedRecord keyword start (used ++ rest) = .ok (r, rest) := by
  obtain ⟨g, start, inside, semicolon, hts, hstart, hinside, hsemicolon, rfl⟩ := h.of_unnamed hid
  cases hts
  refine ⟨g.keyword, hstart, ?_⟩
  have hgroup := (exact_group g.keyword _ g ([semicolon] ++ rest)).mpr ⟨inside, rfl, hinside⟩
  unfold unnamedRecord
  rw [List.append_assoc, hgroup]
  dsimp only
  rw [List.singleton_append, endOfSimple_eq_ok.mpr ⟨semicolon, rfl, hsemicolon⟩]

/-- The reader of records is exact. -/
theorem exact_read : Exact read SpelledBy := by
  intro ts r rest
  constructor
  · intro h
    unfold read at h
    split at h
    · cases h
    · rename_i t more
      split at h
      · rename_i id ht
        obtain ⟨used, rfl, hspelled, _⟩ := spelledBy_of_namedRecord ht h
        exact ⟨t :: used, rfl, hspelled⟩
      · rename_i keyword ht
        obtain ⟨used, rfl, hspelled, _⟩ := spelledBy_of_unnamedRecord ht h
        exact ⟨t :: used, rfl, hspelled⟩
      · cases h
  · rintro ⟨used, rfl, hspelled⟩
    cases hid : r.id with
    | some id =>
      obtain ⟨name, equals, inside, semicolon, rfl, hname, _⟩ := hspelled.of_named hid
      rw [List.cons_append, read, hname]
      exact namedRecord_of_spelledBy hid hspelled rest
    | none =>
      obtain ⟨g, start, inside, semicolon, rfl, _⟩ := hspelled.of_unnamed hid
      obtain ⟨keyword, hstart, hread⟩ := unnamedRecord_of_spelledBy hid hspelled rest
      rw [List.cons_append, read, hstart]
      exact hread

end Record

/-! ## Rows of instances -/

namespace Reader

open Record

/-- Tokens spell instances, which are records with names, one after another. -/
structure SpellsInstances (records : List Record) (ts : List Token) : Prop where
  spelled : SpelledInTurn records ts
  named : ∀ r ∈ records, r.id.isSome = true

namespace SpellsInstances

theorem nil : SpellsInstances [] [] := ⟨.nil, by simp⟩

theorem cons {r : Record} {rest : List Record} {ts more : List Token} (hr : r.SpelledBy ts)
    (hname : r.id.isSome = true) (h : SpellsInstances rest more) :
    SpellsInstances (r :: rest) (ts ++ more) :=
  ⟨.cons hr h.spelled, List.forall_mem_cons.mpr ⟨hname, h.named⟩⟩

/-- What comes next, where instances come if there are any. -/
theorem next_append {records : List Record} {used : List Token}
    (h : SpellsInstances records used) (rest : List Token) :
    next (used ++ rest) = if records = [] then next rest else .lexeme .entityName := by
  obtain ⟨hspelled, hnamed⟩ := h
  cases hspelled with
  | nil => rfl
  | @cons r others ts more hr hothers =>
    obtain ⟨i, hi⟩ := Option.isSome_iff_exists.mp (hnamed r List.mem_cons_self)
    obtain ⟨name, equals, inside, semicolon, rfl, hname, _⟩ := hr.of_named hi
    rw [if_neg (by simp)]
    exact next_cons hname _

end SpellsInstances

variable {anywhere here : List Terminal}

theorem entityName_of_kind {l : Lexeme} (h : l.kind = .entityName) : ∃ id, l = .entityName id := by
  cases l <;> cases h
  exact ⟨_, rfl⟩

/-- Instances go on behind one that is read, if the next token can follow. -/
theorem instances_cons {t : Token} {id : Nat} (ht : t.lexeme = .entityName id)
    {inside more : List Token} {r : Record} (hread : namedRecord id t inside = .ok (r, more))
    (hfollow : follow anywhere here more = .ok ()) (before : List Record) :
    instances anywhere here before (t :: inside) = instances anywhere here (r :: before) more := by
  rw [instances.eq_def]
  dsimp only
  split
  · rename_i own hown
    obtain rfl : id = own := Lexeme.entityName.inj (ht.symm.trans hown)
    split
    · rename_i stop hstop
      rw [hread] at hstop
      cases hstop
    · rename_i hsame
      rw [hread] at hsame
      cases hsame
      rw [hfollow]
  · rename_i hother
    exact absurd ht (hother id)

/-- Instances are read up to a token that names none. -/
theorem instances_of_next {ts : List Token} (hnext : next ts ≠ .lexeme .entityName)
    (before : List Record) :
    instances anywhere here before ts = .ok (before.reverse, ts) := by
  cases ts with
  | nil => rw [instances]
  | cons t rest =>
    rw [instances]
    split
    · rename_i id ht
      exact absurd (next_cons ht rest) hnext
    · rfl

/-- What is read as a row of instances is spelled by tokens, and it was followed by what can
follow. -/
theorem spellsInstances_of_instances {before records : List Record} {ts rest : List Token}
    (h : instances anywhere here before ts = .ok (records, rest)) :
    ∃ used more, ts = used ++ rest ∧ records = before.reverse ++ more ∧
      SpellsInstances more used ∧ next rest ≠ .lexeme .entityName ∧
      (more ≠ [] → next rest ∈ anywhere ∧ next rest ∈ here) := by
  fun_induction instances anywhere here before ts
  all_goals first | cases h; done | skip
  case case1 before =>
    cases h
    exact ⟨[], [], rfl, by simp, .nil, by simp [next], by simp⟩
  case case4 before t inside id ht r behind hread hfollow ih =>
    obtain ⟨used, more, rfl, rfl, hmore, hnext, hbehind⟩ := ih h
    obtain ⟨own, rfl, hr, hname⟩ := spelledBy_of_namedRecord ht hread
    refine ⟨(t :: own) ++ used, r :: more, by simp, by simp, .cons hr hname hmore, hnext, ?_⟩
    intro _
    rw [follow_eq_ok, hmore.next_append] at hfollow
    split at hfollow
    · exact hfollow
    · rename_i hsome
      exact hbehind hsome
  case case5 before t inside ht =>
    cases h
    refine ⟨[], [], rfl, by simp, .nil, fun hnext => ?_, by simp⟩
    obtain ⟨id, hid⟩ := entityName_of_kind (Terminal.lexeme.inj hnext)
    exact ht id hid

/-- Tokens that spell instances are read so, where what comes next can follow and names none. -/
theorem instances_of_spellsInstances (hmore : .lexeme .entityName ∈ anywhere ∧
      Terminal.lexeme .entityName ∈ here) {records before : List Record} {used rest : List Token}
    (h : SpellsInstances records used) (hnext : next rest ≠ .lexeme .entityName)
    (hfollow : records ≠ [] → next rest ∈ anywhere ∧ next rest ∈ here) :
    instances anywhere here before (used ++ rest) = .ok (before.reverse ++ records, rest) := by
  obtain ⟨hspelled, hnamed⟩ := h
  induction hspelled generalizing before with
  | nil => rw [List.nil_append, instances_of_next hnext, List.append_nil]
  | @cons r others ts more hr hothers ih =>
    obtain ⟨hname, hnames⟩ := List.forall_mem_cons.mp hnamed
    obtain ⟨i, hi⟩ := Option.isSome_iff_exists.mp hname
    obtain ⟨name, equals, inside, semicolon, rfl, hlexeme, _⟩ := hr.of_named hi
    have hread := namedRecord_of_spelledBy hi hr (more ++ rest)
    have hbehind : follow anywhere here (more ++ rest) = .ok () := by
      rw [follow_eq_ok, SpellsInstances.next_append ⟨hothers, hnames⟩]
      split
      · exact hfollow (by simp)
      · exact hmore
    rw [List.append_assoc, List.cons_append, instances_cons hlexeme hread hbehind,
      ih (fun _ => hfollow (by simp)) hnames, List.reverse_cons, List.append_assoc]
    rfl

end Reader

end Part21
