import Mathlib.Computability.MyhillNerode
import Part21.Exchange.Reading
import Part21.Proofs.Exchange.Grammar

set_option autoImplicit false

/-!
# What can come next

Behind the start of a row of classes, the rows that complete it are a left quotient of a language
(`Phrase.remaining`), and what can come next is what starts one of them (`starts`).  Left quotients
and starts are computed along the equations of the languages.

What can stand behind a phrase anywhere in a derivation is another matter: `Phrase.follows` is read
off the rules.  For parameters, simple records and instances it is computed here, from above by what
all rules preserve (`Phrase.isChain_of_derives`), and from below by derivations.
-/

namespace Part21

open Computability

/-! ## The first class of a row -/

/-- What comes first in the rows of a language: a class, or the end where the empty row is in it. -/
def starts (L : Language LexemeKind) : Set Terminal :=
  {next |
    match next with
    | .lexeme kind => ∃ rest, kind :: rest ∈ L
    | .endOfInput => [] ∈ L}

/-- There is a row in a language. -/
class Live (L : Language LexemeKind) : Prop where
  some : ∃ row, row ∈ L

section Live

variable {L M : Language LexemeKind}

instance : Live 1 := ⟨[], rfl⟩

instance (kind : LexemeKind) : Live {[kind]} := ⟨[kind], rfl⟩

instance [Live L] [Live M] : Live (L * M) := by
  obtain ⟨front, hfront⟩ := Live.some (L := L)
  obtain ⟨behind, hbehind⟩ := Live.some (L := M)
  exact ⟨front ++ behind, Language.append_mem_mul hfront hbehind⟩

instance [Live L] : Live (L + M) := by
  obtain ⟨row, hrow⟩ := Live.some (L := L)
  exact ⟨row, .inl hrow⟩

instance : Live L∗ := ⟨[], Language.nil_mem_kstar L⟩

theorem mem_starts_add {next : Terminal} :
    next ∈ starts (L + M) ↔ next ∈ starts L ∨ next ∈ starts M := by
  cases next with
  | lexeme kind => exact exists_or
  | endOfInput => exact Iff.rfl

theorem mem_starts_one {next : Terminal} : next ∈ starts 1 ↔ next = .endOfInput := by
  cases next with
  | lexeme kind =>
    simp only [reduceCtorEq, iff_false]
    rintro ⟨rest, hrest⟩
    cases hrest
  | endOfInput => simp [starts]

theorem mem_starts_lit {kind : LexemeKind} {next : Terminal} :
    next ∈ starts {[kind]} ↔ next = .lexeme kind := by
  cases next with
  | lexeme other =>
    constructor
    · rintro ⟨rest, hrest⟩
      cases hrest
      rfl
    · rintro ⟨⟩
      exact ⟨[], rfl⟩
  | endOfInput =>
    simp only [reduceCtorEq, iff_false]
    exact Phrase.nil_not_mem_lit kind

theorem mem_starts_mul (hL : [] ∉ L) [Live M] {next : Terminal} :
    next ∈ starts (L * M) ↔ next ∈ starts L := by
  cases next with
  | lexeme kind =>
    constructor
    · rintro ⟨rest, front, hfront, behind, -, hparts⟩
      cases front with
      | nil => exact absurd hfront hL
      | cons first more =>
        obtain ⟨rfl, -⟩ := List.cons.inj hparts
        exact ⟨more, hfront⟩
    · rintro ⟨rest, hrest⟩
      obtain ⟨behind, hbehind⟩ := Live.some (L := M)
      exact ⟨rest ++ behind, Language.append_mem_mul hrest hbehind⟩
  | endOfInput => exact iff_of_false (Phrase.nil_not_mem_mul hL M) hL

theorem mem_starts_lit_mul {kind : LexemeKind} [Live L] {next : Terminal} :
    next ∈ starts ({[kind]} * L) ↔ next = .lexeme kind := by
  rw [mem_starts_mul (Phrase.nil_not_mem_lit kind), mem_starts_lit]

end Live

/-! ## Left quotients -/

section Quotient

variable {L M : Language LexemeKind}

theorem quotient_add (row : List LexemeKind) :
    (L + M).leftQuotient row = L.leftQuotient row + M.leftQuotient row := rfl

theorem quotient_one (kind : LexemeKind) : (1 : Language LexemeKind).leftQuotient [kind] = 0 := by
  ext w
  rw [Language.mem_leftQuotient]
  simp

theorem quotient_mul (hL : [] ∉ L) (kind : LexemeKind) :
    (L * M).leftQuotient [kind] = L.leftQuotient [kind] * M := by
  ext w
  rw [Language.mem_leftQuotient, Language.mem_mul, Language.mem_mul]
  constructor
  · rintro ⟨front, hfront, behind, hbehind, hparts⟩
    cases front with
    | nil => exact absurd hfront hL
    | cons first more =>
      obtain ⟨rfl, rfl⟩ := List.cons.inj hparts
      exact ⟨more, hfront, behind, hbehind, rfl⟩
  · rintro ⟨front, hfront, behind, hbehind, rfl⟩
    exact ⟨kind :: front, hfront, behind, hbehind, rfl⟩

theorem quotient_lit (kind other : LexemeKind) :
    ({[kind]} : Language LexemeKind).leftQuotient [other] = if kind = other then 1 else 0 := by
  ext w
  rw [Language.mem_leftQuotient]
  split
  · rename_i h
    subst h
    exact ⟨fun hw => (List.cons.inj hw).2, fun hw => congrArg (kind :: ·) hw⟩
  · rename_i h
    exact iff_of_false (fun hw => h (List.cons.inj hw).1.symm) (Language.notMem_zero w)

theorem quotient_lit_mul (kind other : LexemeKind) :
    ({[kind]} * L).leftQuotient [other] = if kind = other then L else 0 := by
  rw [quotient_mul (Phrase.nil_not_mem_lit kind), quotient_lit]
  split
  · rw [one_mul]
  · rw [zero_mul]

theorem kstar_mul (L M : Language LexemeKind) : L∗ * M = M + L * (L∗ * M) := by
  conv_lhs => rw [← Language.one_add_self_mul_kstar_eq_kstar, add_mul, one_mul, mul_assoc]

end Quotient

namespace Phrase

/-! ## The start of a phrase -/

instance : Live parameter.language := by
  rw [parameter_eq]
  infer_instance

instance : Live parameterList.language := by
  rw [parameterList_eq]
  infer_instance

instance : Live simpleRecord.language := by
  rw [simpleRecord_eq]
  infer_instance

instance : Live simpleRecords.language := by
  rw [simpleRecords_eq]
  infer_instance

instance : Live entityInstance.language := by
  rw [entityInstance_eq]
  infer_instance

instance : Live headerRecord.language := by
  rw [headerRecord_eq]
  infer_instance

instance : Live dataSection.language := by
  rw [dataSection_eq, dataOpening_eq]
  infer_instance

/-- The classes that are parameters by themselves. -/
def literals : List LexemeKind :=
  [.integer, .real, .string, .enumeration, .binary, .entityName, .dollar, .star]

section Parameter

variable (L : Language LexemeKind)

theorem parameter_mul :
    parameter.language * L =
      {[.integer]} * L + ({[.real]} * L + ({[.string]} * L + ({[.enumeration]} * L +
        ({[.binary]} * L + ({[.entityName]} * L + ({[.dollar]} * L + ({[.star]} * L +
          ({[.leftParen]} * (parameterList.language * ({[.rightParen]} * L) +
            {[.rightParen]} * L) +
              {[.keyword]} * ({[.leftParen]} *
                (parameter.language * ({[.rightParen]} * L)))))))))))  := by
  conv_lhs => rw [parameter_eq]
  simp only [add_mul, mul_add, mul_assoc, add_assoc]

theorem quotient_literal {kind : LexemeKind} (h : kind ∈ literals) :
    (parameter.language * L).leftQuotient [kind] = L := by
  rw [parameter_mul]
  simp only [literals, List.mem_cons, List.not_mem_nil, or_false] at h
  rcases h with rfl | rfl | rfl | rfl | rfl | rfl | rfl | rfl <;>
    simp [-add_eq_sup, quotient_add, quotient_lit_mul]

theorem quotient_leftParen :
    (parameter.language * L).leftQuotient [.leftParen] =
      parameterList.language * ({[.rightParen]} * L) + {[.rightParen]} * L := by
  rw [parameter_mul]
  simp [-add_eq_sup, quotient_add, quotient_lit_mul]

theorem quotient_keyword :
    (parameter.language * L).leftQuotient [.keyword] =
      {[.leftParen]} * (parameter.language * ({[.rightParen]} * L)) := by
  rw [parameter_mul]
  simp [-add_eq_sup, quotient_add, quotient_lit_mul]

theorem mem_starts_parameter [Live L] (next : Terminal) :
    next ∈ starts (parameter.language * L) ↔ next ∈ Reader.kinds Reader.parameterStarts := by
  rw [parameter_mul]
  simp only [mem_starts_add, mem_starts_lit_mul, Reader.kinds, Reader.parameterStarts,
    List.map_cons, List.map_nil, List.mem_cons, List.not_mem_nil, or_false]
  tauto

end Parameter

/-! ## Phrases in a derivation -/

theorem Derives.trans {form middle result : Form} (h : Derives form middle)
    (hmore : Derives middle result) : Derives form result :=
  Relation.ReflTransGen.trans h hmore

/-- A phrase within a form takes one of its forms. -/
theorem derives_form {phrase : Phrase} {form : Form} (h : form ∈ phrase.forms) (u v : Form) :
    Derives (u ++ part phrase :: v) (u ++ (form ++ v)) := by
  have hrule : (grammar exchangeFile).Produces [part phrase] form :=
    ⟨⟨phrase, form⟩, mem_rules.mpr h, .input_output⟩
  exact (hrule.single.append_right v).append_left u

/-- A row of classes takes the place of a phrase that it is derived from. -/
theorem derives_row {phrase : Phrase} {row : List LexemeKind} (h : row ∈ phrase.language)
    (u v : Form) : Derives (u ++ part phrase :: v) (u ++ (row.map word ++ v)) := by
  have hrow : (grammar exchangeFile).Derives [part phrase] (row.map word) := h
  exact (hrow.append_right v).append_left u

/-- A phrase stands between two parts of a form that is derived. -/
def Occurs (start phrase : Phrase) (u v : Form) : Prop :=
  Derives [part start] (u ++ part phrase :: v)

/-- A phrase stands in one of the forms of a phrase that occurs. -/
theorem Occurs.inner {start outer inner : Phrase} {u v a b : Form} (h : Occurs start outer u v)
    (hform : a ++ part inner :: b ∈ outer.forms) : Occurs start inner (u ++ a) (b ++ v) := by
  have hstep := derives_form hform u v
  have hparts : u ++ (a ++ part inner :: b ++ v) = u ++ a ++ part inner :: (b ++ v) := by simp
  rw [hparts] at hstep
  exact h.trans hstep

/-- What stands behind a phrase in some form that is derived: a class, or the end. -/
def follows (start phrase : Phrase) : Set Terminal :=
  {next |
    match next with
    | .lexeme kind => ∃ u v, Occurs start phrase u (word kind :: v)
    | .endOfInput => ∃ u, Occurs start phrase u []}

/-! ## What rules preserve -/

/-- Behind one of some phrases stands one of some symbols, or the end if that is among them. -/
def Allows (inside : List Phrase) (next : List (Option (Symbol LexemeKind Phrase)))
    (a b : Option (Symbol LexemeKind Phrase)) : Prop :=
  (∃ phrase ∈ inside, a = some (part phrase)) → b ∈ next

instance (inside : List Phrase) (next : List (Option (Symbol LexemeKind Phrase)))
    (a b : Option (Symbol LexemeKind Phrase)) : Decidable (Allows inside next a b) :=
  inferInstanceAs (Decidable (_ → _))

/-- The rules of the phrases `among` lead to no others and preserve what stands behind the phrases
`inside`: within a form it is allowed, a form that ends in one of the phrases is a form of one, and
a form of a phrase that may stand behind them begins with a symbol that may. -/
def Preserved (among inside : List Phrase) (next : List (Option (Symbol LexemeKind Phrase))) :
    Prop :=
  ∀ phrase ∈ among, ∀ form ∈ phrase.forms,
    (∀ other ∈ all, part other ∈ form → other ∈ among) ∧
      (form.map some).IsChain (Allows inside next) ∧
      ((∃ last ∈ inside, form.getLast? = some (part last)) → phrase ∈ inside) ∧
      (some (part phrase) ∈ next → ∃ first ∈ form.head?, some first ∈ next)

instance (among inside : List Phrase) (next : List (Option (Symbol LexemeKind Phrase))) :
    Decidable (Preserved among inside next) :=
  inferInstanceAs (Decidable (∀ _ ∈ _, _))

variable {among inside : List Phrase} {next : List (Option (Symbol LexemeKind Phrase))}

theorem Preserved.isChain_form (h : Preserved among inside next) {phrase : Phrase}
    (hphrase : phrase ∈ among) {form u v : Form} (hform : form ∈ phrase.forms)
    (hchain : ((u ++ part phrase :: v).map some ++ [none]).IsChain (Allows inside next)) :
    ((u ++ (form ++ v)).map some ++ [none]).IsChain (Allows inside next) := by
  obtain ⟨-, hwithin, hlast, hfirst⟩ := h phrase hphrase form hform
  simp only [List.map_append, List.map_cons, List.append_assoc, List.cons_append,
    List.isChain_append, List.isChain_cons] at hchain ⊢
  obtain ⟨hfront, ⟨hbehind, hrear⟩, hseam⟩ := hchain
  refine ⟨hfront, ⟨hwithin, hrear, fun a ha b hb => ?_⟩, fun a ha b hb => ?_⟩
  · -- The form ends in one of the phrases: so does what it is a form of.
    rintro ⟨last, hmem, rfl⟩
    have hphrase := hlast ⟨last, hmem, by simpa using ha⟩
    exact hbehind b hb ⟨phrase, hphrase, rfl⟩
  · -- In front of the form stands one of the phrases: what is a form may stand behind it.
    intro hinside
    have hnext := hseam a ha (some (part phrase)) (by simp) hinside
    obtain ⟨first, hmem, hallowed⟩ := hfirst hnext
    cases form with
    | nil => cases hmem
    | cons =>
      cases hmem
      obtain rfl : some first = b := by simpa using hb
      exact hallowed

/-- A form that is derived has no other phrases, and what stands behind the phrases in it is
allowed. -/
theorem isChain_of_derives (h : Preserved among inside next) {start : Phrase} {form : Form}
    (hamong : start ∈ among) (hstart : start ∈ inside → none ∈ next)
    (hform : Derives [part start] form) :
    (∀ phrase, part phrase ∈ form → phrase ∈ among) ∧
      (form.map some ++ [none]).IsChain (Allows inside next) := by
  induction hform with
  | refl =>
    refine ⟨fun phrase hmem => ?_, ?_⟩
    · cases List.mem_singleton.mp hmem
      exact hamong
    · simp only [List.map_cons, List.map_nil, List.cons_append, List.nil_append,
        List.isChain_cons_cons, List.IsChain.singleton, and_true]
      rintro ⟨phrase, hmem, hsame⟩
      cases hsame
      exact hstart hmem
  | tail _ hstep ih =>
    obtain ⟨r, hr, hrewrites⟩ := hstep
    obtain ⟨u, v, rfl, rfl⟩ := hrewrites.exists_parts
    obtain ⟨hparts, hchain⟩ := ih
    have hform := mem_rules.mp hr
    have hinput : r.input ∈ among := hparts r.input (by simp)
    rw [List.append_assoc] at hchain ⊢
    refine ⟨fun phrase hmem => ?_, h.isChain_form hinput hform hchain⟩
    rcases List.mem_append.mp hmem with hmem | hmem
    · exact hparts phrase (by simp [hmem])
    · rcases List.mem_append.mp hmem with hmem | hmem
      · exact (h r.input hinput r.output hform).1 phrase (mem_all phrase) hmem
      · exact hparts phrase (by simp [hmem])

/-- What follows one of the phrases is allowed. -/
theorem mem_of_follows (h : Preserved among inside next) {start phrase : Phrase}
    (hamong : start ∈ among) (hstart : start ∈ inside → none ∈ next) (hphrase : phrase ∈ inside)
    {t : Terminal} (ht : t ∈ follows start phrase) :
    (match t with
      | .lexeme kind => some (word kind)
      | .endOfInput => none) ∈ next := by
  cases t with
  | lexeme kind =>
    obtain ⟨u, v, hform⟩ := ht
    have hchain := (isChain_of_derives h hamong hstart hform).2
    simp only [List.map_append, List.map_cons, List.append_assoc, List.cons_append,
      List.isChain_append, List.isChain_cons_cons] at hchain
    exact hchain.2.1.1 ⟨phrase, hphrase, rfl⟩
  | endOfInput =>
    obtain ⟨u, hform⟩ := ht
    have hchain := (isChain_of_derives h hamong hstart hform).2
    simp only [List.map_append, List.map_cons, List.map_nil, List.append_assoc, List.cons_append,
      List.nil_append, List.isChain_append, List.isChain_cons_cons] at hchain
    exact hchain.2.1.1 ⟨phrase, hphrase, rfl⟩

/-! ## What follows a parameter, a record or an instance -/

/-- The phrases that are read from a text. -/
def readable : List Phrase := [record, dataBlock, exchangeFile]

theorem exists_entityInstance {start : Phrase} (h : start ∈ readable) :
    ∃ u v, Occurs start entityInstance u v := by
  have hself : Occurs start start [] [] := Relation.ReflTransGen.refl
  simp only [readable, List.mem_cons, List.not_mem_nil, or_false] at h
  rcases h with rfl | rfl | rfl
  · exact ⟨_, _, hself.inner (a := []) (b := []) (by decide)⟩
  · have hrow : Occurs dataBlock entityInstances [] [] :=
      hself.inner (a := []) (b := []) (by decide)
    exact ⟨_, _, hrow.inner (a := [part entityInstances]) (b := []) (by decide)⟩
  · have hsections : Occurs exchangeFile dataSections _ _ :=
      hself.inner (a := [word .opening, word .semicolon, part headerSection])
        (b := [word .closing, word .semicolon]) (by decide)
    have hsection : Occurs exchangeFile dataSection _ _ :=
      hsections.inner (a := [part dataSections]) (b := []) (by decide)
    have hrow : Occurs exchangeFile entityInstances _ _ :=
      hsection.inner (a := [part dataOpening]) (b := [word .endSection, word .semicolon])
        (by decide)
    exact ⟨_, _, hrow.inner (a := [part entityInstances]) (b := []) (by decide)⟩

/-- What a phrase begins with stands behind what it stands behind. -/
theorem Occurs.mem_follows {start phrase behind : Phrase} {u v : Form} {kind : LexemeKind}
    (h : Occurs start phrase u (part behind :: v)) (rest : Form)
    (hform : word kind :: rest ∈ behind.forms) :
    .lexeme kind ∈ follows start phrase := by
  refine ⟨u, rest ++ v, ?_⟩
  have hparts : ∀ w : Form, u ++ part phrase :: w = u ++ [part phrase] ++ w := by simp
  rw [Occurs, hparts] at h ⊢
  exact h.trans (derives_form hform _ v)

/-- Behind a simple record stands another one, the end of the parts, or the end of the record. -/
theorem follows_simpleRecord {start : Phrase} (h : start ∈ readable) (next : Terminal) :
    next ∈ follows start simpleRecord ↔ next ∈ Reader.behindGroup := by
  constructor
  · intro hnext
    have houtside : ∀ start ∈ readable, start ∉ [simpleRecord, simpleRecords] := by decide
    have hpreserved : Preserved all [simpleRecord, simpleRecords]
        [some (word .keyword), some (word .rightParen), some (word .semicolon),
          some (part simpleRecord)] := by decide
    have hmem := mem_of_follows hpreserved (mem_all start)
      (fun hinside => absurd hinside (houtside start h)) (by decide) hnext
    cases next with
    | lexeme kind => simpa [Reader.behindGroup, Reader.kinds] using hmem
    | endOfInput => simp at hmem
  · obtain ⟨u, v, hinstance⟩ := exists_entityInstance h
    have hparts : Occurs start simpleRecords _ _ :=
      hinstance.inner (a := [word .entityName, word .equals, word .leftParen])
        (b := [word .rightParen, word .semicolon]) (by decide)
    have hkeyword : .lexeme .keyword ∈ follows start simpleRecord := by
      have hmore : Occurs start simpleRecords _ _ :=
        hparts.inner (a := []) (b := [part simpleRecord]) (by decide)
      have hpair : Occurs start simpleRecord _ _ := hmore.inner (a := []) (b := []) (by decide)
      exact hpair.mem_follows [word .leftParen, word .rightParen] (by decide)
    have hclose : .lexeme .rightParen ∈ follows start simpleRecord :=
      ⟨_, _, hparts.inner (a := []) (b := []) (by decide)⟩
    have hend : .lexeme .semicolon ∈ follows start simpleRecord :=
      ⟨_, _, hinstance.inner (a := [word .entityName, word .equals]) (b := [word .semicolon])
        (by decide)⟩
    simp only [Reader.behindGroup, Reader.kinds, List.map_cons, List.map_nil, List.mem_cons,
      List.not_mem_nil, or_false]
    rintro (rfl | rfl | rfl)
    · exact hkeyword
    · exact hclose
    · exact hend

/-- Behind a parameter stands another one, or the end of what it stands in. -/
theorem follows_parameter {start : Phrase} (h : start ∈ readable) (next : Terminal) :
    next ∈ follows start parameter ↔ next ∈ Reader.kinds [.comma, .rightParen] := by
  constructor
  · intro hnext
    have houtside : ∀ start ∈ readable, start ∉ [parameter, parameterList] := by decide
    have hpreserved : Preserved all [parameter, parameterList]
        [some (word .comma), some (word .rightParen)] := by decide
    have hmem := mem_of_follows hpreserved (mem_all start)
      (fun hinside => absurd hinside (houtside start h)) (by decide) hnext
    cases next with
    | lexeme kind => simpa [Reader.kinds] using hmem
    | endOfInput => simp at hmem
  · obtain ⟨u, v, hinstance⟩ := exists_entityInstance h
    have hrecord : Occurs start simpleRecord _ _ :=
      hinstance.inner (a := [word .entityName, word .equals]) (b := [word .semicolon]) (by decide)
    have hlist : Occurs start parameterList _ _ :=
      hrecord.inner (a := [word .keyword, word .leftParen]) (b := [word .rightParen]) (by decide)
    have hclose : .lexeme .rightParen ∈ follows start parameter :=
      ⟨_, _, hlist.inner (a := []) (b := []) (by decide)⟩
    have hcomma : .lexeme .comma ∈ follows start parameter := by
      have hmore : Occurs start parameterList _ _ :=
        hlist.inner (a := []) (b := [word .comma, part parameter]) (by decide)
      exact ⟨_, _, hmore.inner (a := []) (b := []) (by decide)⟩
    simp only [Reader.kinds, List.map_cons, List.map_nil, List.mem_cons, List.not_mem_nil, or_false]
    rintro (rfl | rfl)
    · exact hcomma
    · exact hclose

/-- Within a section an instance is followed by another one or by the end of the section. -/
theorem Occurs.mem_follows_instance {start : Phrase} {u v : Form}
    (h : Occurs start dataSection u v) :
    .lexeme .endSection ∈ follows start entityInstance ∧
      .lexeme .entityName ∈ follows start entityInstance := by
  have hinside : Occurs start entityInstances _ _ :=
    h.inner (a := [part dataOpening]) (b := [word .endSection, word .semicolon]) (by decide)
  refine ⟨⟨_, _, hinside.inner (a := [part entityInstances]) (b := []) (by decide)⟩, ?_⟩
  have hmore : Occurs start entityInstances _ _ :=
    hinside.inner (a := []) (b := [part entityInstance]) (by decide)
  have hpair : Occurs start entityInstance _ _ :=
    hmore.inner (a := [part entityInstances]) (b := []) (by decide)
  exact hpair.mem_follows [word .equals, part simpleRecord, word .semicolon] (by decide)

/-- What stands behind an instance in a text that holds a record, a section or a whole structure. -/
def behindInstance : Phrase → List Terminal
  | record => [.endOfInput]
  | dataBlock => DataSection.behindInstance
  | _ => Reader.inSection

/-- Behind the instance of a text of its own stands the end of the text. -/
theorem follows_entityInstance_record (next : Terminal) :
    next ∈ follows record entityInstance ↔ next ∈ behindInstance record := by
  have hself : Occurs record record [] [] := Relation.ReflTransGen.refl
  constructor
  · intro hnext
    have hpreserved : Preserved
        [record, entityInstance, headerRecord, simpleRecords, simpleRecord, parameterList,
          parameter]
        [entityInstance, record] [none] := by decide
    have hmem := mem_of_follows hpreserved (by decide) (fun _ => by decide) (by decide) hnext
    cases next with
    | lexeme kind => simp at hmem
    | endOfInput => simp [behindInstance]
  · intro hnext
    obtain rfl := List.mem_singleton.mp hnext
    exact ⟨_, hself.inner (a := []) (b := []) (by decide)⟩

/-- Behind an instance of a block stands another one, or the end of the section or of the text. -/
theorem follows_entityInstance_dataBlock (next : Terminal) :
    next ∈ follows dataBlock entityInstance ↔ next ∈ behindInstance dataBlock := by
  have hself : Occurs dataBlock dataBlock [] [] := Relation.ReflTransGen.refl
  constructor
  · intro hnext
    have hpreserved : Preserved all [entityInstance, entityInstances, dataBlock, record]
        [some (word .endSection), some (word .entityName), some (part entityInstance), none] := by
      decide
    have hmem := mem_of_follows hpreserved (mem_all _) (fun _ => by decide) (by decide) hnext
    cases next with
    | lexeme kind => simpa [behindInstance, DataSection.behindInstance] using hmem
    | endOfInput => simp [behindInstance, DataSection.behindInstance]
  · have hrow : Occurs dataBlock entityInstances [] [] :=
      hself.inner (a := []) (b := []) (by decide)
    have hend : .endOfInput ∈ follows dataBlock entityInstance :=
      ⟨_, hrow.inner (a := [part entityInstances]) (b := []) (by decide)⟩
    have hsection : Occurs dataBlock dataSection [] [] :=
      hself.inner (a := []) (b := []) (by decide)
    obtain ⟨hclose, hname⟩ := hsection.mem_follows_instance
    simp only [behindInstance, DataSection.behindInstance, List.mem_cons, List.not_mem_nil,
      or_false]
    rintro (rfl | rfl | rfl)
    · exact hclose
    · exact hname
    · exact hend

/-- Behind an instance of an exchange structure stands another one, or the end of its section. -/
theorem follows_entityInstance_exchangeFile (next : Terminal) :
    next ∈ follows exchangeFile entityInstance ↔ next ∈ behindInstance exchangeFile := by
  have hself : Occurs exchangeFile exchangeFile [] [] := Relation.ReflTransGen.refl
  constructor
  · intro hnext
    have hpreserved : Preserved
        [exchangeFile, headerSection, headerRecords, headerRecord, dataSections, dataSection,
          dataOpening, entityInstances, entityInstance, simpleRecords, simpleRecord,
          parameterList, parameter]
        [entityInstance, entityInstances]
        [some (word .endSection), some (word .entityName), some (part entityInstance)] := by
      decide
    have hmem := mem_of_follows hpreserved (by decide) (fun hinside => absurd hinside (by decide))
      (by decide) hnext
    cases next with
    | lexeme kind => simpa [behindInstance, Reader.inSection, Reader.kinds] using hmem
    | endOfInput => simp at hmem
  · have hsections : Occurs exchangeFile dataSections _ _ :=
      hself.inner (a := [word .opening, word .semicolon, part headerSection])
        (b := [word .closing, word .semicolon]) (by decide)
    have hsection : Occurs exchangeFile dataSection _ _ :=
      hsections.inner (a := [part dataSections]) (b := []) (by decide)
    obtain ⟨hclose, hname⟩ := hsection.mem_follows_instance
    simp only [behindInstance, Reader.inSection, Reader.kinds, List.map_cons, List.map_nil,
      List.mem_cons, List.not_mem_nil, or_false]
    rintro (rfl | rfl)
    · exact hclose
    · exact hname

/-- Behind an instance stands another one, the end of its section, or the end of the text. -/
theorem follows_entityInstance {start : Phrase} (h : start ∈ readable) (next : Terminal) :
    next ∈ follows start entityInstance ↔ next ∈ behindInstance start := by
  simp only [readable, List.mem_cons, List.not_mem_nil, or_false] at h
  rcases h with rfl | rfl | rfl
  · exact follows_entityInstance_record next
  · exact follows_entityInstance_dataBlock next
  · exact follows_entityInstance_exchangeFile next

end Phrase

end Part21
