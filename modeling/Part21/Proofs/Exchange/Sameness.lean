import Mathlib.Data.List.Forall2
import Part21.Proofs.Exchange.Layout
import Part21.Proofs.Exchange.Spelling

set_option autoImplicit false

/-!
# Records that the same lexemes spell

Lexemes are the same if they are equal or reals that count as the same number.  Rows of lexemes that
are the same one by one spell records that are the same: what differs is at most the sign of a zero.
The main statement is `Record.exists_same`.
-/

namespace Part21

open List (Forall₂)

namespace Lexeme

/-- The lexemes of a row are the same as those of another row, one by one. -/
abbrev AllSame (ls ms : List Lexeme) : Prop := Forall₂ same ls ms

theorem eq_of_same {l m : Lexeme} (hm : ∀ y, m ≠ .real y) (h : l.same m) : l = m := by
  cases m with
  | real y => exact absurd rfl (hm y)
  | _ => cases l <;> exact h

theorem real_of_same {l : Lexeme} {y : Binary64} (h : l.same (.real y)) :
    ∃ x, l = .real x ∧ x.same y = true := by
  cases l with
  | real x => exact ⟨x, rfl, h⟩
  | _ => cases h

/-- A lexeme that is no real is the same as itself only. -/
theorem AllSame.of_cons {ls ms : List Lexeme} {m : Lexeme} (h : AllSame ls (m :: ms))
    (hm : ∀ y, m ≠ .real y) : ∃ rest, ls = m :: rest ∧ AllSame rest ms := by
  obtain ⟨l, rest, hsame, hrest, rfl⟩ := List.forall₂_cons_right_iff.mp h
  exact ⟨rest, by rw [eq_of_same hm hsame], hrest⟩

theorem AllSame.eq_nil {ls : List Lexeme} (h : AllSame ls []) : ls = [] :=
  List.forall₂_nil_right_iff.mp h

/-- What is the same as two rows is a row of each kind. -/
theorem AllSame.of_append {ls ms ns : List Lexeme} (h : AllSame ls (ms ++ ns)) :
    ∃ front back, ls = front ++ back ∧ AllSame front ms ∧ AllSame back ns := by
  induction ms generalizing ls with
  | nil => exact ⟨[], ls, rfl, Forall₂.nil, h⟩
  | cons m ms ih =>
    obtain ⟨l, rest, hsame, hrest, rfl⟩ := List.forall₂_cons_right_iff.mp h
    obtain ⟨front, back, rfl, hfront, hback⟩ := ih hrest
    exact ⟨l :: front, back, rfl, Forall₂.cons hsame hfront, hback⟩

/-- A row that ends with a mark. -/
theorem AllSame.of_concat {ls ms : List Lexeme} {m : Lexeme} (h : AllSame ls (ms ++ [m]))
    (hm : ∀ y, m ≠ .real y) : ∃ front, ls = front ++ [m] ∧ AllSame front ms := by
  obtain ⟨front, back, rfl, hfront, hback⟩ := h.of_append
  obtain ⟨rest, rfl, hrest⟩ := hback.of_cons hm
  obtain rfl := hrest.eq_nil
  exact ⟨front, rfl, hfront⟩

end Lexeme

open Lexeme (AllSame)

namespace Parameter

mutual

/-- Lexemes that are the same as those of a parameter spell one that is the same. -/
theorem exists_same (p : Parameter) (hp : p.IsSpellable) {ls : List Lexeme}
    (h : AllSame ls p.lexemes) :
    ∃ q : Parameter, q.IsSpellable ∧ q.lexemes = ls ∧ q.same p = true := by
  match p with
  | .real value =>
    obtain ⟨l, rest, hsame, hrest, rfl⟩ := List.forall₂_cons_right_iff.mp h
    obtain ⟨x, rfl, hx⟩ := Lexeme.real_of_same hsame
    obtain rfl := AllSame.eq_nil hrest
    exact ⟨.real x, trivial, rfl, hx⟩
  | .list items =>
    rw [lexemes] at h
    obtain ⟨inside, rfl, hinside⟩ := AllSame.of_cons h (by simp)
    obtain ⟨row, rfl, hrow⟩ := AllSame.of_concat hinside (by simp)
    obtain ⟨others, hothers, rfl, hsame⟩ := exists_same_row items hp hrow
    exact ⟨.list others, hothers, by rw [lexemes]; rfl, by rw [same]; exact hsame⟩
  | .typed keyword value =>
    rw [lexemes] at h
    obtain ⟨paren, rfl, hparen⟩ := AllSame.of_cons h (by simp)
    obtain ⟨inside, rfl, hinside⟩ := AllSame.of_cons hparen (by simp)
    obtain ⟨own, rfl, hown⟩ := AllSame.of_concat hinside (by simp)
    obtain ⟨other, hother, rfl, hsame⟩ := exists_same value hp hown
    refine ⟨.typed keyword other, hother, by rw [lexemes]; rfl, ?_⟩
    rw [same, hsame, decide_eq_true rfl]
    rfl
  | .integer _ | .string _ | .enumeration _ | .binary _ _ | .reference _ | .unset
  | .inapplicable =>
    obtain ⟨rest, rfl, hrest⟩ := AllSame.of_cons h (by simp)
    obtain rfl := AllSame.eq_nil hrest
    exact ⟨_, hp, rfl, by simp [same]⟩

/-- The same of a row of parameters. -/
theorem exists_same_row (items : List Parameter) (hitems : AllSpellable items) {ls : List Lexeme}
    (h : AllSame ls (rowLexemes items)) :
    ∃ others, AllSpellable others ∧ rowLexemes others = ls ∧ allSame others items = true := by
  match items with
  | [] =>
    obtain rfl := AllSame.eq_nil h
    exact ⟨[], trivial, rfl, rfl⟩
  | item :: rest =>
    rw [rowLexemes] at h
    obtain ⟨own, more, rfl, hown, hmore⟩ := AllSame.of_append h
    obtain ⟨first, hfirst, rfl, hsame⟩ := exists_same item hitems.1 hown
    obtain ⟨others, hothers, rfl, hrest⟩ := exists_same_rest rest hitems.2 hmore
    exact ⟨first :: others, ⟨hfirst, hothers⟩, by rw [rowLexemes],
      by rw [allSame, hsame, hrest]; rfl⟩

/-- The same of the parameters behind another one. -/
theorem exists_same_rest (items : List Parameter) (hitems : AllSpellable items) {ls : List Lexeme}
    (h : AllSame ls (restLexemes items)) :
    ∃ others, AllSpellable others ∧ restLexemes others = ls ∧ allSame others items = true := by
  match items with
  | [] =>
    obtain rfl := AllSame.eq_nil h
    exact ⟨[], trivial, rfl, rfl⟩
  | item :: rest =>
    rw [restLexemes] at h
    obtain ⟨inside, rfl, hinside⟩ := AllSame.of_cons h (by simp)
    obtain ⟨own, more, rfl, hown, hmore⟩ := AllSame.of_append hinside
    obtain ⟨first, hfirst, rfl, hsame⟩ := exists_same item hitems.1 hown
    obtain ⟨others, hothers, rfl, hrest⟩ := exists_same_rest rest hitems.2 hmore
    exact ⟨first :: others, ⟨hfirst, hothers⟩, by rw [restLexemes]; rfl,
      by rw [allSame, hsame, hrest]; rfl⟩

end

end Parameter

namespace Group

/-- Lexemes that are the same as those of a group spell one that is the same. -/
theorem exists_same {g : Group} (hg : g.IsSpellable) {ls : List Lexeme}
    (h : AllSame ls g.lexemes) :
    ∃ other : Group, other.IsSpellable ∧ other.lexemes = ls ∧ other.same g = true := by
  obtain ⟨paren, rfl, hparen⟩ := AllSame.of_cons h (by simp)
  obtain ⟨inside, rfl, hinside⟩ := AllSame.of_cons hparen (by simp)
  obtain ⟨row, rfl, hrow⟩ := AllSame.of_concat hinside (by simp)
  obtain ⟨others, hothers, rfl, hsame⟩ := Parameter.exists_same_row g.parameters hg hrow
  refine ⟨⟨g.keyword, others⟩, hothers, rfl, ?_⟩
  rw [same, hsame, decide_eq_true rfl]
  rfl

/-- The same of a row of groups. -/
theorem exists_same_row {groups : List Group} (hgroups : ∀ g ∈ groups, g.IsSpellable)
    {ls : List Lexeme} (h : AllSame ls (groups.flatMap lexemes)) :
    ∃ others : List Group, (∀ g ∈ others, g.IsSpellable) ∧ others.flatMap lexemes = ls ∧
      allSame others groups = true := by
  induction groups generalizing ls with
  | nil =>
    obtain rfl := AllSame.eq_nil h
    exact ⟨[], by simp, rfl, rfl⟩
  | cons g rest ih =>
    obtain ⟨hg, hrest⟩ := List.forall_mem_cons.mp hgroups
    rw [List.flatMap_cons] at h
    obtain ⟨own, more, rfl, hown, hmore⟩ := AllSame.of_append h
    obtain ⟨first, hfirst, rfl, hsame⟩ := exists_same hg hown
    obtain ⟨others, hothers, rfl, hsameRest⟩ := ih hrest hmore
    exact ⟨first :: others, List.forall_mem_cons.mpr ⟨hfirst, hothers⟩, rfl,
      by rw [allSame, hsame, hsameRest]; rfl⟩

end Group

namespace Body

/-- Lexemes that are the same as those of a body spell one that is the same. -/
theorem exists_same {b : Body} (hb : b.IsSpellable) {ls : List Lexeme}
    (h : AllSame ls b.lexemes) :
    ∃ other : Body, other.IsSpellable ∧ other.lexemes = ls ∧ other.same b = true ∧
      other.isComplex = b.isComplex := by
  cases b with
  | simple g =>
    obtain ⟨other, hother, rfl, hsame⟩ := Group.exists_same hb h
    exact ⟨.simple other, hother, rfl, hsame, rfl⟩
  | complex first others loose =>
    obtain ⟨hparts, rfl⟩ := hb
    obtain ⟨inside, rfl, hinside⟩ := AllSame.of_cons h (by simp)
    obtain ⟨row, rfl, hrow⟩ := AllSame.of_concat hinside (by simp)
    obtain ⟨parts, hspellable, rfl, hsame⟩ := Group.exists_same_row hparts hrow
    cases parts with
    | nil => cases hsame
    | cons part more =>
      refine ⟨.complex part more [], ⟨hspellable, rfl⟩, rfl, ?_, rfl⟩
      rw [same]
      rw [Group.allSame] at hsame
      rw [hsame]
      rfl

end Body

namespace Record

/-- Lexemes that are the same as those of a record spell one that is the same. -/
theorem exists_same {r : Record} (hr : r.IsSpellable) {ls : List Lexeme}
    (h : AllSame ls r.lexemes) :
    ∃ other : Record, other.IsSpellable ∧ other.lexemes = ls ∧ other.same r = true := by
  obtain ⟨front, rfl, hfront⟩ := AllSame.of_concat h (by simp)
  obtain ⟨name, body, rfl, hname, hbody⟩ := AllSame.of_append hfront
  obtain ⟨other, hother, rfl, hsame, hcomplex⟩ := Body.exists_same hr.body hbody
  have hown : name = nameLexemes r.id := by
    cases hid : r.id with
    | none =>
      rw [hid] at hname
      exact hname.eq_nil
    | some id =>
      rw [hid] at hname
      obtain ⟨rest, rfl, hrest⟩ := AllSame.of_cons hname (by simp)
      obtain ⟨last, rfl, hlast⟩ := AllSame.of_cons hrest (by simp)
      rw [hlast.eq_nil]
      rfl
  refine ⟨⟨r.id, other, none, none⟩, ⟨hr.name, hother, hcomplex ▸ hr.named⟩, by rw [hown]; rfl, ?_⟩
  rw [same, hsame, decide_eq_true rfl]
  rfl

end Record

end Part21
