import Mathlib.Data.List.Sort
import Part21.Text.CodePoint

set_option autoImplicit false

/-!
# The order of texts

Texts are ordered by their code points, the first that differs counts.  The order is total
(`Text.le_total`), so that the sorted form of a list of different texts ascends
(`Text.sorted_ascends`).
-/

namespace Part21

namespace Text

theorem le_cons_cons {a b : CodePoint} {s t : Text} :
    le (a :: s) (b :: t) = true ↔ a.toNat < b.toNat ∨ a = b ∧ le s t = true := by
  rw [le]
  split
  · simp_all
  split
  · rename_i h
    have hne : a ≠ b := by
      rintro rfl
      omega
    simp_all
  · have hsame : a = b := CodePoint.toNat_injective (by omega)
    simp_all

theorem le_total (s t : Text) : le s t = true ∨ le t s = true := by
  induction s generalizing t with
  | nil => exact .inl (by rw [le])
  | cons a s ih =>
    cases t with
    | nil => exact .inr (by rw [le])
    | cons b t =>
      rw [le_cons_cons, le_cons_cons]
      rcases Nat.lt_trichotomy a.toNat b.toNat with h | h | h
      · exact .inl (.inl h)
      · have hsame : a = b := CodePoint.toNat_injective h
        rcases ih t with hle | hle
        · exact .inl (.inr ⟨hsame, hle⟩)
        · exact .inr (.inr ⟨hsame.symm, hle⟩)
      · exact .inr (.inl h)

theorem le_trans {s t u : Text} (hst : le s t = true) (htu : le t u = true) : le s u = true := by
  induction s generalizing t u with
  | nil => rw [le]
  | cons a s ih =>
    cases t with
    | nil => cases hst
    | cons b t =>
      cases u with
      | nil => cases htu
      | cons c u =>
        rw [le_cons_cons] at hst htu ⊢
        rcases hst with hab | ⟨rfl, hst⟩
        · rcases htu with hbc | ⟨rfl, -⟩
          · exact .inl (Nat.lt_trans hab hbc)
          · exact .inl hab
        · rcases htu with hbc | ⟨rfl, htu⟩
          · exact .inl hbc
          · exact .inr ⟨rfl, ih hst htu⟩

/-- Different texts ascend when they are sorted. -/
theorem sorted_ascends {texts : List Text} (h : texts.Nodup) :
    (sorted texts).Pairwise fun s t => le s t = true ∧ s ≠ t := by
  have hle : (texts.mergeSort le).Pairwise fun s t => le s t = true :=
    @List.pairwise_mergeSort Text le (fun _ _ _ => le_trans)
      (fun s t => (Bool.or_eq_true _ _).mpr (le_total s t)) texts
  exact hle.and ((List.mergeSort_perm texts le).nodup_iff.mpr h)

end Text

end Part21
