import Mathlib.Data.List.Lex
import Mathlib.Data.String.Basic

/-!
# Paths in the order of their segments

Paths over an ordered alphabet, the shorter of two before the longer when it is a prefix of it. The
paths below a given one are next to each other: a scan that starts at the path finds them first, and
is done at the first path that is not below. Where the alphabet has a least letter, the scan may
start at the path with that letter added.
-/

namespace PathOrder

variable {α : Type} [LinearOrder α] {a b : α} {p x y : List α}

theorem cons_lt_cons_iff : a :: x < b :: y ↔ a < b ∨ a = b ∧ x < y :=
  List.cons_lt_cons_iff

theorem cons_le_cons_iff : a :: x ≤ b :: y ↔ a < b ∨ a = b ∧ x ≤ y := by
  rw [← not_lt, cons_lt_cons_iff, not_or, not_and, not_lt, not_lt]
  constructor
  · rintro ⟨hle, himp⟩
    rcases hle.lt_or_eq with hlt | heq
    · exact Or.inl hlt
    · exact Or.inr ⟨heq, himp heq.symm⟩
  · rintro (hlt | ⟨rfl, hle⟩)
    · exact ⟨hlt.le, fun heq => absurd heq.symm hlt.ne⟩
    · exact ⟨le_rfl, fun _ => hle⟩

theorem nil_le (x : List α) : [] ≤ x := by
  rw [← not_lt]
  exact List.not_lt_nil x

/-- A path comes before the paths below it. -/
theorem le_of_prefix (h : p <+: x) : p ≤ x := by
  induction p generalizing x with
  | nil => exact nil_le x
  | cons a p ih =>
      obtain ⟨rest, rfl⟩ := h
      exact cons_le_cons_iff.mpr (Or.inr ⟨rfl, ih (List.prefix_append p rest)⟩)

/-- Between a path and one below it there are only paths below it. -/
theorem prefix_of_between (hx : p ≤ x) (hy : x ≤ y) (h : p <+: y) : p <+: x := by
  induction p generalizing x y with
  | nil => exact List.nil_prefix
  | cons a p ih =>
      obtain ⟨rest, rfl⟩ := h
      cases x with
      | nil => exact absurd (List.nil_lt_cons a p) (not_lt.mpr hx)
      | cons b x =>
          rw [List.cons_append] at hy
          rcases cons_le_cons_iff.mp hx with hlt | ⟨rfl, hpx⟩
          · rcases cons_le_cons_iff.mp hy with hlt' | ⟨rfl, -⟩
            · exact absurd hlt' hlt.not_gt
            · exact absurd hlt (lt_irrefl _)
          · rcases cons_le_cons_iff.mp hy with hlt' | ⟨-, hxy⟩
            · exact absurd hlt' (lt_irrefl _)
            · obtain ⟨rest', rfl⟩ := ih hpx hxy (List.prefix_append p rest)
              exact ⟨rest', rfl⟩

/-- What is below a path, and is not the path, comes after the path with the least letter added. -/
theorem concat_le_of_prefix {bot : α} (hbot : ∀ a, bot ≤ a) (h : p <+: x) (hne : p ≠ x) :
    p ++ [bot] ≤ x := by
  induction p generalizing x with
  | nil =>
      cases x with
      | nil => exact absurd rfl hne
      | cons b x =>
          rcases (hbot b).lt_or_eq with hlt | rfl
          · exact cons_le_cons_iff.mpr (Or.inl hlt)
          · exact cons_le_cons_iff.mpr (Or.inr ⟨rfl, nil_le x⟩)
  | cons a p ih =>
      obtain ⟨rest, rfl⟩ := h
      refine cons_le_cons_iff.mpr (Or.inr ⟨rfl, ih (List.prefix_append p rest) ?_⟩)
      intro heq
      exact hne (congrArg (a :: ·) heq)

/-- The empty text is the least segment. -/
theorem empty_le (s : String) : "" ≤ s := by
  rw [← not_lt]
  intro hlt
  exact List.not_lt_nil _ (String.lt_iff_toList_lt.mp hlt)

end PathOrder
