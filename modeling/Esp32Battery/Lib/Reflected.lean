import Mathlib

/-!
# A walk held at zero

`reflected` adds its steps one by one and never goes below zero. Where it stands is the greatest
sum of a run of last steps, the empty run included.
-/

namespace Lib

variable {G : Type*} [AddCommGroup G] [LinearOrder G]

def reflected (steps : List G) : G := steps.foldl (fun x d => max 0 (x + d)) 0

@[simp] theorem reflected_nil : reflected ([] : List G) = 0 := rfl

theorem reflected_concat (l : List G) (d : G) :
    reflected (l ++ [d]) = max 0 (reflected l + d) := by
  simp [reflected]

/-- Some run of last steps adds up to where the walk stands. -/
theorem exists_suffix_sum_eq (l : List G) : ∃ t, t <:+ l ∧ t.sum = reflected l := by
  induction l using List.reverseRecOn with
  | nil => exact ⟨[], List.suffix_rfl, rfl⟩
  | append_singleton l d ih =>
    rw [reflected_concat]
    rcases max_choice 0 (reflected l + d) with h | h <;> rw [h]
    · exact ⟨[], List.nil_suffix, rfl⟩
    · obtain ⟨t, ht, hsum⟩ := ih
      refine ⟨t ++ [d], List.suffix_append_self_iff.2 ht, ?_⟩
      rw [List.sum_append, List.sum_singleton, hsum]

variable [IsOrderedAddMonoid G]

/-- No run of last steps adds up to more. -/
theorem suffix_sum_le {t l : List G} (h : t <:+ l) : t.sum ≤ reflected l := by
  induction l using List.reverseRecOn generalizing t with
  | nil =>
    rw [List.suffix_nil.1 h]
    exact le_rfl
  | append_singleton l d ih =>
    rw [reflected_concat]
    rcases List.suffix_concat_iff.1 h with rfl | ⟨t, rfl, ht⟩
    · exact le_max_left _ _
    · rw [List.sum_append, List.sum_singleton]
      exact (add_le_add_left (ih ht) d).trans (le_max_right _ _)

theorem isGreatest_reflected (l : List G) :
    IsGreatest {x | ∃ t, t <:+ l ∧ t.sum = x} (reflected l) := by
  refine ⟨exists_suffix_sum_eq l, ?_⟩
  rintro x ⟨t, ht, rfl⟩
  exact suffix_sum_le ht

/-- The walk has reached a level exactly when some run of last steps has. -/
theorem le_reflected_iff {c : G} {l : List G} :
    c ≤ reflected l ↔ ∃ t, t <:+ l ∧ c ≤ t.sum := by
  constructor
  · intro h
    obtain ⟨t, ht, hsum⟩ := exists_suffix_sum_eq l
    exact ⟨t, ht, hsum ▸ h⟩
  · rintro ⟨t, ht, hc⟩
    exact hc.trans (suffix_sum_le ht)

end Lib
