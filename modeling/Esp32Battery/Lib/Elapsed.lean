import Mathlib

/-!
# The time since an entry of a timed log

Each entry of a timed log stands with how long it took, up to the start of the next. `elapsed p l`
is the time since the last entry that is as `p` says, from its start to the end of the log. In a log
made of blocks that each begin with such an entry, it is never longer than the longest block.
-/

namespace Lib

variable {α : Type*}

def total (l : List (α × ℕ)) : ℕ := (l.map Prod.snd).sum

/-- None before there is such an entry. -/
def elapsed (p : α → Bool) (l : List (α × ℕ)) : Option ℕ :=
  l.foldl (fun t x => if p x.1 then some x.2 else t.map (· + x.2)) none

variable {p : α → Bool} {l l' d : List (α × ℕ)} {x : α × ℕ} {n : ℕ}

theorem total_append : total (l ++ l') = total l + total l' := by
  unfold total
  rw [List.map_append, List.sum_append]

theorem total_cons : total (x :: l) = x.2 + total l := by
  unfold total
  rw [List.map_cons, List.sum_cons]

theorem elapsed_concat :
    elapsed p (l ++ [x]) = if p x.1 then some x.2 else (elapsed p l).map (· + x.2) := by
  unfold elapsed
  rw [List.foldl_append]
  rfl

/-- What went before the entry is past. -/
theorem elapsed_append (h : elapsed p l' = some n) : elapsed p (l ++ l') = some n := by
  induction l' using List.reverseRecOn generalizing n with
  | nil => cases h
  | append_singleton l' y ih =>
    rw [elapsed_concat] at h
    rw [← List.append_assoc, elapsed_concat]
    split_ifs at h ⊢ with hp
    · exact h
    · obtain ⟨m, hm, rfl⟩ := Option.map_eq_some_iff.1 h
      rw [ih hm]
      rfl

/-- Without a further one the time adds up. -/
theorem elapsed_cons (hx : p x.1 = true) (hl : ∀ y ∈ l, p y.1 = false) :
    elapsed p (x :: l) = some (total (x :: l)) := by
  induction l using List.reverseRecOn with
  | nil =>
    rw [← List.nil_append [x], elapsed_concat, if_pos hx]
    rfl
  | append_singleton l y ih =>
    obtain ⟨hl, hy⟩ := List.forall_mem_append.1 hl
    rw [← List.cons_append, elapsed_concat, hy y List.mem_cons_self, ih hl, total_append]
    rfl

/-- A log that takes no longer anywhere is no later after the entry. -/
theorem elapsed_mono {f : α → ℕ} (hf : ∀ x ∈ l, x.2 ≤ f x.1)
    (h : elapsed p (l.map fun x => (x.1, f x.1)) = some n) : ∃ t ≤ n, elapsed p l = some t := by
  induction l using List.reverseRecOn generalizing n with
  | nil => cases h
  | append_singleton l y ih =>
    obtain ⟨hl, hy⟩ := List.forall_mem_append.1 hf
    have hy := hy y List.mem_cons_self
    rw [List.map_append, List.map_singleton, elapsed_concat] at h
    rw [elapsed_concat]
    split_ifs at h ⊢ with hp
    · cases h
      exact ⟨y.2, hy, rfl⟩
    · obtain ⟨m, hm, rfl⟩ := Option.map_eq_some_iff.1 h
      obtain ⟨t, ht, hlt⟩ := ih hl hm
      exact ⟨t + y.2, Nat.add_le_add ht hy, by rw [hlt]; rfl⟩

/-- Begins with such an entry, has no other and takes no longer than `n`. -/
structure Block (p : α → Bool) (n : ℕ) (l : List (α × ℕ)) : Prop where
  begins : ∃ x l', l = x :: l' ∧ p x.1 = true ∧ ∀ y ∈ l', p y.1 = false
  total_le : total l ≤ n

theorem Block.elapsed_le (h : Block p n l) (hd : d <+: l) (hne : d ≠ []) :
    ∃ t ≤ n, elapsed p d = some t := by
  obtain ⟨x, l', rfl, hx, hl'⟩ := h.begins
  obtain ⟨y, d', rfl⟩ := List.exists_cons_of_ne_nil hne
  obtain ⟨rfl, hd'⟩ := List.cons_prefix_cons.1 hd
  refine ⟨total (y :: d'), ?_, elapsed_cons hx fun z hz => hl' z (hd'.subset hz)⟩
  have hle := h.total_le
  obtain ⟨rest, rfl⟩ := hd'
  rw [← List.cons_append, total_append] at hle
  omega

/-- A log made of blocks. -/
theorem elapsed_le_of_blocks {ls : List (List (α × ℕ))} (h : ∀ l ∈ ls, Block p n l)
    (hd : d <+: ls.flatten) (hne : d ≠ []) : ∃ t ≤ n, elapsed p d = some t := by
  induction ls generalizing d with
  | nil => exact absurd (List.prefix_nil.1 hd) hne
  | cons l ls ih =>
    obtain ⟨hl, hls⟩ := List.forall_mem_cons.1 h
    rw [List.flatten_cons] at hd
    rcases List.prefix_or_prefix_of_prefix hd (List.prefix_append l ls.flatten) with hd | ⟨d, rfl⟩
    · exact hl.elapsed_le hd hne
    rw [List.prefix_append_right_inj] at hd
    by_cases hd' : d = []
    · rw [hd', List.append_nil] at hne ⊢
      exact hl.elapsed_le List.prefix_rfl hne
    · obtain ⟨t, ht, hlt⟩ := ih hls hd hd'
      exact ⟨t, ht, elapsed_append hlt⟩

end Lib
