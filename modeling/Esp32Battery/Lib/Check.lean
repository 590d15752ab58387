import Esp32Battery.Lib.Duration

/-!
# Timed checks in order

A check moves a window by the time that went by, and may answer. Of checks in order the first
that answers decides, and the windows of those after it stay where they were. Two spans of time
in a row then leave other windows than both of them at once, and still get the same answer.
-/

namespace Lib

structure Check (W V : Type) where
  step : W → Duration → Option V × W
  /-- What stays silent was silent before. -/
  lasting {w : W} {d₁ d₂ d : Duration} : d₁.checkedAdd d₂ = some d →
    (step w d).1 = none → (step w d₁).1 = none
  answer {w : W} {d₁ d₂ d : Duration} : d₁.checkedAdd d₂ = some d →
    (step (step w d₁).2 d₂).1 = (step w d).1

namespace Check

variable {W W' V : Type}

/-- Never answers. -/
def silent : Check W V where
  step w _ := (none, w)
  lasting _ h := h
  answer _ := rfl

/-- Decided by `o`, if that answers. -/
def after (o : Option V) (c : Check W V) : Check W V where
  step w d := if o.isSome then (o, w) else c.step w d
  lasting h hn := by
    split_ifs at hn ⊢
    · exact hn
    · exact c.lasting h hn
  answer h := by
    split_ifs
    · rfl
    · exact c.answer h

/-- The checks of `c`, then those of `c'`. -/
def andThen (c : Check W V) (c' : Check W' V) : Check (W × W') V where
  step w d :=
    if (c.step w.1 d).1.isSome then ((c.step w.1 d).1, (c.step w.1 d).2, w.2)
    else ((c'.step w.2 d).1, (c.step w.1 d).2, (c'.step w.2 d).2)
  lasting {w d₁ d₂ d} h hn := by
    by_cases hc : (c.step w.1 d).1 = none
    · have hc₁ := c.lasting h hc
      simp only [hc, hc₁, Option.isSome_none, Bool.false_eq_true, if_false] at hn ⊢
      exact c'.lasting h hn
    · rw [if_pos (Option.isSome_iff_ne_none.2 hc)] at hn
      exact absurd hn hc
  answer {w d₁ d₂ d} h := by
    have hans := c.answer (w := w.1) h
    by_cases hc : (c.step w.1 d).1 = none
    · -- then `c` was silent the first time too, and the windows of `c'` have moved twice
      have hc₁ := c.lasting h hc
      rw [hc] at hans
      simp only [hc, hc₁, hans, Option.isSome_none, Bool.false_eq_true, if_false]
      exact c'.answer h
    · have hsome := Option.isSome_iff_ne_none.2 hc
      rw [if_pos hsome]
      split_ifs with h₁ h₂ h₂
      · exact hans
      · rw [hans] at h₂
        exact absurd hsome h₂
      · exact hans
      · rw [hans] at h₂
        exact absurd hsome h₂

section AndThen

variable {c : Check W V} {c' : Check W' V} {w : W × W'} {d : Duration}

theorem andThen_some {v : V} (h : (c.step w.1 d).1 = some v) :
    (c.andThen c').step w d = (some v, (c.step w.1 d).2, w.2) := by
  simp only [andThen, h, Option.isSome_some, if_true]

theorem andThen_none (h : (c.step w.1 d).1 = none) :
    (c.andThen c').step w d = ((c'.step w.2 d).1, (c.step w.1 d).2, (c'.step w.2 d).2) := by
  simp only [andThen, h, Option.isSome_none, Bool.false_eq_true, if_false]

end AndThen

end Check

end Lib
