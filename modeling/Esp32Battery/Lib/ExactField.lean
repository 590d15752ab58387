import Esp32Battery.Lib.FloatLike

/-!
# Exact arithmetic

A number type whose operations are those of an ordered field: nothing rounds, nothing overflows,
and a literal is the fraction it is written as.
-/

namespace Lib

class ExactField (F : Type) extends Field F, LinearOrder F, IsStrictOrderedRing F,
    FloatLike F where
  abs_eq : ∀ a : F, FloatLike.abs a = |a|
  isFinite_eq : ∀ a : F, FloatLike.isFinite a = true
  ofScientific_eq : ∀ (m : ℕ) (s : Bool) (e : ℕ),
    (OfScientific.ofScientific m s e : F) = if s then (m : F) / 10 ^ e else m * 10 ^ e

@[simp] theorem ExactField.finite {F : Type} [ExactField F] (a : F) :
    FloatLike.isFinite a = true :=
  ExactField.isFinite_eq a

instance : ExactField ℚ where
  abs_eq _ := rfl
  isFinite_eq _ := rfl
  ofScientific_eq m s e := by
    show Rat.ofScientific m s e = _
    cases s
    · rw [Rat.ofScientific_false_def]
      simp
    · rw [Rat.ofScientific_true_def, Rat.mkRat_eq_div]
      simp

noncomputable instance : FloatLike ℝ where
  abs q := |q|
  isFinite _ := true

noncomputable instance : ExactField ℝ where
  abs_eq _ := rfl
  isFinite_eq _ := rfl
  ofScientific_eq m s e := by
    have h := congrArg (Rat.cast : ℚ → ℝ) (ExactField.ofScientific_eq m s e)
    rw [apply_ite (Rat.cast : ℚ → ℝ)] at h
    push_cast at h
    rw [← h]

end Lib
