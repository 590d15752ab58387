import Mathlib

/-!
# Floating-point fields

`FloatLike` is what a program over floats asks of its number type. `Float32`, IEEE binary32 with
its NaN, infinities and rounding, is the instance a machine computes with. The order facts are
read off its comparison, which answers nothing where a NaN takes part. The rationals are the
instance that never rounds.
-/

namespace Float.Model.UnpackedFloat

theorem compare_swap (a b : UnpackedFloat) : b.compare a = (a.compare b).map Ordering.swap := by
  rcases a with (_ | _) | _ | (_ | _) | ⟨_ | _, m, e, hm⟩ <;>
    rcases b with (_ | _) | _ | (_ | _) | ⟨_ | _, m', e', hm'⟩ <;>
    first
    | rfl
    | simp [UnpackedFloat.compare, Ordering.swap_then, ← Std.OrientedCmp.eq_swap]

theorem compare_eq_none {a b : UnpackedFloat} :
    a.compare b = none ↔ a.isNaN = true ∨ b.isNaN = true := by
  rcases a with (_ | _) | _ | (_ | _) | ⟨_ | _, m, e, hm⟩ <;>
    rcases b with (_ | _) | _ | (_ | _) | ⟨_ | _, m', e', hm'⟩ <;>
    simp [UnpackedFloat.compare, UnpackedFloat.isNaN]

theorem isFinite_of_bounds {lo t hi : UnpackedFloat} (hlo : lo.isFinite = true)
    (hhi : hi.isFinite = true) (h₁ : lo.le t = true) (h₂ : t.le hi = true) :
    t.isFinite = true := by
  rcases t with (_ | _) | _ | _ | _
  · rcases lo with _ | _ | _ | ⟨_ | _, m, e, hm⟩ <;>
      simp [UnpackedFloat.le, UnpackedFloat.compare, UnpackedFloat.isFinite] at *
  · rcases hi with _ | _ | _ | ⟨_ | _, m, e, hm⟩ <;>
      simp [UnpackedFloat.le, UnpackedFloat.compare, UnpackedFloat.isFinite] at *
  · simp [UnpackedFloat.le, UnpackedFloat.compare] at h₂
  · rfl
  · rfl

theorem isNaN_roundWithAccuracy (spec : Format) (s : Sign) (m : ℕ) (e : ℤ) (acc : Accuracy) :
    (roundWithAccuracy spec s m e acc).isNaN = false := by
  simp only [roundWithAccuracy]
  split <;> rfl

theorem isNaN_normalize (spec : Format) (m e : ℤ) (s : Sign) :
    (normalize spec m e s).isNaN = false := by
  unfold normalize round
  split
  · exact isNaN_roundWithAccuracy ..
  · rfl
  · exact isNaN_roundWithAccuracy ..

theorem isNaN_add (spec : Format) {a b : UnpackedFloat} (ha : a.isNaN = false)
    (hb : b.isFinite = true) : (a.add spec b).isNaN = false := by
  rcases a with (_ | _) | _ | (_ | _) | ⟨_ | _, m, e, hm⟩ <;>
    rcases b with (_ | _) | _ | (_ | _) | ⟨_ | _, m', e', hm'⟩ <;>
    first
    | rfl
    | exact isNaN_normalize ..
    | simp [UnpackedFloat.isNaN, UnpackedFloat.isFinite] at ha hb

theorem isNaN_div (spec : Format) {a b : UnpackedFloat} {s : Sign} (ha : a.isFinite = true)
    (hb : (zero s).compare b = some .lt) : (a.div spec b).isNaN = false := by
  rcases a with (_ | _) | _ | (_ | _) | ⟨_ | _, m, e, hm⟩ <;>
    rcases b with (_ | _) | _ | (_ | _) | ⟨_ | _, m', e', hm'⟩ <;>
    first
    | rfl
    | exact isNaN_roundWithAccuracy ..
    | simp [UnpackedFloat.compare, UnpackedFloat.isFinite] at ha hb

theorem sub_self (spec : Format) (a : UnpackedFloat) :
    a.sub spec a = .notANumber ∨ a.sub spec a = .zero .positive := by
  rcases a with (_ | _) | _ | (_ | _) | ⟨s, m, e, hm⟩
  · exact .inl rfl
  · exact .inl rfl
  · exact .inl rfl
  · exact .inr rfl
  · exact .inr rfl
  · refine .inr ?_
    simp [UnpackedFloat.sub, normalize]

theorem isNaN_abs {a : UnpackedFloat} (ha : a.isNaN = false) : a.abs.isNaN = false := by
  rcases a with _ | _ | _ | _ <;> first | rfl | cases ha

theorem isNaN_unpack {spec : Format} {b : BitVec spec.numBits} :
    (unpack spec b).isNaN = true ↔ unpackExponent b = -1#_ ∧ unpackMantissa b ≠ 0#_ := by
  simp only [unpack]
  split_ifs <;> simp_all [UnpackedFloat.isNaN]

theorem isNaN_unpack_pack {spec : Format} {a : UnpackedFloat} (ha : a.isNaN = false) :
    (unpack spec (pack spec a)).isNaN = false := by
  rw [Bool.eq_false_iff, ne_eq, isNaN_unpack]
  have hpos : 2 ≤ 2 ^ spec.exponentBits := Nat.le_self_pow spec.he.ne' 2
  fun_cases pack with
  | case1 => simp [UnpackedFloat.isNaN] at ha
  | case2 s => simp [packedInfinity]
  | case3 s => simp [packedZero]
  | case4 s m e hm biasedExponent h => simp [packedInfinity]
  | case5 s m e hm actualMantissaBits biasedExponent h₁ h₂ =>
    have hlt : biasedExponent % 2 ^ spec.exponentBits ≠ 2 ^ spec.exponentBits - 1 := by
      rw [Nat.mod_eq_of_lt (by omega)]
      omega
    simp [BitVec.neg_one_eq_allOnes, ← BitVec.toNat_inj, hlt]
  | case6 s m e hm actualMantissaBits biasedExponent h₁ h₂ => simp [spec.he.ne']

end Float.Model.UnpackedFloat

namespace Float32

open Float.Model (UnpackedFloat)

theorem lt_def {a b : Float32} :
    a < b ↔ a.toModel.unpack.compare b.toModel.unpack = some .lt := by
  change decide (a.toModel.unpack.lt b.toModel.unpack = true) = true ↔ _
  simp [UnpackedFloat.lt]

theorem le_def {a b : Float32} :
    a ≤ b ↔ (a.toModel.unpack.compare b.toModel.unpack).any (·.isLE) = true := by
  change decide (a.toModel.unpack.le b.toModel.unpack = true) = true ↔ _
  exact decide_eq_true_iff

theorem ne_nan_iff {a : Float32} : a ≠ nan ↔ a.toModel.unpack.isNaN = false := by
  change _ ↔ a.isNaN = false
  simp

theorem compare_eq_none {a b : Float32} :
    a.toModel.unpack.compare b.toModel.unpack = none ↔ a = nan ∨ b = nan := by
  rw [UnpackedFloat.compare_eq_none, ← Bool.not_eq_false, ← Bool.not_eq_false, ← ne_nan_iff,
    ← ne_nan_iff, not_not, not_not]

theorem lt_asymm {a b : Float32} (h : a < b) : ¬ b < a := by
  rw [lt_def] at h
  rw [lt_def, UnpackedFloat.compare_swap, h]
  decide

theorem lt_irrefl (a : Float32) : ¬ a < a := fun h => lt_asymm h h

theorem not_nan_lt (a : Float32) : ¬ nan < a := by
  rw [lt_def, compare_eq_none.2 (.inl rfl)]
  simp

theorem not_lt_nan (a : Float32) : ¬ a < nan := by
  rw [lt_def, compare_eq_none.2 (.inr rfl)]
  simp

theorem ne_nan_of_lt {a b : Float32} (h : a < b) : a ≠ nan ∧ b ≠ nan :=
  ⟨fun ha => not_nan_lt b (ha ▸ h), fun hb => not_lt_nan a (hb ▸ h)⟩

/-- Away from a NaN the order is total. -/
theorem not_lt {a b : Float32} (ha : a ≠ nan) (hb : b ≠ nan) : ¬ a < b ↔ b ≤ a := by
  have hn : a.toModel.unpack.compare b.toModel.unpack ≠ none := by
    rw [ne_eq, compare_eq_none, not_or]
    exact ⟨ha, hb⟩
  rw [lt_def, le_def, UnpackedFloat.compare_swap a.toModel.unpack b.toModel.unpack]
  rcases hc : a.toModel.unpack.compare b.toModel.unpack with _ | o
  · exact absurd hc hn
  · cases o <;> simp

theorem not_lt_of_le {a b : Float32} (h : a ≤ b) : ¬ b < a := by
  intro hlt
  obtain ⟨hb, ha⟩ := ne_nan_of_lt hlt
  exact (not_lt hb ha).2 h hlt

theorem not_le {a b : Float32} (ha : a ≠ nan) (hb : b ≠ nan) : ¬ a ≤ b ↔ b < a := by
  rw [← not_lt hb ha, not_not]

theorem isFinite_of_mem {lo t hi : Float32} (hlo : lo.isFinite = true) (hhi : hi.isFinite = true)
    (h₁ : lo ≤ t) (h₂ : t ≤ hi) : t.isFinite = true :=
  UnpackedFloat.isFinite_of_bounds hlo hhi (by simpa [UnpackedFloat.le] using le_def.1 h₁)
    (by simpa [UnpackedFloat.le] using le_def.1 h₂)

theorem ne_nan_of_isFinite {a : Float32} (h : a.isFinite = true) : a ≠ nan := by
  rintro rfl
  revert h
  decide +kernel

theorem abs_ne_nan {a : Float32} (ha : a ≠ nan) : a.abs ≠ nan := by
  rw [ne_nan_iff] at ha ⊢
  exact UnpackedFloat.isNaN_unpack_pack (UnpackedFloat.isNaN_abs ha)

theorem abs_eq_nan {a : Float32} : a.abs = nan ↔ a = nan := by
  constructor
  · intro h
    by_contra hne
    exact abs_ne_nan hne h
  · rintro rfl
    decide +kernel

theorem add_ne_nan {a b : Float32} (ha : a ≠ nan) (hb : b.isFinite = true) : a + b ≠ nan := by
  rw [ne_nan_iff] at ha ⊢
  exact UnpackedFloat.isNaN_unpack_pack (UnpackedFloat.isNaN_add _ ha hb)

theorem div_ne_nan {a b : Float32} (ha : a.isFinite = true) (hb : 0 < b) : a / b ≠ nan := by
  rw [lt_def] at hb
  rw [ne_nan_iff]
  have hz : (0 : Float32).toModel.unpack = .zero .positive := rfl
  rw [hz] at hb
  exact UnpackedFloat.isNaN_unpack_pack (UnpackedFloat.isNaN_div _ ha hb)

theorem sub_self (a : Float32) : a - a = nan ∨ a - a = 0 := by
  have hsub : a - a = .ofModel (.pack (a.toModel.unpack.sub .binary32 a.toModel.unpack)) := rfl
  rcases UnpackedFloat.sub_self .binary32 a.toModel.unpack with h | h
  · exact .inl (hsub.trans (by rw [h]; rfl))
  · exact .inr (hsub.trans (by rw [h]; rfl))

/-- A number is not off itself by any amount. -/
theorem not_le_abs_sub_self {t : Float32} (ht : 0 < t) (a : Float32) : ¬ t ≤ (a - a).abs := by
  rcases sub_self a with h | h <;> rw [h]
  · rw [abs_eq_nan.2 rfl, le_def, compare_eq_none.2 (.inr rfl)]
    decide
  · rw [show (0 : Float32).abs = 0 by decide +kernel]
    exact fun hle => not_lt_of_le hle ht

theorem ofNat_pos : ∀ n < 256, 0 < n → (0 : Float32) < Float32.ofNat n := by decide +kernel

end Float32

namespace Lib

/-- The operations of a floating-point type. -/
class FloatLike (F : Type) extends Add F, Sub F, Mul F, Div F, Neg F, LT F, LE F, OfScientific F,
    NatCast F where
  abs : F → F
  isFinite : F → Bool
  [decLt : DecidableLT F]
  [decLe : DecidableLE F]

instance (priority := low) FloatLike.decidableLT {F : Type} [h : FloatLike F] : DecidableLT F :=
  h.decLt

instance (priority := low) FloatLike.decidableLE {F : Type} [h : FloatLike F] : DecidableLE F :=
  h.decLe

instance : FloatLike Float32 where
  natCast := Float32.ofNat
  abs := Float32.abs
  isFinite := Float32.isFinite

/-- Exact arithmetic. -/
instance : FloatLike ℚ where
  abs q := |q|
  isFinite _ := true

namespace FloatLike

@[simp] theorem abs_float32 (a : Float32) : abs a = a.abs := rfl

@[simp] theorem isFinite_float32 (a : Float32) : isFinite a = a.isFinite := rfl

end FloatLike

end Lib
