import Esp32Battery.Lib.FloatLike

/-!
# Exact arithmetic with infinities and a NaN

The operations of IEEE 754 on the values of a floating-point type, save that a finite result is
never rounded. `FloatLike.Exact` is what a program may rely on then: finite values stay finite.
-/

namespace Lib

inductive Extended where
  | finite (q : ℚ)
  | inf (negative : Bool)
  | nan
deriving DecidableEq

namespace Extended

def isFinite : Extended → Bool
  | finite _ => true
  | _ => false

def neg : Extended → Extended
  | finite q => finite (-q)
  | inf s => inf (!s)
  | nan => nan

def abs : Extended → Extended
  | finite q => finite |q|
  | inf _ => inf false
  | nan => nan

def add : Extended → Extended → Extended
  | finite a, finite b => finite (a + b)
  | finite _, inf s | inf s, finite _ => inf s
  | inf s, inf t => if s = t then inf s else nan
  | nan, _ | _, nan => nan

def mul : Extended → Extended → Extended
  | finite a, finite b => finite (a * b)
  | finite q, inf s | inf s, finite q => if q = 0 then nan else inf (s ^^ decide (q < 0))
  | inf s, inf t => inf (s ^^ t)
  | nan, _ | _, nan => nan

/-- There being one zero, a division by it has the dividend's sign. -/
def div : Extended → Extended → Extended
  | finite a, finite b =>
    if b = 0 then if a = 0 then nan else inf (decide (a < 0)) else finite (a / b)
  | finite _, inf _ => finite 0
  | inf s, finite q => inf (s ^^ decide (q < 0))
  | inf _, inf _ => nan
  | nan, _ | _, nan => nan

def lt : Extended → Extended → Bool
  | finite a, finite b => a < b
  | finite _, inf s => !s
  | inf s, finite _ => s
  | inf s, inf t => s && !t
  | nan, _ | _, nan => false

def le : Extended → Extended → Bool
  | nan, _ | _, nan => false
  | a, b => !lt b a

instance : FloatLike Extended where
  add := add
  sub a b := add a (neg b)
  mul := mul
  div := div
  neg := neg
  lt a b := lt a b = true
  le a b := le a b = true
  ofScientific m s e := finite (OfScientific.ofScientific m s e)
  natCast n := finite n
  abs := abs
  isFinite := isFinite
  decLt a b := inferInstanceAs (Decidable (lt a b = true))
  decLe a b := inferInstanceAs (Decidable (le a b = true))

end Extended

/-- Where nothing overflows: literals are finite, and so are sums of finite values and their
quotients by a count. -/
structure FloatLike.Exact (F : Type) [FloatLike F] : Prop where
  finite_literal : ∀ m s e, isFinite (OfScientific.ofScientific m s e : F) = true
  finite_add : ∀ a b : F, isFinite a = true → isFinite b = true → isFinite (a + b) = true
  finite_div : ∀ (a : F) (n : ℕ), isFinite a = true → 0 < n → isFinite (a / (n : F)) = true

theorem Extended.exact : FloatLike.Exact Extended where
  finite_literal _ _ _ := rfl
  finite_add a b ha hb := by
    cases a <;> cases ha
    cases b <;> cases hb
    rfl
  finite_div a n ha hn := by
    cases a with
    | finite q =>
      have hq : div (finite q) (finite n) = finite (q / n) :=
        if_neg (by exact_mod_cast hn.ne')
      show isFinite (div (finite q) (finite n)) = true
      rw [hq]
      rfl
    | inf _ | nan => cases ha

end Lib
