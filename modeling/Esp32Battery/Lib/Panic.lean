import Mathlib

/-!
# Code that may panic

A function that asserts or unwraps returns `Except Panic`, the panic carrying the text it is
raised with.
-/

namespace Lib

structure Panic where
  text : String
deriving DecidableEq, Repr

/-- `Option::expect`. -/
def expect {α : Type} (o : Option α) (text : String) : Except Panic α :=
  match o with
  | some a => .ok a
  | none => .error ⟨text⟩

/-- `assert!`. -/
def require (c : Bool) (text : String) : Except Panic Unit :=
  if c then .ok () else .error ⟨text⟩

variable {α β ε : Type}

@[simp] theorem expect_some (a : α) (text : String) : expect (some a) text = .ok a := rfl

@[simp] theorem expect_none (text : String) : expect (none : Option α) text = .error ⟨text⟩ := rfl

theorem expect_eq_ok {o : Option α} {text : String} {a : α} :
    expect o text = .ok a ↔ o = some a := by
  cases o <;> simp

@[simp] theorem require_true (text : String) : require true text = .ok () := rfl

@[simp] theorem require_false (text : String) : require false text = .error ⟨text⟩ := rfl

@[simp] theorem ok_bind (a : α) (f : α → Except ε β) : (Except.ok a >>= f) = f a := rfl

@[simp] theorem error_bind (e : ε) (f : α → Except ε β) :
    ((Except.error e : Except ε α) >>= f) = .error e := rfl

theorem bind_eq_ok {x : Except ε α} {f : α → Except ε β} {b : β} :
    (x >>= f) = .ok b ↔ ∃ a, x = .ok a ∧ f a = .ok b := by
  cases x <;> simp

theorem require_bind_eq_ok {c : Bool} {text : String} {f : Unit → Except Panic β} {b : β} :
    (require c text >>= f) = .ok b ↔ c = true ∧ f () = .ok b := by
  cases c <;> simp

/-- Whatever panic `x` raises, `E` allows. -/
def PanicsOnly (E : Panic → Prop) (x : Except Panic α) : Prop := ∀ e, x = .error e → E e

namespace PanicsOnly

variable {E : Panic → Prop}

theorem ok (a : α) : PanicsOnly E (.ok a) := nofun

theorem of_eq_ok {x : Except Panic α} {a : α} (h : x = .ok a) : PanicsOnly E x := h ▸ ok a

theorem bind {x : Except Panic α} {f : α → Except Panic β} (hx : PanicsOnly E x)
    (hf : ∀ a, x = .ok a → PanicsOnly E (f a)) : PanicsOnly E (x >>= f) := by
  intro e h
  rcases x with e' | a
  · cases h
    exact hx _ rfl
  · exact hf a rfl e h

theorem map {x : Except Panic α} {f : α → β} (hx : PanicsOnly E x) : PanicsOnly E (f <$> x) := by
  intro e h
  rcases x with e' | a
  · cases h
    exact hx _ rfl
  · cases h

theorem expect {o : Option α} (h : o.isSome = true) (text : String) :
    PanicsOnly E (Lib.expect o text) := by
  obtain ⟨a, rfl⟩ := Option.isSome_iff_exists.1 h
  exact ok a

theorem require {c : Bool} {text : String} (h : c = false → E ⟨text⟩) :
    PanicsOnly E (Lib.require c text) := by
  intro e he
  cases c
  · cases he
    exact h rfl
  · cases he

end PanicsOnly

end Lib
