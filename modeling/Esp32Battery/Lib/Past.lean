import Mathlib

/-!
# What a log says of its past

`Since φ ψ l` is the past operator of temporal logic on a finite log: some entry was as `ψ` says,
given the entries before it, and every later one is as `φ` says. `Throughout φ past l` is a safety
property: every entry is as `φ` says, given the entries before it.
-/

namespace Lib

variable {α : Type*}

def Since (φ : α → Prop) (ψ : List α → α → Prop) (l : List α) : Prop :=
  ∃ l₁ x l₂, l = l₁ ++ x :: l₂ ∧ ψ l₁ x ∧ ∀ y ∈ l₂, φ y

namespace Since

variable {φ φ' : α → Prop} {ψ ψ' : List α → α → Prop} {l : List α} {x : α}

theorem here (h : ψ l x) : Since φ ψ (l ++ [x]) := ⟨l, x, [], rfl, h, by simp⟩

theorem later (h : Since φ ψ l) (hx : φ x) : Since φ ψ (l ++ [x]) := by
  obtain ⟨l₁, y, l₂, rfl, hy, hl⟩ := h
  refine ⟨l₁, y, l₂ ++ [x], by simp, hy, fun z hz => ?_⟩
  rcases List.mem_append.1 hz with hz | hz
  · exact hl z hz
  · simp only [List.mem_singleton] at hz
    exact hz ▸ hx

theorem mono (h : Since φ ψ l) (hφ : ∀ y, φ y → φ' y) (hψ : ∀ l y, ψ l y → ψ' l y) :
    Since φ' ψ' l := by
  obtain ⟨l₁, y, l₂, hl, hy, hl₂⟩ := h
  exact ⟨l₁, y, l₂, hl, hψ l₁ y hy, fun z hz => hφ z (hl₂ z hz)⟩

theorem of_mem (hx : x ∈ l) (hψ : ∀ m, ψ m x) (hφ : ∀ y ∈ l, φ y) : Since φ ψ l := by
  obtain ⟨l₁, l₂, rfl⟩ := List.append_of_mem hx
  exact ⟨l₁, x, l₂, rfl, hψ l₁, fun y hy => hφ y (by simp [hy])⟩

theorem of_append {l' : List α} (h : Since φ ψ l) (hψ : ∀ m y, ψ m y → ψ (l' ++ m) y) :
    Since φ ψ (l' ++ l) := by
  obtain ⟨l₁, y, l₂, rfl, hy, hl₂⟩ := h
  exact ⟨l' ++ l₁, y, l₂, by rw [List.append_assoc], hψ l₁ y hy, hl₂⟩

end Since

/-- Every entry of `l` is as `φ` says, given those of `past` and those of `l` before it. -/
def Throughout (φ : List α → α → Prop) (past : List α) : List α → Prop
  | [] => True
  | x :: l => φ past x ∧ Throughout φ (past ++ [x]) l

namespace Throughout

variable {φ : List α → α → Prop} {past l l' : List α}

theorem append_iff : Throughout φ past (l ++ l') ↔
    Throughout φ past l ∧ Throughout φ (past ++ l) l' := by
  induction l generalizing past with
  | nil => simp [Throughout]
  | cons x l ih => simp [Throughout, ih, and_assoc]

theorem append (h : Throughout φ past l) (h' : Throughout φ (past ++ l) l') :
    Throughout φ past (l ++ l') := append_iff.2 ⟨h, h'⟩

theorem of_forall (h : ∀ x ∈ l, ∀ past, φ past x) : Throughout φ past l := by
  induction l generalizing past with
  | nil => trivial
  | cons x l ih =>
    exact ⟨h x (List.mem_cons_self ..) past, ih fun y hy => h y (List.mem_cons_of_mem _ hy)⟩

theorem intro (h : ∀ l₁ x l₂, l = l₁ ++ x :: l₂ → φ (past ++ l₁) x) : Throughout φ past l := by
  induction l generalizing past with
  | nil => trivial
  | cons x l ih =>
    refine ⟨by simpa using h [] x l rfl, ih fun l₁ y l₂ hl => ?_⟩
    have hy := h (x :: l₁) y l₂ (by rw [hl]; rfl)
    rwa [List.append_cons] at hy

instance decidable [∀ past x, Decidable (φ past x)] : (l past : List α) →
    Decidable (Throughout φ past l)
  | [], _ => .isTrue trivial
  | x :: l, past =>
    have := decidable l (past ++ [x])
    inferInstanceAs (Decidable (φ past x ∧ Throughout φ (past ++ [x]) l))

/-- What holds throughout holds of each entry, where it stands. -/
theorem at_entry {x : α} {l₂ : List α} (h : Throughout φ past (l ++ x :: l₂)) :
    φ (past ++ l) x := (append_iff.1 h).2.1

end Throughout

end Lib
