import Esp32Battery.Lib.Past
import Esp32Battery.Lib.Prog

/-!
# What a program and a device say to each other

A conversation is the operations a program issues, each with what it was answered, up to where the
program returns. The device is left out of it: whatever any device may answer, a program says. A
run of the program in an environment is the beginning of one, and all of it unless it was cut.
-/

namespace Lib

structure Answered (Op : Type) (Reply : Op → Type) where
  op : Op
  reply : Reply op

namespace Prog

variable {Op : Type} {Reply : Op → Type} {α β : Type}

/-- `p.Says c a`: answered as in `c`, the program `p` returns `a`. -/
inductive Says : Prog Op Reply α → List (Answered Op Reply) → α → Prop
  | pure (a : α) : Says (.pure a) [] a
  | call {op : Op} {k : Reply op → Prog Op Reply α} {r : Reply op}
      {c : List (Answered Op Reply)} {a : α} : Says (k r) c a → Says (.call op k) (⟨op, r⟩ :: c) a

variable {p : Prog Op Reply α} {f : α → Prog Op Reply β} {c : List (Answered Op Reply)}
  {a a' : α} {b : β}

@[simp] theorem says_pure : Says (Pure.pure a : Prog Op Reply α) c a' ↔ c = [] ∧ a' = a := by
  constructor
  · intro h
    generalize hq : (Pure.pure a : Prog Op Reply α) = q at h
    cases h with
    | pure b =>
      cases hq
      exact ⟨rfl, rfl⟩
    | call _ => cases hq
  · rintro ⟨rfl, rfl⟩
    exact .pure a'

theorem says_call {op : Op} {k : Reply op → Prog Op Reply α} :
    Says (.call op k) c a ↔ ∃ r c', c = ⟨op, r⟩ :: c' ∧ Says (k r) c' a := by
  constructor
  · intro h
    cases h with
    | call h => exact ⟨_, _, rfl, h⟩
  · rintro ⟨r, c', rfl, h⟩
    exact .call h

theorem says_perform {op : Op} {r : Reply op} :
    Says (perform op : Prog Op Reply (Reply op)) c r ↔ c = [⟨op, r⟩] := by
  rw [perform, says_call]
  constructor
  · rintro ⟨r', c', rfl, h⟩
    obtain ⟨rfl, rfl⟩ := says_pure.1 h
    rfl
  · rintro rfl
    exact ⟨r, [], rfl, .pure r⟩

theorem says_bind : Says (p >>= f) c b ↔
    ∃ a c₁ c₂, c = c₁ ++ c₂ ∧ Says p c₁ a ∧ Says (f a) c₂ b := by
  constructor
  · intro h
    induction p generalizing c with
    | pure a => exact ⟨a, [], c, rfl, .pure a, h⟩
    | call op k ih =>
      rw [call_bind] at h
      obtain ⟨r, c', rfl, hk⟩ := says_call.1 h
      obtain ⟨a, c₁, c₂, rfl, h₁, h₂⟩ := ih r hk
      exact ⟨a, ⟨op, r⟩ :: c₁, c₂, rfl, .call h₁, h₂⟩
  · rintro ⟨a, c₁, c₂, rfl, h₁, h₂⟩
    induction h₁ with
    | pure a => exact h₂
    | call _ ih => exact .call (ih h₂)

theorem says_perform_bind {op : Op} {f : Reply op → Prog Op Reply β} :
    Says (perform op >>= f) c b ↔ ∃ r c', c = ⟨op, r⟩ :: c' ∧ Says (f r) c' b := by
  rw [perform_bind, says_call]

/-- A program answered alike says the same and returns the same, and only then goes on. -/
theorem Says.unique {c' d d' : List (Answered Op Reply)} (h : p.Says c a) (h' : p.Says c' a')
    (hd : c ++ d = c' ++ d') : c = c' ∧ a = a' ∧ d = d' := by
  induction h generalizing c' with
  | pure a =>
    obtain ⟨rfl, rfl⟩ := says_pure.1 h'
    exact ⟨rfl, rfl, hd⟩
  | call _ ih =>
    obtain ⟨r', c'', rfl, hk⟩ := says_call.1 h'
    rw [List.cons_append, List.cons_append, List.cons.injEq] at hd
    obtain ⟨hhead, hd⟩ := hd
    cases hhead
    obtain ⟨rfl, rfl, rfl⟩ := ih hk hd
    exact ⟨rfl, rfl, rfl⟩

/-- Two programs that begin alike, the second saying what the first says and more. -/
theorem Says.bind_prefix {γ : Type} {g : α → Prog Op Reply γ} {b' : γ}
    {c' : List (Answered Op Reply)} (h : (p >>= f).Says c b) (h' : (p >>= g).Says (c ++ c') b') :
    ∃ a c₁ c₂, c = c₁ ++ c₂ ∧ p.Says c₁ a ∧ (f a).Says c₂ b ∧ (g a).Says (c₂ ++ c') b' := by
  obtain ⟨a, c₁, c₂, rfl, h₁, h₂⟩ := says_bind.1 h
  obtain ⟨a', d₁, d₂, hd, h₁', h₂'⟩ := says_bind.1 h'
  rw [List.append_assoc] at hd
  obtain ⟨rfl, rfl, rfl⟩ := h₁.unique h₁' hd
  exact ⟨a, c₁, c₂, rfl, h₁, h₂, h₂'⟩

/-- The conversation with a device that has one answer to every operation, and what the program
returns. -/
def converse {S : Type} (handle : S → (op : Op) → Reply op × S) :
    Prog Op Reply α → S → List (Answered Op Reply) × α
  | .pure a, _ => ([], a)
  | .call op k, s =>
    let r := handle s op
    let rest := converse handle (k r.1) r.2
    (⟨op, r.1⟩ :: rest.1, rest.2)

theorem says_converse {S : Type} (handle : S → (op : Op) → Reply op × S) :
    ∀ (p : Prog Op Reply α) (s : S), p.Says (p.converse handle s).1 (p.converse handle s).2
  | .pure a, _ => .pure a
  | .call op k, s => .call (says_converse handle (k (handle s op).1) (handle s op).2)

/-- What goes on by saying first what another does, says first what the other does. -/
theorem converse_bind_prefix {S : Type} {handle : S → (op : Op) → Reply op × S}
    {f : α → Prog Op Reply β} {γ : Type} {g : α → Prog Op Reply γ}
    (h : ∀ a s, ((f a).converse handle s).1 <+: ((g a).converse handle s).1) :
    ∀ (p : Prog Op Reply α) (s : S),
      ((p >>= f).converse handle s).1 <+: ((p >>= g).converse handle s).1
  | .pure a, s => h a s
  | .call op k, s => by
    rw [call_bind, call_bind]
    exact List.cons_prefix_cons.2
      ⟨rfl, converse_bind_prefix h (k (handle s op).1) (handle s op).2⟩

theorem converse_bind_pure {S : Type} {handle : S → (op : Op) → Reply op × S} {f : α → β} :
    ∀ (p : Prog Op Reply α) (s : S), ((p >>= fun a => Pure.pure (f a)).converse handle s).1 =
      (p.converse handle s).1
  | .pure _, _ => rfl
  | .call op k, s => by
    rw [call_bind]
    exact congrArg (_ :: ·) (converse_bind_pure (k (handle s op).1) (handle s op).2)

/-- What the device answers, given what went before, it answers throughout. -/
theorem throughout_converse {S : Type} {handle : S → (op : Op) → Reply op × S}
    {I : List (Answered Op Reply) → S → Prop}
    {φ : List (Answered Op Reply) → Answered Op Reply → Prop}
    (h : ∀ past s op, I past s → φ past ⟨op, (handle s op).1⟩ ∧
      I (past ++ [⟨op, (handle s op).1⟩]) (handle s op).2) :
    ∀ (p : Prog Op Reply α) {past : List (Answered Op Reply)} {s : S}, I past s →
      Throughout φ past (p.converse handle s).1
  | .pure _, _, _, _ => trivial
  | .call op k, past, s, hs =>
    have hstep := h past s op hs
    ⟨hstep.1, throughout_converse h (k (handle s op).1) hstep.2⟩

end Prog

end Lib
