import Esp32Battery.Charging.ChargeSupervisor

/-!
# Runs of a supervisor

A caller ticks, commits or drops the ticket it got, and drains some transitions.
-/

namespace Esp32Battery

open Lib

variable {F : Type} [FloatLike F]

/-- One turn of the caller: what it polled, how long since the last, whether it commits the
ticket, and how many transitions it pops. -/
structure Input (F : Type) where
  poll : PollResult F
  elapsed : Duration
  commit : Bool
  drain : ℕ

namespace ChargeSupervisor

def popN (s : ChargeSupervisor F) : ℕ → ChargeSupervisor F
  | 0 => s
  | n + 1 => s.popTransition.2.popN n

/-- The action of the tick, and the supervisor once the turn is over. -/
def turn (s : ChargeSupervisor F) (i : Input F) : Except Panic (Action F × ChargeSupervisor F) := do
  let (a, s) ← s.tick i.poll i.elapsed
  let s ← if i.commit then s.commit a else .ok s
  return (a, s.popN i.drain)

def run (s : ChargeSupervisor F) :
    List (Input F) → Except Panic (List (Action F) × ChargeSupervisor F)
  | [] => .ok ([], s)
  | i :: is => do
    let (a, s) ← s.turn i
    let (as, s) ← s.run is
    return (a :: as, s)

theorem new_eq_ok {profile : Profile F} {iSetA : F} {packTemp : PackTemp} {s : ChargeSupervisor F}
    (h : new profile iSetA packTemp = .ok s) :
    profile.floatV < profile.absorbV ∧ profile.regulationA ≤ iSetA ∧
    s = {
      profile
      iSetA
      state := .boot
      ov := .reset
      overcurrent := .reset
      holds := .new
      packTemp
      packTempMissing := .reset
      absorb := .reset
      chargeTotal := .reset
      exit := .reset
      batteryMissing := .reset
      modbusErr := .reset
      fault := none
      inhibit := none
      transitions := .new } := by
  simp only [new, require_bind_eq_ok, decide_eq_true_eq] at h
  obtain ⟨hlt, hle, h⟩ := h
  cases h
  exact ⟨hlt, hle, rfl⟩

/-- The supervisors some run from `new` leaves. -/
inductive Reachable : ChargeSupervisor F → Prop
  | new {profile : Profile F} {iSetA : F} {packTemp : PackTemp} {s : ChargeSupervisor F} :
      new profile iSetA packTemp = .ok s → Reachable s
  | turn {s s' : ChargeSupervisor F} {i : Input F} {a : Action F} : Reachable s →
      s.turn i = .ok (a, s') → Reachable s'

section Run

variable {s s' : ChargeSupervisor F} {i : Input F} {is : List (Input F)} {as : List (Action F)}

theorem run_cons {x : List (Action F) × ChargeSupervisor F} (h : s.run (i :: is) = .ok x) :
    ∃ a s₁ as, s.turn i = .ok (a, s₁) ∧ s₁.run is = .ok (as, x.2) ∧ x.1 = a :: as := by
  simp only [run, bind_eq_ok] at h
  obtain ⟨⟨a, s₁⟩, ht, ⟨as, s₂⟩, hr, h⟩ := h
  cases h
  exact ⟨a, s₁, as, ht, hr, rfl⟩

theorem run_append {is₁ is₂ : List (Input F)} {s₁ : ChargeSupervisor F} {as₁ : List (Action F)}
    (h₁ : s.run is₁ = .ok (as₁, s₁)) (h : s.run (is₁ ++ is₂) = .ok (as, s')) :
    ∃ as₂, s₁.run is₂ = .ok (as₂, s') ∧ as = as₁ ++ as₂ := by
  induction is₁ generalizing s as₁ as with
  | nil =>
    cases h₁
    exact ⟨as, h, rfl⟩
  | cons i is₁ ih =>
    obtain ⟨a, s₂, bs, ht, hr, rfl⟩ := run_cons h₁
    obtain ⟨a', s₂', cs, ht', hr', rfl⟩ := run_cons h
    cases ht.symm.trans ht'
    obtain ⟨as₂, has₂, hcs⟩ := ih hr hr'
    exact ⟨as₂, has₂, by rw [hcs]; rfl⟩

/-- What every turn keeps, of the machine and of its action, a run keeps. -/
theorem run_induction {P : ChargeSupervisor F → Prop} {Q : Action F → Prop}
    (hturn : ∀ s i a s', P s → s.turn i = .ok (a, s') → P s' ∧ Q a) (hs : P s)
    (h : s.run is = .ok (as, s')) : P s' ∧ ∀ a ∈ as, Q a := by
  induction is generalizing s as with
  | nil =>
    cases h
    exact ⟨hs, by simp⟩
  | cons i is ih =>
    obtain ⟨a, s₁, as₁, ht, hr, rfl⟩ := run_cons h
    obtain ⟨hs₁, ha⟩ := hturn _ _ _ _ hs ht
    obtain ⟨hs', has⟩ := ih hs₁ hr
    exact ⟨hs', by simpa using ⟨ha, has⟩⟩

theorem Reachable.of_run (hs : s.Reachable) (h : s.run is = .ok (as, s')) : s'.Reachable :=
  (run_induction (Q := fun _ => True) (fun _ _ _ _ hs ht => ⟨hs.turn ht, trivial⟩) hs h).1

end Run

end ChargeSupervisor

end Esp32Battery
