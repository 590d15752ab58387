import Esp32Battery.Lib.Duration
import Esp32Battery.Lib.Panic

/-!
# The supervisor's windows

The time-based debouncer shared by every gate the supervisor clocks, the rate limit on
self-clearing protections, and how long each window is.
-/

namespace Esp32Battery

open Lib

def ovDuration : Duration := .fromSecs 3
def maxAbsorb : Duration := .fromSecs (2 * 60 * 60)
def maxCharge : Duration := .fromSecs (8 * 60 * 60)
def exitDebounce : Duration := .fromSecs 60
def batteryMissingTimeout : Duration := .fromSecs 10
def overcurrentDuration : Duration := .fromSecs 5
def flapWindow : Duration := .fromSecs (5 * 60)
def maxHolds : ℕ := 4
def packTempStaleTimeout : Duration := .fromSecs 10
def modbusUnhealthyTimeout : Duration := .fromSecs 5

structure Debounce where
  elapsed : Duration
deriving DecidableEq

namespace Debounce

def reset : Debounce := ⟨.zero⟩

/-- Add `dt` if `cond`, else reset; whether `timeout` has accumulated. -/
def step (d : Debounce) (cond : Bool) (dt timeout : Duration) : Bool × Debounce :=
  if cond then
    let elapsed := d.elapsed.saturatingAdd dt
    (timeout ≤ elapsed, ⟨elapsed⟩)
  else (false, reset)

/-- `stepLeaky`, as a build with or without debug assertions has it. -/
def stepLeakyIn (debugAssertions : Bool) (d : Debounce) (cond : Bool) (dt timeout : Duration) :
    Except Panic (Bool × Debounce) := do
  let elapsed := if cond then d.elapsed.saturatingAdd dt else d.elapsed.saturatingSub dt
  require (!debugAssertions || elapsed ≤ timeout.saturatingAdd dt)
    "leaky debounce ran past its window — a fired gate went unhandled"
  return (timeout ≤ elapsed, ⟨elapsed⟩)

/-- Like `step`, but a false `cond` drains the window by `dt` instead of emptying it. -/
def stepLeaky (d : Debounce) (cond : Bool) (dt timeout : Duration) :
    Except Panic (Bool × Debounce) := d.stepLeakyIn true cond dt timeout

/-- The answers to these inputs, one by one, and the window they leave. -/
def feedLeaky (debugAssertions : Bool) (timeout : Duration) (d : Debounce) :
    List (Bool × Duration) → Except Panic (List Bool × Debounce)
  | [] => .ok ([], d)
  | i :: is => do
    let (fired, d) ← d.stepLeakyIn debugAssertions i.1 i.2 timeout
    let (answers, d) ← feedLeaky debugAssertions timeout d is
    return (fired :: answers, d)

theorem stepLeaky_eq_stepLeakyIn (d : Debounce) (cond : Bool) (dt timeout : Duration) :
    d.stepLeaky cond dt timeout = d.stepLeakyIn true cond dt timeout := rfl

@[simp] theorem elapsed_reset : reset.elapsed = .zero := rfl

@[simp] theorem step_false (d : Debounce) (dt timeout : Duration) :
    d.step false dt timeout = (false, reset) := rfl

theorem step_true (d : Debounce) (dt timeout : Duration) :
    d.step true dt timeout =
      (decide (timeout ≤ d.elapsed.saturatingAdd dt), ⟨d.elapsed.saturatingAdd dt⟩) := rfl

theorem cond_of_step {d : Debounce} {cond : Bool} {dt timeout : Duration}
    (h : (d.step cond dt timeout).1 = true) : cond = true := by
  cases cond
  · simp at h
  · rfl

theorem le_of_step {d : Debounce} {cond : Bool} {dt timeout : Duration}
    (h : (d.step cond dt timeout).1 = true) : timeout ≤ (d.step cond dt timeout).2.elapsed := by
  cases cond
  · simp at h
  · simpa [step_true] using h

/-- A window below its timeout does not panic. -/
theorem stepLeaky_eq {d : Debounce} {timeout : Duration} (h : d.elapsed < timeout) (cond : Bool)
    (dt : Duration) :
    let elapsed := if cond then d.elapsed.saturatingAdd dt else d.elapsed.saturatingSub dt
    d.stepLeaky cond dt timeout = .ok (decide (timeout ≤ elapsed), ⟨elapsed⟩) := by
  intro elapsed
  have hle : elapsed ≤ timeout.saturatingAdd dt := by
    have hd := d.elapsed.nanos_le
    have ht := timeout.nanos_le
    rw [Duration.lt_def] at h
    rw [Duration.le_def]
    cases cond <;> simp [elapsed] <;> omega
  unfold stepLeaky stepLeakyIn
  simp only [elapsed] at hle ⊢
  simp only [hle, decide_true, Bool.or_true, require_true, ok_bind]
  rfl

/-- Nor, unless it fires, does it leave its timeout. -/
theorem stepLeaky_ok {d : Debounce} {timeout : Duration} (h : d.elapsed < timeout) (cond : Bool)
    (dt : Duration) : ∃ fired d', d.stepLeaky cond dt timeout = .ok (fired, d') ∧
      (fired = false → d'.elapsed < timeout) := by
  refine ⟨_, _, stepLeaky_eq h cond dt, fun hf => ?_⟩
  simpa [Duration.le_def, Duration.lt_def] using hf

theorem stepLeaky_unfired {d d' : Debounce} {cond : Bool} {dt timeout : Duration}
    (h : d.elapsed < timeout) (hd : d.stepLeaky cond dt timeout = .ok (false, d')) :
    d'.elapsed < timeout := by
  obtain ⟨fired, d₁, hd₁, hlt⟩ := stepLeaky_ok h cond dt
  cases hd₁.symm.trans hd
  exact hlt rfl

/-- Draining a window does not fire it. -/
theorem stepLeaky_false_lt {d d' : Debounce} {fired : Bool} {dt timeout : Duration}
    (h : d.elapsed < timeout) (hd : d.stepLeaky false dt timeout = .ok (fired, d')) :
    d'.elapsed < timeout := by
  simp only [stepLeaky, stepLeakyIn, require_bind_eq_ok] at hd
  obtain ⟨-, hd⟩ := hd
  cases hd
  rw [Duration.lt_def] at h ⊢
  simp only [Bool.false_eq_true, if_false, Duration.nanos_saturatingSub]
  omega

/-- An empty window has nothing to drain. -/
theorem stepLeaky_reset {dt timeout : Duration} (h : .zero < timeout) :
    reset.stepLeaky false dt timeout = .ok (false, reset) := by
  have hzero : Duration.zero.saturatingSub dt = .zero := by
    ext
    simp
  have hle : Duration.zero ≤ timeout.saturatingAdd dt := Nat.zero_le _
  have hlt : ¬ timeout ≤ Duration.zero := by
    rw [Duration.le_def]
    rw [Duration.lt_def] at h
    omega
  simp [stepLeaky, stepLeakyIn, hzero, hle, hlt, reset]

end Debounce

/-- How often the buck has dropped into a self-clearing hold lately. -/
structure HoldBudget where
  holds : ℕ
  sinceLast : Duration
deriving DecidableEq

namespace HoldBudget

def new : HoldBudget := ⟨0, .zero⟩

/-- Count a hold the machine has just entered, the count being a `u8`. -/
def record (h : HoldBudget) : HoldBudget := ⟨min (h.holds + 1) 255, .zero⟩

/-- Advance the quiet timer, and answer whether the current run of holds is over budget. -/
def step (h : HoldBudget) (dt : Duration) : Bool × HoldBudget :=
  let sinceLast := h.sinceLast.saturatingAdd dt
  let holds := if flapWindow < sinceLast then 0 else h.holds
  (maxHolds < holds, ⟨holds, sinceLast⟩)

end HoldBudget

end Esp32Battery
