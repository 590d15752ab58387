import Esp32Battery.Charging.Run
import Esp32Battery.Clock
import Esp32Battery.Data.SensorData

/-!
# The threads around the reading store

The producers write readings, the main loop ticks the store, and the supervisor's loop takes a
snapshot of the store and ticks the supervisor with it. Each loop charges the time since its own
last lap. A supervisor iteration stands where it takes its snapshot; its tick, which touches the
supervisor alone, comes at the lap it names.
-/

namespace Esp32Battery

open Lib

variable {F : Type} [FloatLike F]

/-- One iteration of the supervisor's loop: what the buck reported, when the tick read its timer,
and what the caller did after it. -/
structure Iteration (F : Type) where
  setpoints : Option (Setpoints F)
  output : Option BuckOutput
  packTempC : Option F
  lap : Duration
  commit : Bool
  drain : ℕ

inductive ThreadEvent (F : Type) where
  | updateBattery (bat : Ina228Reading F)
  | updatePs (ps : PsReading F)
  | mainTick (nowEpoch : Option ℕ)
  | iteration (i : Iteration F)

structure Timed (F : Type) where
  time : Duration
  event : ThreadEvent F

structure Threads (F : Type) where
  data : SensorData F
  supervisor : ChargeSupervisor F
  mainTimer : LoopTimer
  xyTimer : LoopTimer
deriving DecidableEq

def SensorData.snapshot (d : SensorData F) : Option (BatterySample F) :=
  d.batteryReading.map fun b => { voltage := b.voltage, current := b.current }

namespace Threads

def input (x : Threads F) (i : Iteration F) : Input F where
  poll := {
    battery := x.data.snapshot
    setpoints := i.setpoints
    output := i.output
    packTempC := i.packTempC }
  elapsed := (x.xyTimer.lap i.lap).1
  commit := i.commit
  drain := i.drain

def step (x : Threads F) (e : Timed F) : Except Panic (Threads F) :=
  match e.event with
  | .updateBattery bat => .ok { x with data := x.data.updateBattery bat }
  | .updatePs ps => .ok { x with data := x.data.updatePs ps }
  | .mainTick nowEpoch => do
    let (elapsed, mainTimer) := x.mainTimer.lap e.time
    let data ← x.data.tick nowEpoch elapsed
    return { x with data, mainTimer }
  | .iteration i => do
    let (_, supervisor) ← x.supervisor.turn (x.input i)
    return { x with supervisor, xyTimer := (x.xyTimer.lap i.lap).2 }

def run (x : Threads F) : List (Timed F) → Except Panic (Threads F)
  | [] => .ok x
  | e :: es => do
    let x ← x.step e
    x.run es

/-- What one event does to the store, the timers and the supervisor. -/
theorem step_cases {x y : Threads F} {e : Timed F} (h : x.step e = .ok y) :
    (∃ bat, e.event = .updateBattery bat ∧ y = { x with data := x.data.updateBattery bat }) ∨
    (∃ ps, e.event = .updatePs ps ∧ y = { x with data := x.data.updatePs ps }) ∨
    (∃ nowEpoch history, e.event = .mainTick nowEpoch ∧ y = { x with
      data := { x.data with
        batteryStale := x.data.batteryStale.saturatingAdd (x.mainTimer.lap e.time).1
        psStale := x.data.psStale.saturatingAdd (x.mainTimer.lap e.time).1
        history }
      mainTimer := ⟨e.time⟩ }) ∨
    ∃ i a supervisor, e.event = .iteration i ∧ x.supervisor.turn (x.input i) = .ok (a, supervisor) ∧
      y = { x with supervisor, xyTimer := ⟨i.lap⟩ } := by
  unfold step at h
  rcases he : e.event with bat | ps | nowEpoch | i <;> rw [he] at h
  · cases h
    exact .inl ⟨bat, rfl, rfl⟩
  · cases h
    exact .inr (.inl ⟨ps, rfl, rfl⟩)
  · obtain ⟨history, ht⟩ := x.data.tick_ok nowEpoch (x.mainTimer.lap e.time).1
    simp only [ht, ok_bind] at h
    cases h
    exact .inr (.inr (.inl ⟨nowEpoch, history, rfl, rfl⟩))
  · simp only [bind_eq_ok] at h
    obtain ⟨⟨a, supervisor⟩, ht, h⟩ := h
    cases h
    exact .inr (.inr (.inr ⟨i, a, supervisor, rfl, ht, rfl⟩))

theorem run_append {x y : Threads F} {es es' : List (Timed F)}
    (h : x.run (es ++ es') = .ok y) : ∃ z, x.run es = .ok z ∧ z.run es' = .ok y := by
  induction es generalizing x with
  | nil => exact ⟨x, rfl, h⟩
  | cons e es ih =>
    simp only [List.cons_append, run, bind_eq_ok] at h
    obtain ⟨x₁, h₁, h⟩ := h
    obtain ⟨z, hz, h⟩ := ih h
    exact ⟨z, by simp only [run, h₁, ok_bind, hz], h⟩

end Threads

end Esp32Battery
