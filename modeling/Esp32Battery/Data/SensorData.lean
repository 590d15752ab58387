import Esp32Battery.Data.History

/-!
# The reading store

The latest reading of each producer, how long each has gone unrefreshed, and the history built
from them. Producers write when they have a reading; the main loop's tick charges the staleness
clocks.
-/

namespace Esp32Battery

open Lib

variable {F : Type} [FloatLike F]

structure Ina228Reading (F : Type) where
  voltage : F
  current : F
  power : F
deriving DecidableEq

def Ina228Reading.isFinite (r : Ina228Reading F) : Bool :=
  FloatLike.isFinite r.voltage && FloatLike.isFinite r.current && FloatLike.isFinite r.power

structure PsReading (F : Type) where
  voltage : F
  current : F
  power : F
  vSet : F
  iSet : F
deriving DecidableEq

def PsReading.isFinite (r : PsReading F) : Bool :=
  FloatLike.isFinite r.voltage && FloatLike.isFinite r.current && FloatLike.isFinite r.power &&
    FloatLike.isFinite r.vSet && FloatLike.isFinite r.iSet

def staleWindow : Duration := .fromSecs 5

def powerOnlineVoltageThreshold : F := 2.0

structure SensorData (F : Type) where
  latestBattery : Option (Ina228Reading F)
  latestPs : Option (PsReading F)
  batteryStale : Duration
  psStale : Duration
  history : History F
deriving DecidableEq

namespace SensorData

def new : SensorData F := ⟨none, none, .max, .max, .new⟩

/-- A reading that is not finite is dropped. -/
def updateBattery (d : SensorData F) (bat : Ina228Reading F) : SensorData F :=
  if bat.isFinite then { d with latestBattery := some bat, batteryStale := .zero } else d

def updatePs (d : SensorData F) (ps : PsReading F) : SensorData F :=
  if ps.isFinite then { d with latestPs := some ps, psStale := .zero } else d

def batteryReading (d : SensorData F) : Option (Ina228Reading F) :=
  if staleWindow < d.batteryStale then none else d.latestBattery

def psReading (d : SensorData F) : Option (PsReading F) :=
  if staleWindow < d.psStale then none else d.latestPs

/-- Whether a fresh reading shows a measurable supply voltage, as a duty. -/
def powerOnline (d : SensorData F) : F :=
  match d.psReading with
  | some ps => if powerOnlineVoltageThreshold < ps.voltage then 1.0 else 0.0
  | none => 0.0

def sample (d : SensorData F) (timeS : ℕ) : Sample F :=
  let bat := d.batteryReading.getD ⟨0.0, 0.0, 0.0⟩
  let ps := d.psReading.getD ⟨0.0, 0.0, 0.0, 0.0, 0.0⟩
  { timeS
    voltage := bat.voltage
    batteryCurrent := bat.current
    psCurrent := ps.current
    powerOnline := d.powerOnline }

/-- Charge the staleness clocks, and commit a sample unless the clock is unset or has not moved
on. -/
def tick (d : SensorData F) (nowEpoch : Option ℕ) (elapsed : Duration) :
    Except Panic (SensorData F) :=
  let d := { d with
    batteryStale := d.batteryStale.saturatingAdd elapsed
    psStale := d.psStale.saturatingAdd elapsed }
  match nowEpoch with
  | none => .ok d
  | some timeS =>
    if d.history.lastTime.any (timeS ≤ ·) then .ok d
    else do
      let history ← d.history.commit (d.sample timeS)
      return { d with history }

/-- A tick ages both readings and touches neither. -/
theorem tick_ok (d : SensorData F) (nowEpoch : Option ℕ) (elapsed : Duration) :
    ∃ history, d.tick nowEpoch elapsed = .ok { d with
      batteryStale := d.batteryStale.saturatingAdd elapsed
      psStale := d.psStale.saturatingAdd elapsed
      history } := by
  unfold tick
  rcases nowEpoch with _ | timeS
  · exact ⟨d.history, rfl⟩
  · simp only []
    split_ifs
    · exact ⟨d.history, rfl⟩
    · obtain ⟨history, hh⟩ := d.history.commit_ok
        (SensorData.sample { d with
          batteryStale := d.batteryStale.saturatingAdd elapsed
          psStale := d.psStale.saturatingAdd elapsed } timeS)
      refine ⟨history, ?_⟩
      simp only [hh, ok_bind]
      rfl

def aged (d : SensorData F) (elapsed : Duration) : SensorData F :=
  { d with
    batteryStale := d.batteryStale.saturatingAdd elapsed
    psStale := d.psStale.saturatingAdd elapsed }

/-- The sample a tick commits, if it commits one. -/
def committed (d : SensorData F) (nowEpoch : Option ℕ) (elapsed : Duration) : Option (Sample F) :=
  nowEpoch.bind fun timeS =>
    if d.history.lastTime.any (timeS ≤ ·) then none else some ((d.aged elapsed).sample timeS)

theorem tick_eq (d : SensorData F) (nowEpoch : Option ℕ) (elapsed : Duration) :
    d.tick nowEpoch elapsed = match d.committed nowEpoch elapsed with
      | none => .ok (d.aged elapsed)
      | some s => do return { d.aged elapsed with history := ← d.history.commit s } := by
  unfold tick committed
  rcases nowEpoch with _ | timeS
  · rfl
  · simp only [Option.bind_some]
    split_ifs <;> rfl

end SensorData

end Esp32Battery
