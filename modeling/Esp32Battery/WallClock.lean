import Esp32Battery.Data.SensorData
import Esp32Battery.ErrorLog

/-!
# The wall clock

The system time is believed once an SNTP reply was plausible, and then only while it is plausible
itself. The event log and the history are stamped by it.
-/

namespace Esp32Battery

open Lib

/-- `VALID_EPOCH_S` contains `t`. -/
def validEpochS (t : UInt64) : Bool := 1700000000 ≤ t && t < 4102444800

structure EspClock where
  ntpSynced : Bool
deriving DecidableEq

namespace EspClock

def new : EspClock := ⟨false⟩

def markSynced (_ : EspClock) : EspClock := ⟨true⟩

/-- `now` is what the system time says. -/
def epochS (c : EspClock) (now : UInt64) : Option UInt32 :=
  if !c.ntpSynced then none
  else if !validEpochS now then none
  else some now.toUInt32

/-- The SNTP callback. -/
def syncedAt (c : EspClock) (secs : UInt64) : EspClock :=
  if validEpochS secs then c.markSynced else c

end EspClock

/-- `EventRecorder::record`. -/
def EventLog.recordAt (log : EventLog) (clock : EspClock) (now : UInt64) (event : Event) :
    Except Panic EventLog :=
  log.record ((clock.epochS now).getD 0) event

variable {F : Type} [FloatLike F]

/-- What any task does with the clock, the log or the store; `now` is the system time then. -/
inductive StampOp (F : Type) where
  | sntp (secs : UInt64)
  | record (now : UInt64) (event : Event)
  | tick (now : UInt64) (elapsed : Duration)
  | updateBattery (bat : Ina228Reading F)
  | updatePs (ps : PsReading F)

/-- The clock and what it stamps. -/
structure Stamped (F : Type) where
  clock : EspClock
  data : SensorData F
  log : EventLog

namespace Stamped

def new : Stamped F := ⟨.new, .new, .new⟩

def step (x : Stamped F) : StampOp F → Except Panic (Stamped F)
  | .sntp secs => .ok { x with clock := x.clock.syncedAt secs }
  | .record now event => do
    let log ← x.log.recordAt x.clock now event
    return { x with log }
  | .tick now elapsed => do
    let data ← x.data.tick ((x.clock.epochS now).map UInt32.toNat) elapsed
    return { x with data }
  | .updateBattery bat => .ok { x with data := x.data.updateBattery bat }
  | .updatePs ps => .ok { x with data := x.data.updatePs ps }

def run (x : Stamped F) : List (StampOp F) → Except Panic (Stamped F)
  | [] => .ok x
  | op :: ops => do
    let x ← x.step op
    x.run ops

end Stamped

end Esp32Battery
