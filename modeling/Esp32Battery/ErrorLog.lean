import Esp32Battery.Charging.ChargeState
import Esp32Battery.Charging.Reasons
import Esp32Battery.Lib.Duration
import Esp32Battery.Lib.Panic

/-!
# The event log

What is recorded: failures of the two buses, and the supervisor's transitions. The recent entries
are in a ring; the lifetime totals, one for each kind of each source, in one flat array.
-/

namespace Esp32Battery

open Lib

inductive InaError where
  | init
  | busVoltageRead
  | currentRead
  | powerRead
deriving DecidableEq, Repr

inductive XyError where
  | readStatus
  | setVoltage
  | setOutput
  | bootSequence
  | protectOvp
  | protectOcp
  | protectOpp
  | protectLvp
  | protectOah
  | protectOhp
  | protectOtp
  | protectOep
  | protectOwh
  | protectIcp
deriving DecidableEq, Repr

def XyError.fromProtection : ProtectionStatus → Option XyError
  | .normal => none
  | .ovp => some .protectOvp
  | .ocp => some .protectOcp
  | .opp => some .protectOpp
  | .lvp => some .protectLvp
  | .oah => some .protectOah
  | .ohp => some .protectOhp
  | .otp => some .protectOtp
  | .oep => some .protectOep
  | .owh => some .protectOwh
  | .icp => some .protectIcp

inductive Event where
  | ina (kind : InaError)
  | xy (kind : XyError)
  | charge (kind : ChargeTransition)
deriving DecidableEq, Repr

/-- One source's kinds as the log counts them: where its block of the array starts, where a kind
is in the block, and what strum derives. -/
class EventKind (K : Type) where
  offset : ℕ
  index : K → ℕ
  name : K → String
  iter : List K
  count : ℕ

def EventKind.slot {K : Type} [EventKind K] (k : K) : ℕ := offset K + index k

instance : EventKind InaError where
  offset := 0
  index := InaError.ctorIdx
  name
    | .init => "init"
    | .busVoltageRead => "bus_voltage_read"
    | .currentRead => "current_read"
    | .powerRead => "power_read"
  iter := [.init, .busVoltageRead, .currentRead, .powerRead]
  count := 4

instance : EventKind XyError where
  offset := EventKind.count InaError
  index := XyError.ctorIdx
  name
    | .readStatus => "read_status"
    | .setVoltage => "set_voltage"
    | .setOutput => "set_output"
    | .bootSequence => "boot_sequence"
    | .protectOvp => "protect_ovp"
    | .protectOcp => "protect_ocp"
    | .protectOpp => "protect_opp"
    | .protectLvp => "protect_lvp"
    | .protectOah => "protect_oah"
    | .protectOhp => "protect_ohp"
    | .protectOtp => "protect_otp"
    | .protectOep => "protect_oep"
    | .protectOwh => "protect_owh"
    | .protectIcp => "protect_icp"
  iter := [.readStatus, .setVoltage, .setOutput, .bootSequence, .protectOvp, .protectOcp,
    .protectOpp, .protectLvp, .protectOah, .protectOhp, .protectOtp, .protectOep, .protectOwh,
    .protectIcp]
  count := 14

instance : EventKind ChargeTransition where
  offset := EventKind.offset XyError + EventKind.count XyError
  index := ChargeTransition.ctorIdx
  name
    | .energised => "energised"
    | .protectHold => "protect_hold"
    | .protectCleared => "protect_cleared"
    | .latched => "latched"
    | .parked => "parked"
  iter := [.energised, .protectHold, .protectCleared, .latched, .parked]
  count := 5

def Event.slot : Event → ℕ
  | .ina k => EventKind.slot k
  | .xy k => EventKind.slot k
  | .charge k => EventKind.slot k

structure TimedEvent where
  ts : UInt32
  event : Event
deriving DecidableEq

def EventLog.capacity : ℕ := 32

def totalKinds : ℕ := EventKind.offset ChargeTransition + EventKind.count ChargeTransition

/-- `u32::saturating_add(1)`. -/
def saturatingSucc (n : UInt32) : UInt32 := if n = 0xffffffff then n else n + 1

structure EventLog where
  recent : Deque TimedEvent EventLog.capacity
  counts : Vector UInt32 totalKinds

namespace EventLog

def new : EventLog := ⟨.new, Vector.replicate totalKinds 0⟩

/-- `counts[slot]`, which panics outside the array. -/
def counter (log : EventLog) (slot : ℕ) : Except Panic UInt32 :=
  expect log.counts[slot]? "index out of bounds"

def record (log : EventLog) (ts : UInt32) (event : Event) : Except Panic EventLog := do
  let room := if log.recent.isFull then log.recent.popFront.2 else log.recent
  let recent ← expect (room.pushBack { ts, event }) "ring has a free slot after pop_front"
  let slot := event.slot
  -- the write is at the index just read
  let n ← log.counter slot
  return { recent, counts := log.counts.setIfInBounds slot (saturatingSucc n) }

def count {K : Type} [EventKind K] (log : EventLog) (kind : K) : Except Panic UInt32 :=
  log.counter (EventKind.slot kind)

def countsIter (K : Type) [EventKind K] (log : EventLog) : Except Panic (List (String × UInt32)) :=
  (EventKind.iter : List K).mapM fun k => return (EventKind.name k, ← log.count k)

def len (log : EventLog) : ℕ := log.recent.items.length

def isEmpty (log : EventLog) : Bool := log.recent.items.isEmpty

/-- A sequence of `record` calls. -/
def recordAll (log : EventLog) : List TimedEvent → Except Panic EventLog
  | [] => .ok log
  | e :: es => do
    let log ← log.record e.ts e.event
    log.recordAll es

end EventLog

end Esp32Battery
