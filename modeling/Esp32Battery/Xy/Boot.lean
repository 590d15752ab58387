import Esp32Battery.Charging.ChargeSupervisor
import Esp32Battery.Data.SensorData
import Esp32Battery.ErrorLog
import Esp32Battery.Lib.Prog

/-!
# Booting the buck

What the supervisor's thread does besides computing is an operation: a transfer to the buck, a
sleep, a lap of its timer, its dealings with the task watchdog, a record in the event log, and its
reads and writes of what it shares with the other threads. The boot sequence programs the buck, its
output off, and reads it back.
-/

namespace Esp32Battery

open Lib

variable {F : Type} [FloatLike F]

def pollInterval : Duration := .fromSecs 1

/-- Quiet window between disabling the output and writing the new V_SET on a step-down. -/
def stepDownSettle : Duration := ⟨100 * 1000000, by unfold maxNanos; omega⟩

def bootRetryDelay : Duration := ⟨100 * 1000000, by unfold maxNanos; omega⟩

def bootRetryCount : ℕ := 10

abbrev BusError := DriverError

structure ModelCheck where
  deviceCode : ℕ
  scalesMatch : Bool

structure Status (F : Type) where
  setpoints : Setpoints F
  vOut : F
  iOut : F
  pOut : F
  protection : ProtectionStatus
  outputOn : Bool

structure ChargeStatus where
  psOffline : Bool
  phase : Option Phase
  parked : Bool
  fault : Option FaultReason
  inhibit : Option InhibitReason

inductive XyOp (F : Type) where
  | checkModel
  | readStatus
  | readSafetyLimits
  | setVoltage (volts : F)
  | setOutput (on : Bool)
  | setCurrentLimit (amps : F)
  | setSafetyLimits (limits : SafetyLimits F)
  | clearProtectionStatus
  | setPowerOnDefault (on : Bool)
  | wdtSubscribe
  | wdtReset
  | sleep (d : Duration)
  | lap
  | record (event : Event)
  | updatePs (ps : PsReading F)
  | batteryReading
  | publishModel (code : ℕ)
  | publish (status : ChargeStatus)

@[reducible]
def XyOp.Reply : XyOp F → Type
  | .checkModel => Except BusError ModelCheck
  | .readStatus => Except BusError (Status F)
  | .readSafetyLimits => Except BusError (SafetyLimits F)
  | .setVoltage _ | .setOutput _ | .setCurrentLimit _ | .setSafetyLimits _
  | .clearProtectionStatus | .setPowerOnDefault _ => Except BusError Unit
  | .lap => Duration
  | .batteryReading => Option (Ina228Reading F)
  | .wdtSubscribe | .wdtReset | .sleep _ | .record _ | .updatePs _ | .publishModel _
  | .publish _ => Unit

abbrev XyProg (F : Type) := Prog (XyOp F) XyOp.Reply

namespace XyOp

abbrev perform (op : XyOp F) : XyProg F op.Reply := Prog.perform op

end XyOp

inductive BootError (F : Type) where
  | bus (e : BusError)
  | verify (what : String) (expected actual : F)
  | outputOn
  | modelMismatch (deviceCode : ℕ)

/-- A transfer whose failure ends the boot sequence. -/
def bus {α : Type} (p : XyProg F (Except BusError α)) : ExceptT (BootError F) (XyProg F) α :=
  ExceptT.mk do
    match ← p with
    | .ok a => return .ok a
    | .error e => return .error (.bus e)

def verify (what : String) (expected actual : F) : ExceptT (BootError F) (XyProg F) Unit :=
  if FloatLike.abs (expected - actual) < setpointDriftTol then return ()
  else throw (.verify what expected actual)

/-- Programs protection and setpoints, the output staying off, and reads them back. -/
def bootSequence (profile : Profile F) (buck : BuckSetup F) :
    ExceptT (BootError F) (XyProg F) ℕ := do
  let check ← bus (XyOp.perform .checkModel)
  if !check.scalesMatch then throw (.modelMismatch check.deviceCode)
  bus (XyOp.perform (.setOutput false))
  bus (XyOp.perform .clearProtectionStatus)
  bus (XyOp.perform (.setPowerOnDefault false))
  bus (XyOp.perform (.setSafetyLimits buck.limits))
  bus (XyOp.perform (.setVoltage profile.floatV))
  bus (XyOp.perform (.setCurrentLimit buck.iSetA))
  let s ← bus (XyOp.perform .readStatus)
  verify "V_SET" profile.floatV s.setpoints.vSet
  verify "I_SET" buck.iSetA s.setpoints.iSet
  let p ← bus (XyOp.perform .readSafetyLimits)
  verify "OVP" buck.limits.ovpV p.ovpV
  verify "OCP" buck.limits.ocpA p.ocpA
  verify "LVP" buck.limits.lvpV p.lvpV
  if s.outputOn then throw .outputOn
  return check.deviceCode

/-- The pause before every attempt but the first. -/
def bootPause (left : ℕ) : XyProg F Unit :=
  if left < bootRetryCount then XyOp.perform (.sleep bootRetryDelay) else return ()

def bootAttempts (profile : Profile F) (buck : BuckSetup F) : ℕ → XyProg F (Option ℕ)
  | 0 => return none
  | left + 1 => do
    bootPause (left + 1)
    match ← (bootSequence profile buck).run with
    | .ok deviceCode => return some deviceCode
    | .error _ => bootAttempts profile buck left

/-- `none` once every attempt failed and the MCU reboots. -/
def bootWithRetries (profile : Profile F) (buck : BuckSetup F) : XyProg F (Option ℕ) := do
  match ← bootAttempts profile buck bootRetryCount with
  | some deviceCode => return some deviceCode
  | none =>
    XyOp.perform (.record (.xy .bootSequence))
    match ← XyOp.perform (.setOutput false) with
    | .ok () => return none
    | .error _ =>
      XyOp.perform (.record (.xy .setOutput))
      return none

end Esp32Battery
