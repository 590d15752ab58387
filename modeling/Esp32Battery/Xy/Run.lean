import Esp32Battery.Xy.Boot

/-!
# The supervisor's loop

Feed the watchdog, poll the buck and the reading store, tick the supervisor, carry out what it asks
for, and publish.
-/

namespace Esp32Battery

open Lib

variable {F : Type} [FloatLike F]

/-- Whether V_SET got onto the device, and so whether its ticket is committed. -/
inductive VoltageWriteOutcome where
  | committed
  | retry
deriving DecidableEq

/-- A step-up writes V_SET live; a step-down cycles the output around the write. -/
def applyUpdateVoltage (ticket : VoltageTicket F) : XyProg F VoltageWriteOutcome :=
  if !ticket.cycleOutput then do
    match ← XyOp.perform (.setVoltage ticket.targetV) with
    | .ok () => return .committed
    | .error _ =>
      XyOp.perform (.record (.xy .setVoltage))
      return .retry
  else do
    match ← XyOp.perform (.setOutput false) with
    | .error _ =>
      XyOp.perform (.record (.xy .setOutput))
      return .retry
    | .ok () =>
      XyOp.perform (.sleep stepDownSettle)
      match ← XyOp.perform (.setVoltage ticket.targetV) with
      | .error _ =>
        XyOp.perform (.record (.xy .setVoltage))
        -- Best-effort restore, so the load stays powered.
        match ← XyOp.perform (.setOutput true) with
        | .ok () => return .retry
        | .error _ =>
          XyOp.perform (.record (.xy .setOutput))
          return .retry
      | .ok () =>
        match ← XyOp.perform (.setOutput true) with
        | .ok () => return .committed
        | .error _ =>
          match ← XyOp.perform (.setOutput true) with
          | .ok () => return .committed
          | .error _ =>
            XyOp.perform (.record (.xy .setOutput))
            return .committed

/-- Carry out what a tick asked for; a ticket whose write failed is dropped. -/
def applyAction (s : ChargeSupervisor F) (a : Action F) :
    XyProg F (Except Panic (ChargeSupervisor F)) :=
  match a with
  | .none => return .ok s
  | .enableOutput ticket => do
    match ← XyOp.perform (.setOutput true) with
    | .ok () => return s.commitEnable ticket
    | .error _ =>
      XyOp.perform (.record (.xy .setOutput))
      return .ok s
  | .updateVoltage ticket => do
    match ← applyUpdateVoltage ticket with
    | .committed => return s.commitVoltage ticket
    | .retry => return .ok s
  | .disableOutput ticket => do
    match ← XyOp.perform (.setOutput false) with
    | .ok () => return s.commitDisable ticket
    | .error _ =>
      XyOp.perform (.record (.xy .setOutput))
      return .ok s

/-- Per-episode de-duplication of latched `PROTECT` causes. -/
structure ProtectionLog where
  last : ProtectionStatus

namespace ProtectionLog

def new : ProtectionLog := ⟨.normal⟩

/-- Record a newly latched cause; an input loss is no entry for the log. -/
def recordCause (log : ProtectionLog) (cause : ProtectionStatus) : XyProg F Unit :=
  match XyError.fromProtection cause with
  | some ev =>
    if !cause.isInputLoss && log.last != cause then XyOp.perform (.record (.xy ev))
    else return ()
  | none => return ()

def classify (log : ProtectionLog) (s : Status F) : XyProg F (BuckOutput × ProtectionLog) :=
  if s.outputOn then return (.on, ⟨.normal⟩)
  else do
    log.recordCause s.protection
    return (.off s.protection, ⟨s.protection⟩)

end ProtectionLog

def psReading (s : Status F) : PsReading F where
  voltage := s.vOut
  current := s.iOut
  power := s.pOut
  vSet := s.setpoints.vSet
  iSet := s.setpoints.iSet

structure PollOutcome (F : Type) where
  poll : PollResult F
  psOffline : Bool

def readBattery : XyProg F (Option (BatterySample F)) := do
  let bat ← XyOp.perform .batteryReading
  return Option.map (fun b => { voltage := b.voltage, current := b.current }) bat

def poll (log : ProtectionLog) : XyProg F (PollOutcome F × ProtectionLog) := do
  match ← XyOp.perform .readStatus with
  | .ok s =>
    let (output, log) ← log.classify s
    XyOp.perform (.updatePs (psReading s))
    let battery ← readBattery
    let psOffline := match output with
      | .off cause => cause.isInputLoss
      | .on => false
    return ({
      poll := { setpoints := some s.setpoints, output := some output, battery, packTempC := none }
      psOffline }, log)
  | .error _ =>
    XyOp.perform (.record (.xy .readStatus))
    let battery ← readBattery
    return ({
      poll := { setpoints := none, output := none, battery, packTempC := none }
      psOffline := false }, log)

/-- Record the transitions the supervisor has buffered, of which there are `n`. -/
def drain : ℕ → ChargeSupervisor F → XyProg F (ChargeSupervisor F)
  | 0, s => return s
  | n + 1, s =>
    match s.popTransition with
    | (some t, s) => do
      XyOp.perform (.record (.charge t))
      drain n s
    | (none, s) => return s

/-- One turn of the loop; a panic of the supervisor ends the thread. -/
def iteration (s : ChargeSupervisor F) (log : ProtectionLog) :
    XyProg F (Except Panic (ChargeSupervisor F × ProtectionLog)) := do
  XyOp.perform .wdtReset
  let (outcome, log) ← poll log
  let elapsed ← XyOp.perform .lap
  match s.tick outcome.poll elapsed with
  | .error e => return .error e
  | .ok (action, s) =>
    match ← applyAction s action with
    | .error e => return .error e
    | .ok s =>
      let s ← drain s.transitions.items.length s
      match s.phase with
      | .error e => return .error e
      | .ok phase =>
        XyOp.perform (.publish {
          psOffline := outcome.psOffline
          phase
          parked := s.parked
          fault := s.fault
          inhibit := s.inhibit })
        XyOp.perform (.sleep pollInterval)
        return .ok (s, log)

def loop : ℕ → ChargeSupervisor F → ProtectionLog → XyProg F (Except Panic (ChargeSupervisor F))
  | 0, s, _ => return .ok s
  | n + 1, s, log => do
    match ← iteration s log with
    | .error e => return .error e
    | .ok (s, log) => loop n s log

/-- The thread from an MCU reset: boot the buck, then `n` turns of the loop. `none` when the boot
gave up and resets the MCU again. -/
def session (profile : Profile F) (buck : BuckSetup F) (packTemp : PackTemp) (n : ℕ) :
    XyProg F (Option (Except Panic (ChargeSupervisor F))) := do
  XyOp.perform .wdtSubscribe
  match ← bootWithRetries profile buck with
  | none => return none
  | some deviceCode =>
    XyOp.perform (.publishModel deviceCode)
    match ChargeSupervisor.new profile buck.iSetA packTemp with
    | .error e => return some (.error e)
    | .ok s => return some (← loop n s .new)

end Esp32Battery
