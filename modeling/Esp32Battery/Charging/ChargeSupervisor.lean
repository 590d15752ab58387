import Esp32Battery.Charging.ChargeState
import Esp32Battery.Charging.Profile
import Esp32Battery.Charging.Reasons
import Esp32Battery.Charging.Window

/-!
# The charge supervisor

The safety gauntlet, the bring-up and the Float/Absorb phase machine. A function that writes the
supervisor returns the one it leaves.
-/

namespace Esp32Battery

open Lib

variable {F : Type} [FloatLike F]

structure BatterySample (F : Type) where
  voltage : F
  current : F
deriving DecidableEq

/-- Charging current as a positive number. -/
def BatterySample.chargingA (b : BatterySample F) : F := -b.current

structure PollResult (F : Type) where
  battery : Option (BatterySample F)
  setpoints : Option (Setpoints F)
  output : Option BuckOutput
  packTempC : Option F
deriving DecidableEq

inductive PackTemp where
  | absent
  | fitted
deriving DecidableEq, Repr

structure EnableTicket where
  resumeAbsorb : Bool
deriving DecidableEq

structure VoltageTicket (F : Type) where
  phase : Phase
  targetV : F
  cycleOutput : Bool
deriving DecidableEq

structure DisableTicket where
  reason : FaultReason
deriving DecidableEq

inductive Action (F : Type) where
  | none
  | enableOutput (ticket : EnableTicket)
  | updateVoltage (ticket : VoltageTicket F)
  | disableOutput (ticket : DisableTicket)
deriving DecidableEq

inductive Verdict (F : Type) where
  | latch (reason : FaultReason)
  | inhibit (reason : InhibitReason)
  | clear (battery : BatterySample F)
deriving DecidableEq

def transitionBuffer : ℕ := 8

structure ChargeSupervisor (F : Type) where
  profile : Profile F
  iSetA : F
  state : ChargeState
  ov : Debounce
  overcurrent : Debounce
  holds : HoldBudget
  packTemp : PackTemp
  packTempMissing : Debounce
  absorb : Debounce
  chargeTotal : Debounce
  exit : Debounce
  batteryMissing : Debounce
  modbusErr : Debounce
  fault : Option FaultReason
  inhibit : Option InhibitReason
  transitions : Deque ChargeTransition transitionBuffer
deriving DecidableEq

def drifts (sp want : Setpoints F) : Bool :=
  setpointDriftTol ≤ FloatLike.abs (sp.vSet - want.vSet) ∨
    setpointDriftTol ≤ FloatLike.abs (sp.iSet - want.iSet)

/-- The sample of a poll, unless a field of it is not finite. -/
def PollResult.usableBattery (p : PollResult F) : Option (BatterySample F) :=
  p.battery.filter fun b => FloatLike.isFinite b.voltage && FloatLike.isFinite b.current

namespace ChargeSupervisor

def new (profile : Profile F) (iSetA : F) (packTemp : PackTemp) :
    Except Panic (ChargeSupervisor F) := do
  require (profile.floatV < profile.absorbV) "assertion failed: profile.absorb_v > profile.float_v"
  require (profile.regulationA ≤ iSetA) "assertion failed: i_set_a >= profile.regulation_a"
  return {
    profile
    iSetA
    state := .boot
    ov := .reset
    overcurrent := .reset
    holds := .new
    packTemp
    packTempMissing := .reset
    absorb := .reset
    chargeTotal := .reset
    exit := .reset
    batteryMissing := .reset
    modbusErr := .reset
    fault := none
    inhibit := none
    transitions := .new }

def phase (s : ChargeSupervisor F) : Except Panic (Option Phase) := s.state.regulatingPhase

def parked (s : ChargeSupervisor F) : Bool := s.state.isParked

def popTransition (s : ChargeSupervisor F) : Option ChargeTransition × ChargeSupervisor F :=
  (s.transitions.popFront.1, { s with transitions := s.transitions.popFront.2 })

def atCvPlateau (s : ChargeSupervisor F) (voltage : F) : Bool :=
  s.profile.absorbV - absorbCvBandV ≤ voltage

def restedFull (s : ChargeSupervisor F) (b : BatterySample F) : Except Panic Bool := do
  if FloatLike.abs b.current < s.profile.exitAbsorbA then
    let soc ← s.profile.soc b.voltage
    let full ← s.profile.fullRestSoc
    return full ≤ soc
  else return false

def voltageForPhase (s : ChargeSupervisor F) : Phase → F
  | .float => s.profile.floatV
  | .absorb => s.profile.absorbV

def setpointsFor (s : ChargeSupervisor F) (phase : Phase) : Setpoints F where
  vSet := s.voltageForPhase phase
  iSet := s.iSetA

def expectedSetpoints (s : ChargeSupervisor F) : Except Panic (Setpoints F) :=
  s.setpointsFor <$> expect s.state.setpointPhase "a latched supervisor regulates to no setpoint"

def targetVoltage (s : ChargeSupervisor F) : Except Panic F :=
  Setpoints.vSet <$> s.expectedSetpoints

def updateVoltageFor (s : ChargeSupervisor F) (next : Phase) : Except Panic (Action F) := do
  let targetV := s.voltageForPhase next
  let live ← s.targetVoltage
  return .updateVoltage { phase := next, targetV, cycleOutput := targetV < live }

def logTransition (s : ChargeSupervisor F) (t : ChargeTransition) :
    Except Panic (ChargeSupervisor F) := do
  let room := if s.transitions.isFull then s.transitions.popFront.2 else s.transitions
  let transitions ← expect (room.pushBack t) "ring has a free slot after pop_front"
  return { s with transitions }

/-- A move to `dest`, and the resets that hang on where it lands. -/
def land (s : ChargeSupervisor F) (dest : ChargeState) : ChargeSupervisor F :=
  let latching := dest = .tripping ∨ dest = .latched
  { s with
    state := dest
    absorb := if latching then s.absorb else .reset
    chargeTotal := if latching then s.chargeTotal else .reset
    exit := if latching then s.exit else .reset
    ov := if dest.holding then .reset else s.ov
    holds := if dest.holding then s.holds.record else s.holds }

/-- The only writer of `state`. -/
def step (s : ChargeSupervisor F) (event : ChargeEvent) : Except Panic (ChargeSupervisor F) := do
  let dest ← expect (s.state.next event) s!"no transition from {s.state.name} on {event.name}"
  let s ← match s.state.loggedAs dest with
    | some t => s.logTransition t
    | none => .ok s
  return s.land dest

def commitEnable (s : ChargeSupervisor F) (ticket : EnableTicket) :
    Except Panic (ChargeSupervisor F) :=
  s.step (if ticket.resumeAbsorb then .enabledBelowFull else .enabled)

def commitVoltage (s : ChargeSupervisor F) (ticket : VoltageTicket F) :
    Except Panic (ChargeSupervisor F) := do
  require (s.state.retargetTo = some ticket.phase)
    "voltage ticket does not match the outstanding retarget"
  s.step .voltageWritten

def commitDisable (s : ChargeSupervisor F) (ticket : DisableTicket) :
    Except Panic (ChargeSupervisor F) := do
  require (s.fault = some ticket.reason) "disable ticket does not match the latched fault"
  s.step .disabled

def disableForLatchedFault (s : ChargeSupervisor F) : Except Panic (Action F) := do
  let reason ← expect s.fault "a latched state carries the fault that put it there"
  return .disableOutput { reason }

/-- Park, or latch and disable. -/
def onFault (s : ChargeSupervisor F) (reason : FaultReason) :
    Except Panic (Action F × ChargeSupervisor F) := do
  let s := { s with fault := some reason, inhibit := none }
  if reason.response = .park ∧ !s.state.isParked then
    let s ← s.step .park
    match s.state.retargetTo with
    | some next => return (← s.updateVoltageFor next, s)
    | none => return (.none, s)
  else
    let s ← s.step .fault
    return (← s.disableForLatchedFault, s)

/-- Bring the machine into agreement with what OUTPUT_EN reports. An action means the tick is
already decided. -/
def reconcile (s : ChargeSupervisor F) (p : PollResult F) :
    Except Panic (Option (Action F) × ChargeSupervisor F) :=
  match s.state, p.output with
  | .tripping, _ => do return (some (← s.disableForLatchedFault), s)
  | .latched, some .on => do
    let s ← s.step .selfEnabled
    return (some (← s.disableForLatchedFault), s)
  | .latched, _ => .ok (some .none, s)
  | state, some (.off cause) =>
    if state.sourcing then
      if cause.isSelfClearing ∧ (state.next .selfDisabled).isSome then do
        return (none, ← s.step .selfDisabled)
      else do
        let (a, s) ← s.onFault (.outputUnexpectedlyOff cause)
        return (some a, s)
    else .ok (none, s)
  | state, some .on =>
    if state.bringingUp then
      if state.holding then do
        return (none, ← s.step .selfEnabled)
      else do
        let (a, s) ← s.onFault .outputOnInPending
        return (some a, s)
    else .ok (none, s)
  | _, none => .ok (none, s)

/-- The same condition disables a sourcing buck and merely blocks the bring-up of an idle one. -/
def faultOrInhibit (s : ChargeSupervisor F) (reason : FaultReason) :
    Except Panic (Verdict F × ChargeSupervisor F) :=
  if s.state.sourcing then .ok (.latch reason, s)
  else do
    let waiting ← expect reason.inhibited
      "a fault reachable with the output off has a waiting form"
    return (.inhibit waiting, s)

def setpointsDrift (s : ChargeSupervisor F) (setpoints : Option (Setpoints F)) :
    Except Panic Bool :=
  match setpoints with
  | none => .ok false
  | some sp => drifts sp <$> s.expectedSetpoints

/-- The last check of the gauntlet: the gates that only mean anything while the output is off. -/
def bringUpGate (s : ChargeSupervisor F) (p : PollResult F) (b : BatterySample F) : Verdict F :=
  if s.state.bringingUp then
    if p.setpoints.isNone then .inhibit .modbusUnhealthy
    else match p.output with
      | some (.off cause) =>
        if cause.isSelfClearing then .inhibit (.buckProtection cause) else .clear b
      | _ => .clear b
  else .clear b

/-- The checks of the gauntlet on a sample: overvoltage, overcurrent, pack temperature, and the
bring-up gates. -/
def gauntletOn (s : ChargeSupervisor F) (p : PollResult F) (b : BatterySample F)
    (elapsed : Duration) : Except Panic (Verdict F × ChargeSupervisor F) :=
  -- 5. Overvoltage, debounced only while regulating.
  let ov : Bool := s.profile.absorbV + ovMarginV < b.voltage
  let ovStep := s.ov.step ov elapsed ovDuration
  let s := { s with ov := ovStep.2 }
  if s.state.sourcing ∧ ovStep.1 then .ok (.latch .overvoltage, s)
  else if ¬ s.state.sourcing ∧ ov then .ok (.inhibit .overvoltage, s)
  else
  -- 6. Charge overcurrent, stepped in both states.
  let isOver : Bool := s.profile.regulationA * overcurrentTol < b.chargingA
  let overStep := s.overcurrent.step isOver elapsed overcurrentDuration
  let s := { s with overcurrent := overStep.2 }
  if overStep.1 ∧ s.state.sourcing then .ok (.latch .chargeOvercurrent, s)
  else
  -- 7. Pack temperature.
  if s.packTemp = .fitted then
    let tempStep := s.packTempMissing.step p.packTempC.isNone elapsed packTempStaleTimeout
    let s := { s with packTempMissing := tempStep.2 }
    if tempStep.1 then s.faultOrInhibit .packTempStale
    else match p.packTempC with
      | some t =>
        if t < chargeTempMinC then s.faultOrInhibit .packTooCold
        else if chargeTempMaxC < t then s.faultOrInhibit .packTooHot
        else .ok (s.bringUpGate p b, s)
      | none => .ok (s.bringUpGate p b, s)
  else .ok (s.bringUpGate p b, s)

/-- The ordered safety gauntlet; the order of the checks is the precedence. -/
def gauntlet (s : ChargeSupervisor F) (p : PollResult F) (elapsed : Duration) :
    Except Panic (Verdict F × ChargeSupervisor F) :=
  -- 1. Protection flapping, which latches whatever the state.
  let flap := s.holds.step elapsed
  let s := { s with holds := flap.2 }
  if flap.1 then .ok (.latch .protectionFlapping, s)
  else
  -- 2. Commanded against reported setpoints, undebounced.
  match s.setpointsDrift p.setpoints with
  | .error e => .error e
  | .ok true => s.faultOrInhibit .settingsDrift
  | .ok false =>
  -- 3. Modbus health.
  let modbus := s.modbusErr.step p.setpoints.isNone elapsed modbusUnhealthyTimeout
  let s := { s with modbusErr := modbus.2 }
  if modbus.1 then s.faultOrInhibit .modbusUnhealthy
  else
  -- 4. Battery sample freshness.
  let missing := s.batteryMissing.step p.usableBattery.isNone elapsed batteryMissingTimeout
  let s := { s with batteryMissing := missing.2 }
  if missing.1 then s.faultOrInhibit .batterySensorStale
  else match p.usableBattery with
    | none => .ok (.inhibit .noBatterySample, s)
    | some b => s.gauntletOn p b elapsed

def absorbCaps (s : ChargeSupervisor F) (b : BatterySample F) (elapsed : Duration) :
    Except Panic (Action F × ChargeSupervisor F) := do
  let (capped, absorb) ← s.absorb.stepLeaky (s.atCvPlateau b.voltage) elapsed maxAbsorb
  let s := { s with absorb }
  if capped then s.onFault .absorbTimeout
  else
    let total := s.chargeTotal.step true elapsed maxCharge
    let s := { s with chargeTotal := total.2 }
    if total.1 then s.onFault .chargeTimeout else return (.none, s)

/-- The sourcing arm: the deferred V_SET write, then the phase machine and the absorb caps. -/
def regulate (s : ChargeSupervisor F) (b : BatterySample F) (elapsed : Duration) :
    Except Panic (Action F × ChargeSupervisor F) :=
  match s.state.retargetTo with
  | some next => do return (← s.updateVoltageFor next, s)
  | none => do
    let chargingA := b.chargingA
    let belowExit := s.state = .absorb ∧ chargingA < s.profile.exitAbsorbA
    let (exitDone, exit) ← s.exit.stepLeaky belowExit elapsed exitDebounce
    let s := { s with exit }
    if s.state = .float ∧ s.profile.enterAbsorbA < chargingA then
      let s ← s.step .taperRose
      return (← s.updateVoltageFor .absorb, s)
    else if s.state = .absorb ∧ exitDone then
      let s ← s.step .taperFell
      return (← s.updateVoltageFor .float, s)
    else if s.state = .absorb then s.absorbCaps b elapsed
    else return (.none, s)

def dispatch (s : ChargeSupervisor F) (verdict : Verdict F) (elapsed : Duration) :
    Except Panic (Action F × ChargeSupervisor F) :=
  match verdict with
  | .latch reason => s.onFault reason
  | .inhibit reason => .ok (.none, { s with inhibit := some reason })
  | .clear b =>
    let s := { s with inhibit := none }
    if s.state.bringingUp then do
      return (.enableOutput { resumeAbsorb := !(← s.restedFull b) }, s)
    else s.regulate b elapsed

def tick (s : ChargeSupervisor F) (p : PollResult F) (elapsed : Duration) :
    Except Panic (Action F × ChargeSupervisor F) := do
  match ← s.reconcile p with
  | (some a, s) => return (a, s)
  | (none, s) =>
    let (verdict, s) ← s.gauntlet p elapsed
    s.dispatch verdict elapsed

def commit (s : ChargeSupervisor F) : Action F → Except Panic (ChargeSupervisor F)
  | .none => .ok s
  | .enableOutput t => s.commitEnable t
  | .updateVoltage t => s.commitVoltage t
  | .disableOutput t => s.commitDisable t

end ChargeSupervisor

end Esp32Battery
