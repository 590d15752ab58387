import Esp32Battery.Lib.Panic

/-!
# Why the supervisor stopped, or is waiting

What it makes of a buck `PROTECT` cause, the faults that end a charge with what is done about
each, and the inhibits that hold the buck off.
-/

namespace Esp32Battery

inductive ProtectionStatus where
  | normal
  | ovp
  | ocp
  | opp
  | lvp
  | oah
  | ohp
  | otp
  | oep
  | owh
  | icp
deriving DecidableEq, Repr

namespace ProtectionStatus

/-- The buck holds itself off and will re-enable itself once the condition lifts. -/
def isSelfClearing : ProtectionStatus → Bool
  | lvp | otp => true
  | _ => false

def isInputLoss : ProtectionStatus → Bool
  | lvp => true
  | _ => false

/-- An input loss is waited out, whatever is shown of it. -/
theorem isSelfClearing_of_isInputLoss {c : ProtectionStatus} (h : c.isInputLoss) :
    c.isSelfClearing := by
  cases c <;> trivial

end ProtectionStatus

/-- What OUTPUT_EN reported, with the PROTECT cause while it is off. -/
inductive BuckOutput where
  | on
  | off (cause : ProtectionStatus)
deriving DecidableEq, Repr

/-- Why the supervisor declines to energise the buck this tick, with nothing latched. -/
inductive InhibitReason where
  | settingsDrift
  | modbusUnhealthy
  | batterySensorStale
  | noBatterySample
  | overvoltage
  | packTooCold
  | packTooHot
  | packTempStale
  | buckProtection (cause : ProtectionStatus)
deriving DecidableEq, Repr

inductive FaultReason where
  | batterySensorStale
  | modbusUnhealthy
  | overvoltage
  | absorbTimeout
  | chargeTimeout
  | protectionFlapping
  | packTooCold
  | packTooHot
  | packTempStale
  | chargeOvercurrent
  | settingsDrift
  | outputUnexpectedlyOff (cause : ProtectionStatus)
  | outputOnInPending
deriving DecidableEq, Repr

inductive FaultResponse where
  | disable
  | park
deriving DecidableEq, Repr

namespace FaultReason

def response : FaultReason → FaultResponse
  | batterySensorStale | modbusUnhealthy | overvoltage | settingsDrift | protectionFlapping
  | outputUnexpectedlyOff _ | outputOnInPending | packTooCold | packTooHot | packTempStale =>
    .disable
  | absorbTimeout | chargeTimeout | chargeOvercurrent => .park

/-- The same condition seen from a state where the output is already off. -/
def inhibited : FaultReason → Option InhibitReason
  | settingsDrift => some .settingsDrift
  | modbusUnhealthy => some .modbusUnhealthy
  | batterySensorStale => some .batterySensorStale
  | overvoltage => some .overvoltage
  | packTooCold => some .packTooCold
  | packTooHot => some .packTooHot
  | packTempStale => some .packTempStale
  | absorbTimeout | chargeTimeout | chargeOvercurrent | protectionFlapping
  | outputUnexpectedlyOff _ | outputOnInPending => none

/-- A fault that parks has no waiting form. -/
theorem response_of_inhibited {r : FaultReason} {i : InhibitReason} (h : r.inhibited = some i) :
    r.response = .disable := by
  cases r <;> first | rfl | cases h

end FaultReason

end Esp32Battery
