import Esp32Battery.Lib.Panic

/-!
# The charge state machine

Every state the supervisor can occupy, every event that moves it, and the table of where each
pair lands.
-/

namespace Esp32Battery

inductive Phase where
  | float
  | absorb
deriving DecidableEq, Repr

inductive ChargeState where
  | boot
  | holdFloat
  | holdAbsorb
  | holdParked
  | float
  | absorb
  | toAbsorb
  | toFloat
  | toParked
  | parked
  | tripping
  | latched
deriving DecidableEq, Repr

inductive ChargeEvent where
  | fault
  | park
  | selfDisabled
  | selfEnabled
  | enabled
  | enabledBelowFull
  | taperRose
  | taperFell
  | voltageWritten
  | disabled
deriving DecidableEq, Repr

/-- The moves of the supervisor worth an entry in the event log. -/
inductive ChargeTransition where
  | energised
  | protectHold
  | protectCleared
  | latched
  | parked
deriving DecidableEq, Repr

namespace ChargeEvent

def name : ChargeEvent → String
  | fault => "Fault"
  | park => "Park"
  | selfDisabled => "SelfDisabled"
  | selfEnabled => "SelfEnabled"
  | enabled => "Enabled"
  | enabledBelowFull => "EnabledBelowFull"
  | taperRose => "TaperRose"
  | taperFell => "TaperFell"
  | voltageWritten => "VoltageWritten"
  | disabled => "Disabled"

end ChargeEvent

namespace ChargeState

def name : ChargeState → String
  | boot => "Boot"
  | holdFloat => "HoldFloat"
  | holdAbsorb => "HoldAbsorb"
  | holdParked => "HoldParked"
  | float => "Float"
  | absorb => "Absorb"
  | toAbsorb => "ToAbsorb"
  | toFloat => "ToFloat"
  | toParked => "ToParked"
  | parked => "Parked"
  | tripping => "Tripping"
  | latched => "Latched"

/-- One row of the table, its cells in the order of `ChargeEvent`. -/
def row (fault park selfDis selfEn enabled belowFull taperUp taperDn vWritten disabled :
    Option ChargeState) : ChargeEvent → Option ChargeState
  | .fault => fault
  | .park => park
  | .selfDisabled => selfDis
  | .selfEnabled => selfEn
  | .enabled => enabled
  | .enabledBelowFull => belowFull
  | .taperRose => taperUp
  | .taperFell => taperDn
  | .voltageWritten => vWritten
  | .disabled => disabled

/-- Where each pair lands, or `none` when it cannot arise. -/
def transitions : ChargeState → ChargeEvent → Option ChargeState :=
  let x : Option ChargeState := none
  let trip := some tripping
  let ltch := some latched
  let flt := some float
  let abs := some absorb
  let toa := some toAbsorb
  let tof := some toFloat
  let top := some toParked
  let prk := some parked
  let hldf := some holdFloat
  let hlda := some holdAbsorb
  let hldp := some holdParked
  fun
  --                 Fault Park SelfDis SelfEn Enabled BelowFull TaperUp TaperDn VWritten Disabled
  | boot       => row trip x    x       x      flt     toa       x       x       x        x
  | holdFloat  => row trip x    x       flt    flt     toa       x       x       x        x
  | holdAbsorb => row trip x    x       abs    abs     abs       x       x       x        x
  | holdParked => row trip x    x       prk    prk     prk       x       x       x        x
  | float      => row trip prk  hldf    x      x       x         toa     x       x        x
  | absorb     => row trip top  hlda    x      x       x         x       tof     x        x
  | toAbsorb   => row trip prk  hldf    x      x       x         x       x       abs      x
  | toFloat    => row trip top  hlda    x      x       x         x       x       flt      x
  | toParked   => row trip x    x       x      x       x         x       x       prk      x
  | parked     => row trip x    hldp    x      x       x         x       x       x        x
  | tripping   => row x    x    x       x      x       x         x       x       x        ltch
  | latched    => row x    x    x       trip   x       x         x       x       x        x

def next (s : ChargeState) (event : ChargeEvent) : Option ChargeState := s.transitions event

def sourcing : ChargeState → Bool
  | float | absorb | toAbsorb | toFloat | toParked | parked => true
  | _ => false

/-- The output is off and the supervisor is deciding whether to bring it up. -/
def bringingUp : ChargeState → Bool
  | boot | holdFloat | holdAbsorb | holdParked => true
  | _ => false

/-- Parked on a fault, or on the way there, with the output up. -/
def isParked : ChargeState → Bool
  | toParked | parked => true
  | _ => false

def holding : ChargeState → Bool
  | holdFloat | holdAbsorb | holdParked => true
  | _ => false

/-- Which target the device's V_SET is holding. -/
def setpointPhase : ChargeState → Option Phase
  | boot | holdFloat | holdParked | float | toAbsorb | parked => some .float
  | holdAbsorb | absorb | toFloat | toParked => some .absorb
  | tripping | latched => none

def regulatingPhase (s : ChargeState) : Except Lib.Panic (Option Phase) :=
  if s.sourcing then
    some <$> Lib.expect s.setpointPhase "a sourcing state holds a setpoint"
  else .ok none

/-- The phase an outstanding V_SET write is moving to. -/
def retargetTo : ChargeState → Option Phase
  | toAbsorb => some .absorb
  | toFloat | toParked => some .float
  | _ => none

/-- What moving from `s` to `n` means to the event log. -/
def loggedAs (s n : ChargeState) : Option ChargeTransition :=
  if s = boot ∧ n.sourcing then some .energised
  else if s.holding ∧ n.sourcing then some .protectCleared
  else if s.sourcing ∧ n.holding then some .protectHold
  else if n = tripping then some .latched
  else if !s.isParked ∧ n.isParked then some .parked
  else none

section Table

variable {s d : ChargeState}

theorem sourcing_of_bringingUp (h : s.bringingUp = true) : s.sourcing = false := by
  cases s <;> first | rfl | cases h

theorem bringingUp_of_holding (h : s.holding = true) : s.bringingUp = true := by
  cases s <;> first | rfl | cases h

theorem next_fault (h : s.next .fault = some d) :
    d = .tripping ∧ ∃ phase, s.setpointPhase = some phase := by
  cases s <;> cases h <;> exact ⟨rfl, _, rfl⟩

theorem next_park (h : s.next .park = some d) :
    s.sourcing = true ∧ (d = .parked ∨ d = .toParked ∧ s.setpointPhase = some .absorb) := by
  cases s <;> cases h <;> first | exact ⟨rfl, .inl rfl⟩ | exact ⟨rfl, .inr ⟨rfl, rfl⟩⟩

theorem next_selfDisabled (h : s.next .selfDisabled = some d) : d.holding = true := by
  cases s <;> cases h <;> rfl

/-- Only the buck dropping its own output enters a hold. -/
theorem next_not_holding {event : ChargeEvent} (hne : event ≠ .selfDisabled)
    (h : s.next event = some d) : d.holding = false := by
  cases event <;> first | exact absurd rfl hne | (cases s <;> cases h <;> rfl)

theorem next_selfEnabled (hs : s.holding = true) (h : s.next .selfEnabled = some d) :
    d.sourcing = true := by
  cases s <;> cases hs <;> cases h <;> rfl

theorem retargetTo_absorb (h : s.retargetTo = some .absorb) :
    s = .toAbsorb ∧ s.setpointPhase = some .float := by
  cases s <;> cases h
  exact ⟨rfl, rfl⟩

theorem retargetTo_float (h : s.retargetTo = some .float) : s.setpointPhase = some .absorb := by
  cases s <;> cases h <;> rfl

/-- A machine that has not given up holds some target. -/
theorem exists_setpointPhase (h : s.sourcing = true ∨ s.bringingUp = true) :
    ∃ phase, s.setpointPhase = some phase := by
  cases s <;> first | exact ⟨_, rfl⟩ | (rcases h with h | h <;> cases h)

end Table

end ChargeState

end Esp32Battery
