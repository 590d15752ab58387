import Esp32Battery.Charging.Run

/-!
# This board

Its pack, its supply, what the buck is programmed with, and a supervisor fresh from `new`.
-/

namespace Esp32Battery

open Lib

/-- 4S LiFePO4, 50 Ah. -/
def packProfile : Profile Float32 where
  chemistry := .liFePo4
  cells := 4
  capacityAh := 50.0
  absorbV := 14.4
  floatV := 13.5
  regulationA := 10.0
  enterAbsorbA := 3.0
  exitAbsorbA := 2.5

def supply : SupplyBudget Float32 where
  inputNominalV := 24.0
  loadA := 0.0

def buck : BuckSetup Float32 where
  iSetA := 10.0
  limits := { ovpV := 15.0, ocpA := 15.0, lvpV := 22.0 }

theorem forPack_packProfile : Profile.forPack .liFePo4 4 50.0 = .ok packProfile := by
  decide +kernel

theorem buckSetup_buck : packProfile.buckSetup supply = .ok buck := by
  decide +kernel

def bootSupervisor (packTemp : PackTemp) : ChargeSupervisor Float32 where
  profile := packProfile
  iSetA := buck.iSetA
  state := .boot
  ov := .reset
  overcurrent := .reset
  holds := .new
  packTemp
  packTempMissing := .reset
  absorb := .reset
  chargeTotal := .reset
  exit := .reset
  batteryMissing := .reset
  modbusErr := .reset
  fault := none
  inhibit := none
  transitions := .new

theorem new_bootSupervisor (packTemp : PackTemp) :
    ChargeSupervisor.new packProfile buck.iSetA packTemp = .ok (bootSupervisor packTemp) := rfl

theorem bootSupervisor_reachable (packTemp : PackTemp) : (bootSupervisor packTemp).Reachable :=
  .new (new_bootSupervisor packTemp)

/-- The supervisor a run leaves, if nothing panics on the way. -/
def after (s : ChargeSupervisor Float32) (is : List (Input Float32)) : ChargeSupervisor Float32 :=
  match s.run is with
  | .ok (_, s') => s'
  | .error _ => s

theorem after_reachable {s : ChargeSupervisor Float32} (h : s.Reachable)
    (is : List (Input Float32)) : (after s is).Reachable := by
  unfold after
  rcases hr : s.run is with e | ⟨as, s'⟩
  · exact h
  · exact h.of_run hr

def restPoll (output : Option BuckOutput) : PollResult Float32 where
  battery := some { voltage := 13.0, current := -0.1 }
  setpoints := some { vSet := 13.5, iSet := 10.0 }
  output
  packTempC := none

def fullPoll (output : BuckOutput) (c : Option Float32) : PollResult Float32 :=
  { restPoll (some output) with
    battery := some { voltage := 13.5, current := -0.1 }
    packTempC := c }

/-- A poll each second, its ticket committed. -/
def seconds (n : ℕ) (p : PollResult Float32) : List (Input Float32) :=
  List.replicate n ⟨p, .fromSecs 1, true, 1⟩

/-- Brought up on a full pack. -/
def floatSupervisor : ChargeSupervisor Float32 :=
  after (bootSupervisor .absent) (seconds 1 (fullPoll (.off .normal) none))

end Esp32Battery
