import Esp32Battery.Battery

/-!
# Pack identity

Chemistry, cell count and capacity, the charge setpoints that derive from them, and what is
programmed into the buck once the board's budget is added.
-/

namespace Esp32Battery

open Lib

variable {F : Type} [FloatLike F]

def regulationC : F := 0.2
def exitAbsorbC : F := 0.05
def enterAbsorbC : F := 0.06
def ovMarginV : F := 0.2
def hardwareOvpMarginV : F := ovMarginV * 3.0
def inputLvpMarginV : F := 2.0
def absorbCvBandV : F := 0.1
def overcurrentTol : F := 1.25
def chargeTempMinC : F := 0.0
def chargeTempMaxC : F := 45.0
def setpointDriftTol : F := 0.02
def vSetCeiling : F := 70.0
def iSetCeiling : F := 25.0
def ovpCeiling : F := 72.0
def ocpCeiling : F := 27.0
def lvpFloor : F := 10.0
def lvpCeiling : F := 95.0
def inputMinV : F := 12.0
def ocpHeadroom : F := 1.5

/-- How far below the float target's own resting SoC a pack still counts as full. -/
def fullSocMargin : F := 5.0

/-- The limits that readings are held against are numbers. -/
theorem limits_isFinite : (ovMarginV : Float32).isFinite = true ∧
    (setpointDriftTol : Float32).isFinite = true ∧ (chargeTempMinC : Float32).isFinite = true ∧
      (chargeTempMaxC : Float32).isFinite = true := by
  decide +kernel

structure Setpoints (F : Type) where
  vSet : F
  iSet : F
deriving DecidableEq

structure SafetyLimits (F : Type) where
  ovpV : F
  ocpA : F
  lvpV : F
deriving DecidableEq

structure SupplyBudget (F : Type) where
  inputNominalV : F
  loadA : F

structure BuckSetup (F : Type) where
  iSetA : F
  limits : SafetyLimits F
deriving DecidableEq

structure Profile (F : Type) where
  chemistry : Chemistry
  cells : ℕ
  capacityAh : F
  absorbV : F
  floatV : F
  regulationA : F
  enterAbsorbA : F
  exitAbsorbA : F
deriving DecidableEq

namespace Profile

def forPack (chemistry : Chemistry) (cells : ℕ) (capacityAh : F) : Except Panic (Profile F) := do
  require (0 < cells) "assertion failed: cells > 0"
  require (0.0 < capacityAh) "assertion failed: capacity_ah > 0.0"
  let v := chemistry.chargeVoltages
  let s : F := (cells : F)
  let absorbV := v.absorbV * s
  require (absorbV ≤ vSetCeiling)
    "absorb target exceeds the buck's V_SET ceiling — too many cells in series"
  return {
    chemistry
    cells
    capacityAh
    absorbV
    floatV := v.floatV * s
    regulationA := capacityAh * regulationC
    enterAbsorbA := capacityAh * enterAbsorbC
    exitAbsorbA := capacityAh * exitAbsorbC }

def soc (p : Profile F) (packVoltageV : F) : Except Panic F :=
  ocvSoc p.chemistry p.cells packVoltageV

/-- Resting state of charge at or above which a pack counts as full. -/
def fullRestSoc (p : Profile F) : Except Panic F := do
  return (← p.soc p.floatV) - fullSocMargin

/-- Everything the buck gets programmed with, from this pack on this board. -/
def buckSetup (p : Profile F) (supply : SupplyBudget F) : Except Panic (BuckSetup F) := do
  let iSetA := p.regulationA + supply.loadA
  let ovpV := p.absorbV + hardwareOvpMarginV
  let ocpA := iSetA * ocpHeadroom
  let lvpV := supply.inputNominalV - inputLvpMarginV
  require (ocpA ≤ ocpCeiling)
    "derived OCP exceeds the buck's ceiling — charge rate plus load budget is too large for this hardware at OCP_HEADROOM"
  require (iSetA ≤ iSetCeiling)
    "charge rate plus load budget exceeds the buck's I_SET ceiling"
  require (ovpV ≤ ovpCeiling)
    "derived OVP exceeds the buck's ceiling — too many cells in series"
  require (lvpFloor ≤ lvpV ∧ lvpV ≤ lvpCeiling)
    "derived input UVLO is outside the buck's LVP range"
  require (inputMinV < lvpV)
    "derived input UVLO is below the buck's minimum operating input — the rail would drop out before the buck cut its output"
  return { iSetA, limits := { ovpV, ocpA, lvpV } }

end Profile

end Esp32Battery
