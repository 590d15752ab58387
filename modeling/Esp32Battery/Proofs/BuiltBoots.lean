import Esp32Battery.Board
import Esp32Battery.Lib.ExactField

/-!
# What builds and what boots

The checks a configuration passes when it is built against the ones the supervisor makes of it at
boot, in exact arithmetic. All the figures are ordered as they should be but for the load: a
budget below zero passes every check at build time, and stops the supervisor.
-/

namespace Esp32Battery

open Lib

variable {F : Type}

section Checks

variable [FloatLike F] {chemistry : Chemistry} {cells : ℕ} {capacityAh : F} {p : Profile F}
  {supply : SupplyBudget F} {setup : BuckSetup F}

theorem Profile.forPack_eq_ok (h : forPack chemistry cells capacityAh = .ok p) :
    0 < cells ∧ 0.0 < capacityAh ∧ p.absorbV ≤ vSetCeiling ∧ p = {
      chemistry
      cells
      capacityAh
      absorbV := (chemistry.chargeVoltages : CellVoltages F).absorbV * cells
      floatV := (chemistry.chargeVoltages : CellVoltages F).floatV * cells
      regulationA := capacityAh * regulationC
      enterAbsorbA := capacityAh * enterAbsorbC
      exitAbsorbA := capacityAh * exitAbsorbC } := by
  simp only [forPack, require_bind_eq_ok, decide_eq_true_eq] at h
  obtain ⟨hcells, hcap, hceiling, h⟩ := h
  cases h
  exact ⟨hcells, hcap, hceiling, rfl⟩

theorem Profile.buckSetup_eq_ok (h : p.buckSetup supply = .ok setup) :
    setup.limits.ocpA ≤ ocpCeiling ∧ setup.iSetA ≤ iSetCeiling ∧
    setup.limits.ovpV ≤ ovpCeiling ∧
    (lvpFloor ≤ setup.limits.lvpV ∧ setup.limits.lvpV ≤ lvpCeiling) ∧
    inputMinV < setup.limits.lvpV ∧ setup = {
      iSetA := p.regulationA + supply.loadA
      limits := {
        ovpV := p.absorbV + hardwareOvpMarginV
        ocpA := (p.regulationA + supply.loadA) * ocpHeadroom
        lvpV := supply.inputNominalV - inputLvpMarginV } } := by
  simp only [buckSetup, require_bind_eq_ok, decide_eq_true_eq] at h
  obtain ⟨hocp, hiset, hovp, hlvp, hmin, h⟩ := h
  cases h
  exact ⟨hocp, hiset, hovp, hlvp, hmin, rfl⟩

theorem ChargeSupervisor.new_ok {iSetA : F} (htarget : p.floatV < p.absorbV)
    (hrate : p.regulationA ≤ iSetA) (packTemp : PackTemp) :
    ∃ s, new p iSetA packTemp = .ok s := by
  unfold new
  rw [decide_eq_true htarget, decide_eq_true hrate]
  exact ⟨_, rfl⟩

theorem ChargeSupervisor.new_panics {iSetA : F} (htarget : p.floatV < p.absorbV)
    (hrate : ¬ p.regulationA ≤ iSetA) (packTemp : PackTemp) :
    new p iSetA packTemp = .error ⟨"assertion failed: i_set_a >= profile.regulation_a"⟩ := by
  unfold new
  rw [decide_eq_true htarget, decide_eq_false hrate]
  rfl

end Checks

/-- The order the derived figures are to be in. -/
structure InOrder [FloatLike F] (p : Profile F) (supply : SupplyBudget F) (setup : BuckSetup F) :
    Prop where
  tail : 0.0 < p.exitAbsorbA ∧ p.exitAbsorbA < p.enterAbsorbA ∧ p.enterAbsorbA < p.regulationA
  currents : p.regulationA ≤ setup.iSetA ∧ setup.iSetA < setup.limits.ocpA ∧
    setup.limits.ocpA ≤ ocpCeiling
  targets : p.floatV < p.absorbV ∧ p.absorbV ≤ vSetCeiling
  overvoltage : p.absorbV + ovMarginV < setup.limits.ovpV ∧ setup.limits.ovpV ≤ ovpCeiling
  input : inputMinV < setup.limits.lvpV ∧ setup.limits.lvpV < supply.inputNominalV

variable [ExactField F] {chemistry : Chemistry} {cells : ℕ} {capacityAh : F} {p : Profile F}
  {supply : SupplyBudget F} {setup : BuckSetup F}

theorem chargeVoltages_lt (chemistry : Chemistry) :
    (chemistry.chargeVoltages : CellVoltages F).floatV
      < (chemistry.chargeVoltages : CellVoltages F).absorbV := by
  cases chemistry
  all_goals
    simp only [Chemistry.chargeVoltages, ExactField.ofScientific_eq]
    norm_num

/-- The rates and margins, as fractions. -/
theorem figures : (regulationC : F) = 1 / 5 ∧ (enterAbsorbC : F) = 3 / 50 ∧
    (exitAbsorbC : F) = 1 / 20 ∧ (ovMarginV : F) = 1 / 5 ∧ (hardwareOvpMarginV : F) = 3 / 5 ∧
    (inputLvpMarginV : F) = 2 ∧ (ocpHeadroom : F) = 3 / 2 := by
  simp only [regulationC, enterAbsorbC, exitAbsorbC, ovMarginV, hardwareOvpMarginV,
    inputLvpMarginV, ocpHeadroom, ExactField.ofScientific_eq]
  norm_num

/-- What a configuration that builds is sure of, whatever its load. -/
theorem inOrder_iff (hp : Profile.forPack chemistry cells capacityAh = .ok p)
    (hb : p.buckSetup supply = .ok setup) : InOrder p supply setup ↔ 0 ≤ supply.loadA := by
  obtain ⟨hcells, hcap, hceiling, rfl⟩ := Profile.forPack_eq_ok hp
  obtain ⟨hocp, -, hovp, -, hmin, rfl⟩ := Profile.buckSetup_eq_ok hb
  obtain ⟨hreg, henter, hexit, hov, hhov, hlvp, hhead⟩ := figures (F := F)
  have hcap' : 0 < capacityAh := by
    rw [ExactField.ofScientific_eq] at hcap
    simpa using hcap
  have hcells' : (0 : F) < cells := by exact_mod_cast hcells
  simp only [hreg, henter, hexit, hhov, hlvp, hhead] at hocp hovp hmin ⊢
  constructor
  · intro h
    have hload := h.currents.1
    simp only at hload
    linarith
  · intro hload
    refine ⟨⟨?_, ?_, ?_⟩, ⟨?_, ?_, hocp⟩, ⟨?_, hceiling⟩, ⟨?_, hovp⟩, hmin, ?_⟩
    · rw [ExactField.ofScientific_eq]
      simpa using hcap'
    · simp only
      linarith
    · simp only
      linarith
    · simp only
      linarith
    · simp only
      linarith
    · exact mul_lt_mul_of_pos_right (chargeVoltages_lt chemistry) hcells'
    · simp only [hov]
      linarith
    · simp only
      linarith

/-- A configuration that builds boots, with every figure in order, exactly when its load budget is
not negative. -/
theorem built_boots_iff (hp : Profile.forPack chemistry cells capacityAh = .ok p)
    (hb : p.buckSetup supply = .ok setup) (packTemp : PackTemp) :
    ((∃ s, ChargeSupervisor.new p setup.iSetA packTemp = .ok s) ∧ InOrder p supply setup ↔
      0 ≤ supply.loadA) ∧
    (supply.loadA < 0 → ChargeSupervisor.new p setup.iSetA packTemp
      = .error ⟨"assertion failed: i_set_a >= profile.regulation_a"⟩) := by
  have horder := inOrder_iff hp hb
  constructor
  · rw [← horder]
    exact ⟨And.right, fun h =>
      ⟨ChargeSupervisor.new_ok h.targets.1 h.currents.1 packTemp, h⟩⟩
  · intro hload
    obtain ⟨hcells, -, -, rfl⟩ := Profile.forPack_eq_ok hp
    obtain ⟨-, -, -, -, -, rfl⟩ := Profile.buckSetup_eq_ok hb
    have hcells' : (0 : F) < cells := by exact_mod_cast hcells
    refine ChargeSupervisor.new_panics ?_ ?_ packTemp
    · exact mul_lt_mul_of_pos_right (chargeVoltages_lt chemistry) hcells'
    · simp only [not_le]
      linarith

/-- This board's pack with five amps of load, every figure a fraction. -/
theorem built_boots_pack : ∃ (p : Profile ℚ) (setup : BuckSetup ℚ),
    Profile.forPack .liFePo4 4 50 = .ok p ∧ p.buckSetup ⟨24, 5⟩ = .ok setup ∧
    InOrder p ⟨24, 5⟩ setup ∧ ∃ s, ChargeSupervisor.new p setup.iSetA .absent = .ok s := by
  have hp : Profile.forPack .liFePo4 4 50
      = .ok (⟨.liFePo4, 4, 50, 72 / 5, 27 / 2, 10, 3, 5 / 2⟩ : Profile ℚ) := by
    decide +kernel
  have hb : (⟨.liFePo4, 4, 50, 72 / 5, 27 / 2, 10, 3, 5 / 2⟩ : Profile ℚ).buckSetup ⟨24, 5⟩
      = .ok ⟨15, ⟨15, 45 / 2, 22⟩⟩ := by
    decide +kernel
  obtain ⟨hboot, horder⟩ := (built_boots_iff hp hb .absent).1.2 (by decide)
  exact ⟨_, _, hp, hb, horder, hboot⟩

def overdrawn : SupplyBudget Float32 where
  inputNominalV := 24.0
  loadA := -1.0

/-- This board's pack with a load budget of minus one amp builds, and does not boot; exactly so
where nothing rounds. -/
theorem built_reboots : (∃ setup, Profile.forPack .liFePo4 4 50.0 = .ok packProfile ∧
      packProfile.buckSetup overdrawn = .ok setup ∧
      ChargeSupervisor.new packProfile setup.iSetA .absent
        = .error ⟨"assertion failed: i_set_a >= profile.regulation_a"⟩) ∧
    ∃ (p : Profile ℚ) (setup : BuckSetup ℚ), Profile.forPack .liFePo4 4 50 = .ok p ∧
      p.buckSetup ⟨24, -1⟩ = .ok setup ∧
      ChargeSupervisor.new p setup.iSetA .absent
        = .error ⟨"assertion failed: i_set_a >= profile.regulation_a"⟩ :=
  ⟨⟨⟨9.0, ⟨15.0, 13.5, 22.0⟩⟩, by decide +kernel⟩,
    ⟨⟨.liFePo4, 4, 50, 72 / 5, 27 / 2, 10, 3, 5 / 2⟩, ⟨9, ⟨15, 27 / 2, 22⟩⟩, by decide +kernel⟩⟩

end Esp32Battery
