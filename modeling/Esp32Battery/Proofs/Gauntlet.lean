import Esp32Battery.Proofs.Step

/-!
# What the gauntlet does

It moves windows and nothing else. The checks on the link and the sensor come first: a verdict
reached by one of them leaves the windows of the later ones alone. A tick that passes them has a
sample, and the later checks decide on it.
-/

namespace Esp32Battery

open Lib

namespace ChargeSupervisor

variable {F : Type} {s s' : ChargeSupervisor F} {v : Verdict F}

/-- `s'` is `s` with its windows moved. -/
def Clocked (s s' : ChargeSupervisor F) : Prop :=
  ∃ holds modbusErr batteryMissing ov overcurrent packTempMissing,
    s' = { s with holds, modbusErr, batteryMissing, ov, overcurrent, packTempMissing }

theorem Clocked.view (h : s.Clocked s') : s'.view = s.view := by
  obtain ⟨_, _, _, _, _, _, rfl⟩ := h
  rfl

theorem SameBoard.of_clocked (h : s.Clocked s') : s.SameBoard s' := by
  obtain ⟨_, _, _, _, _, _, rfl⟩ := h
  exact ⟨rfl, rfl, rfl⟩

theorem faultOrInhibit_eq_ok {r : FaultReason} (h : s.faultOrInhibit r = .ok (v, s')) :
    s' = s ∧ ((s.state.sourcing = true ∧ v = .latch r) ∨
      (s.state.sourcing = false ∧ ∃ i, r.inhibited = some i ∧ v = .inhibit i)) := by
  unfold faultOrInhibit at h
  split_ifs at h with hs
  · cases h
    exact ⟨rfl, .inl ⟨hs, rfl⟩⟩
  · simp only [bind_eq_ok, expect_eq_ok] at h
    obtain ⟨i, hi, h⟩ := h
    cases h
    exact ⟨rfl, .inr ⟨by simpa using hs, i, hi, rfl⟩⟩

variable {p : PollResult F} {e : Duration} {b : BatterySample F}

theorem bringUpGate_inhibit {i : InhibitReason} (h : s.bringUpGate p b = .inhibit i) :
    s.state.sourcing = false ∧ i ≠ .settingsDrift := by
  unfold bringUpGate at h
  repeat' split at h
  all_goals cases h
  all_goals
    refine ⟨ChargeState.sourcing_of_bringingUp ?_, by simp⟩
    assumption

theorem bringUpGate_ne_latch (r : FaultReason) : s.bringUpGate p b ≠ .latch r := by
  unfold bringUpGate
  repeat' split
  all_goals simp

variable [FloatLike F]

theorem gauntletOn_clocked (h : s.gauntletOn p b e = .ok (v, s')) : s.Clocked s' := by
  unfold gauntletOn at h
  simp only [] at h
  repeat' split at h
  all_goals first
    | (cases h; exact ⟨_, _, _, _, _, _, rfl⟩)
    | (obtain ⟨rfl, -⟩ := faultOrInhibit_eq_ok h; exact ⟨_, _, _, _, _, _, rfl⟩)

theorem gauntlet_clocked (h : s.gauntlet p e = .ok (v, s')) : s.Clocked s' := by
  unfold gauntlet at h
  simp only [] at h
  repeat' split at h
  all_goals first
    | (cases h; done)
    | (cases h; exact ⟨_, _, _, _, _, _, rfl⟩)
    | (obtain ⟨rfl, -⟩ := faultOrInhibit_eq_ok h; exact ⟨_, _, _, _, _, _, rfl⟩)
    | (obtain ⟨_, _, _, _, _, _, rfl⟩ := gauntletOn_clocked h; exact ⟨_, _, _, _, _, _, rfl⟩)

/-- Checks 1 to 4 pass, on the sample `b`. -/
structure Sampled (s : ChargeSupervisor F) (p : PollResult F) (e : Duration)
    (b : BatterySample F) : Prop where
  flap : (s.holds.step e).1 = false
  drift : s.setpointsDrift p.setpoints = .ok false
  modbus : (s.modbusErr.step p.setpoints.isNone e modbusUnhealthyTimeout).1 = false
  battery : p.usableBattery = some b

theorem Sampled.unique {b' : BatterySample F} (h : s.Sampled p e b) (h' : s.Sampled p e b') :
    b' = b := by
  rw [← Option.some.injEq, ← h.battery, ← h'.battery]

/-- The windows checks 1 to 4 have moved. -/
def sampling (s : ChargeSupervisor F) (p : PollResult F) (e : Duration) : ChargeSupervisor F :=
  { s with
    holds := (s.holds.step e).2
    modbusErr := (s.modbusErr.step p.setpoints.isNone e modbusUnhealthyTimeout).2
    batteryMissing := (s.batteryMissing.step p.usableBattery.isNone e batteryMissingTimeout).2 }

theorem Sampled.gauntlet (h : s.Sampled p e b) :
    s.gauntlet p e = (s.sampling p e).gauntletOn p b e := by
  unfold ChargeSupervisor.gauntlet sampling
  have hd : ({ s with holds := (s.holds.step e).2 } : ChargeSupervisor F).setpointsDrift
      p.setpoints = .ok false := h.drift
  simp only [h.flap, hd, h.modbus, h.battery, Option.isNone_some, Debounce.step_false,
    Bool.false_eq_true, if_false]

/-- With no sample and the earlier checks passed, the gauntlet stops at the sensor. -/
theorem gauntlet_noSample (hf : (s.holds.step e).1 = false)
    (hd : s.setpointsDrift p.setpoints = .ok false)
    (hm : (s.modbusErr.step p.setpoints.isNone e modbusUnhealthyTimeout).1 = false)
    (hb : (s.batteryMissing.step true e batteryMissingTimeout).1 = false)
    (hn : p.usableBattery = none) :
    s.gauntlet p e = .ok (.inhibit .noBatterySample, s.sampling p e) := by
  unfold ChargeSupervisor.gauntlet sampling
  have hd' : ({ s with holds := (s.holds.step e).2 } : ChargeSupervisor F).setpointsDrift
      p.setpoints = .ok false := hd
  simp only [hf, hd', hm, hn, hb, Option.isNone_none, Bool.false_eq_true, if_false]

/-- The fault that check 2, 3 or 4 finds. -/
inductive EarlyFault (s : ChargeSupervisor F) (p : PollResult F) (e : Duration) :
    FaultReason → Prop
  | drift : (s.holds.step e).1 = false → s.setpointsDrift p.setpoints = .ok true →
      EarlyFault s p e .settingsDrift
  | modbus : (s.holds.step e).1 = false → s.setpointsDrift p.setpoints = .ok false →
      (s.modbusErr.step p.setpoints.isNone e modbusUnhealthyTimeout).1 = true →
      EarlyFault s p e .modbusUnhealthy
  | battery : (s.holds.step e).1 = false → s.setpointsDrift p.setpoints = .ok false →
      (s.modbusErr.step p.setpoints.isNone e modbusUnhealthyTimeout).1 = false →
      (s.batteryMissing.step p.usableBattery.isNone e batteryMissingTimeout).1 = true →
      EarlyFault s p e .batterySensorStale

/-- What checks 1 to 4 decide when one of them does not pass. -/
inductive Unsampled (s : ChargeSupervisor F) (p : PollResult F) (e : Duration) :
    Verdict F → Prop
  | flapping : (s.holds.step e).1 = true → Unsampled s p e (.latch .protectionFlapping)
  | latch (r : FaultReason) : s.state.sourcing = true → EarlyFault s p e r →
      Unsampled s p e (.latch r)
  | inhibit (r : FaultReason) (i : InhibitReason) : s.state.sourcing = false →
      EarlyFault s p e r → r.inhibited = some i → Unsampled s p e (.inhibit i)
  | noSample : (s.holds.step e).1 = false → s.setpointsDrift p.setpoints = .ok false →
      (s.modbusErr.step p.setpoints.isNone e modbusUnhealthyTimeout).1 = false →
      (s.batteryMissing.step true e batteryMissingTimeout).1 = false → p.usableBattery = none →
      Unsampled s p e (.inhibit .noBatterySample)

theorem EarlyFault.verdict {s₁ : ChargeSupervisor F} {r : FaultReason} (hr : s.EarlyFault p e r)
    (h : s₁.faultOrInhibit r = .ok (v, s')) (hs : s₁.state = s.state) :
    s' = s₁ ∧ s.Unsampled p e v := by
  obtain ⟨rfl, ⟨hsrc, rfl⟩ | ⟨hsrc, i, hi, rfl⟩⟩ := faultOrInhibit_eq_ok h
  · exact ⟨rfl, .latch r (hs ▸ hsrc) hr⟩
  · exact ⟨rfl, .inhibit r i (hs ▸ hsrc) hr hi⟩

/-- Either a sample reaches the later checks, or an earlier one decides and leaves the windows
of the later ones as they were. -/
theorem gauntlet_cases (h : s.gauntlet p e = .ok (v, s')) :
    (∃ b, s.Sampled p e b ∧ (s.sampling p e).gauntletOn p b e = .ok (v, s')) ∨
      (s.Unsampled p e v ∧ ∃ modbusErr batteryMissing,
        s' = { s with holds := (s.holds.step e).2, modbusErr, batteryMissing }) := by
  unfold gauntlet at h
  simp only [] at h
  split at h
  · rename_i hf
    cases h
    exact .inr ⟨.flapping hf, _, _, rfl⟩
  rename_i hf
  rw [Bool.not_eq_true] at hf
  split at h
  · cases h
  · rename_i hd
    obtain ⟨rfl, hu⟩ := EarlyFault.verdict (.drift hf hd) h rfl
    exact .inr ⟨hu, _, _, rfl⟩
  rename_i hd
  split at h
  · rename_i hm
    obtain ⟨rfl, hu⟩ := EarlyFault.verdict (.modbus hf hd hm) h rfl
    exact .inr ⟨hu, _, _, rfl⟩
  rename_i hm
  rw [Bool.not_eq_true] at hm
  split at h
  · rename_i hb
    obtain ⟨rfl, hu⟩ := EarlyFault.verdict (.battery hf hd hm hb) h rfl
    exact .inr ⟨hu, _, _, rfl⟩
  rename_i hb
  rw [Bool.not_eq_true] at hb
  split at h
  · rename_i hn
    cases h
    exact .inr ⟨.noSample hf hd hm (by simpa [hn] using hb) hn, _, _, rfl⟩
  · rename_i b hn
    exact .inl ⟨b, ⟨hf, hd, hm, hn⟩, h⟩

/-- The pack is over the line check 5 draws. -/
def overvolts (s : ChargeSupervisor F) (b : BatterySample F) : Bool :=
  s.profile.absorbV + ovMarginV < b.voltage

/-- The pack takes more than check 6 allows. -/
def overdraws (s : ChargeSupervisor F) (b : BatterySample F) : Bool :=
  s.profile.regulationA * overcurrentTol < b.chargingA

def OvPasses (s : ChargeSupervisor F) (b : BatterySample F) (e : Duration) : Prop :=
  if s.state.sourcing then (s.ov.step (s.overvolts b) e ovDuration).1 = false
  else s.overvolts b = false

def OvercurrentPasses (s : ChargeSupervisor F) (b : BatterySample F) (e : Duration) : Prop :=
  s.state.sourcing = true → (s.overcurrent.step (s.overdraws b) e overcurrentDuration).1 = false

/-- The fault that check 7 finds. -/
inductive TempFault (s : ChargeSupervisor F) (p : PollResult F) (e : Duration) :
    FaultReason → Prop
  | stale : s.packTemp = .fitted →
      (s.packTempMissing.step p.packTempC.isNone e packTempStaleTimeout).1 = true →
      TempFault s p e .packTempStale
  | cold (t : F) : s.packTemp = .fitted → p.packTempC = some t → t < chargeTempMinC →
      TempFault s p e .packTooCold
  | hot (t : F) : s.packTemp = .fitted → p.packTempC = some t → ¬ t < chargeTempMinC →
      chargeTempMaxC < t → TempFault s p e .packTooHot

structure TempPasses (s : ChargeSupervisor F) (p : PollResult F) (e : Duration) : Prop where
  fresh : (s.packTempMissing.step p.packTempC.isNone e packTempStaleTimeout).1 = false
  inRange : ∀ t, p.packTempC = some t → ¬ t < chargeTempMinC ∧ ¬ chargeTempMaxC < t

/-- The windows of checks 5 to 7 moved. -/
def examined (s : ChargeSupervisor F) (p : PollResult F) (b : BatterySample F) (e : Duration) :
    ChargeSupervisor F :=
  { s with
    ov := (s.ov.step (s.overvolts b) e ovDuration).2
    overcurrent := (s.overcurrent.step (s.overdraws b) e overcurrentDuration).2
    packTempMissing := if s.packTemp = .fitted then
        (s.packTempMissing.step p.packTempC.isNone e packTempStaleTimeout).2
      else s.packTempMissing }

theorem examined_fitted (h : s.packTemp = .fitted) : s.examined p b e = { s with
    ov := (s.ov.step (s.overvolts b) e ovDuration).2
    overcurrent := (s.overcurrent.step (s.overdraws b) e overcurrentDuration).2
    packTempMissing :=
      (s.packTempMissing.step p.packTempC.isNone e packTempStaleTimeout).2 } := by
  simp [examined, h]

/-- What checks 5 to 8 decide on a sample, and the windows they move on the way. -/
inductive Examined (s : ChargeSupervisor F) (p : PollResult F) (b : BatterySample F)
    (e : Duration) : Verdict F → ChargeSupervisor F → Prop
  | overvoltage (v : Verdict F) : ¬ s.OvPasses b e →
      (s.state.sourcing = true ∧ v = .latch .overvoltage ∨
        s.state.sourcing = false ∧ v = .inhibit .overvoltage) →
      Examined s p b e v { s with ov := (s.ov.step (s.overvolts b) e ovDuration).2 }
  | overcurrent : s.OvPasses b e → s.state.sourcing = true →
      (s.overcurrent.step (s.overdraws b) e overcurrentDuration).1 = true →
      Examined s p b e (.latch .chargeOvercurrent) { s with
        ov := (s.ov.step (s.overvolts b) e ovDuration).2
        overcurrent := (s.overcurrent.step (s.overdraws b) e overcurrentDuration).2 }
  | temp (r : FaultReason) (v : Verdict F) : s.OvPasses b e → s.OvercurrentPasses b e →
      s.TempFault p e r →
      (s.state.sourcing = true ∧ v = .latch r ∨
        s.state.sourcing = false ∧ ∃ i, r.inhibited = some i ∧ v = .inhibit i) →
      Examined s p b e v (s.examined p b e)
  | gate : s.OvPasses b e → s.OvercurrentPasses b e →
      (s.packTemp = .fitted → s.TempPasses p e) →
      Examined s p b e (s.bringUpGate p b) (s.examined p b e)

theorem gauntletOn_cases (h : s.gauntletOn p b e = .ok (v, s')) : s.Examined p b e v s' := by
  unfold gauntletOn at h
  simp only [] at h
  split at h
  · rename_i hov
    cases h
    refine .overvoltage _ ?_ (.inl ⟨hov.1, rfl⟩)
    simpa [OvPasses, hov.1, overvolts] using hov.2
  rename_i hov
  split at h
  · rename_i hov'
    have hs : s.state.sourcing = false := by simpa using hov'.1
    cases h
    refine .overvoltage _ ?_ (.inr ⟨hs, rfl⟩)
    simpa [OvPasses, hs, overvolts] using hov'.2
  rename_i hov'
  have hpass : s.OvPasses b e := by
    unfold OvPasses overvolts
    split_ifs with hs
    · simpa [hs] using hov
    · simpa [hs] using hov'
  split at h
  · rename_i hoc
    cases h
    exact .overcurrent hpass hoc.2 hoc.1
  rename_i hoc
  have hocp : s.OvercurrentPasses b e := by
    intro hs
    simpa [hs, overdraws] using hoc
  split at h
  · rename_i hfit
    have hex : ∀ r, s.TempFault p e r →
        (s.examined p b e).faultOrInhibit r = .ok (v, s') → s.Examined p b e v s' := by
      intro r hr hv
      obtain ⟨rfl, hverdict⟩ := faultOrInhibit_eq_ok hv
      exact .temp r v hpass hocp hr hverdict
    have heq := examined_fitted (p := p) (b := b) (e := e) hfit
    split at h
    · rename_i hstale
      exact hex _ (.stale hfit hstale) (heq ▸ h)
    rename_i hfresh
    rw [Bool.not_eq_true] at hfresh
    split at h
    · rename_i t ht
      split at h
      · rename_i hcold
        exact hex _ (.cold t hfit ht hcold) (heq ▸ h)
      rename_i hcold
      split at h
      · rename_i hhot
        exact hex _ (.hot t hfit ht hcold hhot) (heq ▸ h)
      rename_i hhot
      cases h
      have hg := Examined.gate (p := p) hpass hocp fun _ =>
        ⟨hfresh, fun t' ht' => by cases ht.symm.trans ht'; exact ⟨hcold, hhot⟩⟩
      rw [heq] at hg
      exact hg
    · rename_i ht
      cases h
      have hg := Examined.gate (p := p) hpass hocp fun _ =>
        ⟨hfresh, fun t' ht' => by cases ht.symm.trans ht'⟩
      rw [heq] at hg
      exact hg
  · rename_i hfit
    cases h
    have hg := Examined.gate (p := p) hpass hocp fun hf => absurd hf hfit
    rw [examined, if_neg hfit] at hg
    exact hg

theorem gauntletOn_gate (hov : s.OvPasses b e) (hoc : s.OvercurrentPasses b e)
    (ht : s.packTemp = .fitted → s.TempPasses p e) :
    s.gauntletOn p b e = .ok (s.bringUpGate p b, s.examined p b e) := by
  have h₁ : ¬ (s.state.sourcing = true ∧ (s.ov.step (s.overvolts b) e ovDuration).1 = true) := by
    rintro ⟨hs, hf⟩
    rw [OvPasses, if_pos hs, hf] at hov
    cases hov
  have h₂ : ¬ (¬ s.state.sourcing = true ∧ s.overvolts b = true) := by
    rintro ⟨hs, hf⟩
    rw [OvPasses, if_neg hs, hf] at hov
    cases hov
  have h₃ : ¬ ((s.overcurrent.step (s.overdraws b) e overcurrentDuration).1 = true ∧
      s.state.sourcing = true) := by
    rintro ⟨hf, hs⟩
    rw [hoc hs] at hf
    cases hf
  unfold gauntletOn
  simp only [overvolts, overdraws] at h₁ h₂ h₃ ⊢
  rw [if_neg h₁, if_neg h₂, if_neg h₃]
  by_cases hf : s.packTemp = .fitted
  · obtain ⟨hfresh, hrange⟩ := ht hf
    rw [if_pos hf, if_neg (by rw [hfresh]; decide)]
    rw [examined_fitted hf]
    split
    · rename_i t ht
      rw [if_neg (hrange t ht).1, if_neg (hrange t ht).2]
      rfl
    · rfl
  · rw [if_neg hf, examined, if_neg hf]
    rfl

/-- Checks 5 to 8 latch on a live output only, what one of 5, 6 and 7 found. -/
theorem Examined.of_latch {r : FaultReason} (h : s.Examined p b e (.latch r) s') :
    s.state.sourcing = true ∧
      (r = .overvoltage ∧ (s.ov.step (s.overvolts b) e ovDuration).1 = true ∨
        r = .chargeOvercurrent ∧
          (s.overcurrent.step (s.overdraws b) e overcurrentDuration).1 = true ∨
        s.TempFault p e r) := by
  generalize hv : Verdict.latch r = v at h
  cases h with
  | overvoltage v hov hv' =>
    rcases hv' with ⟨hs, rfl⟩ | ⟨-, rfl⟩ <;> cases hv
    rw [OvPasses, if_pos hs, Bool.not_eq_false] at hov
    exact ⟨hs, .inl ⟨rfl, hov⟩⟩
  | overcurrent _ hs hfired =>
    cases hv
    exact ⟨hs, .inr (.inl ⟨rfl, hfired⟩)⟩
  | temp r v _ _ hr hv' =>
    rcases hv' with ⟨hs, rfl⟩ | ⟨-, i, -, rfl⟩ <;> cases hv
    exact ⟨hs, .inr (.inr hr)⟩
  | gate => exact absurd hv.symm (bringUpGate_ne_latch r)

/-- Checks 5 to 8 inhibit a dark output only. -/
theorem Examined.of_inhibit {i : InhibitReason} (h : s.Examined p b e (.inhibit i) s') :
    s.state.sourcing = false ∧ i ≠ .settingsDrift := by
  generalize hv : Verdict.inhibit i = v at h
  cases h with
  | overvoltage v _ hv' =>
    rcases hv' with ⟨-, rfl⟩ | ⟨hs, rfl⟩ <;> cases hv
    exact ⟨hs, by simp⟩
  | overcurrent => cases hv
  | temp r v _ _ hr hv' =>
    rcases hv' with ⟨-, rfl⟩ | ⟨hs, i, hi, rfl⟩ <;> cases hv
    refine ⟨hs, ?_⟩
    rintro rfl
    cases hr <;> cases hi
  | gate => exact bringUpGate_inhibit hv.symm

/-- Only flapping latches an idle machine, and only a drift raises `SettingsDrift`. -/
theorem gauntlet_latch {r : FaultReason} (h : s.gauntlet p e = .ok (.latch r, s')) :
    (s.state.sourcing = true ∨ r = .protectionFlapping) ∧
      (r = .settingsDrift → s.setpointsDrift p.setpoints = .ok true) := by
  rcases gauntlet_cases h with ⟨b, -, h⟩ | ⟨hu, -⟩
  · obtain ⟨hs, hr⟩ := (gauntletOn_cases h).of_latch
    refine ⟨.inl hs, ?_⟩
    rintro rfl
    rcases hr with ⟨hr, -⟩ | ⟨hr, -⟩ | hr <;> cases hr
  · cases hu with
    | flapping => exact ⟨.inr rfl, by simp⟩
    | latch r hs hr =>
      refine ⟨.inl hs, ?_⟩
      rintro rfl
      cases hr with
      | drift _ hd => exact hd

theorem gauntlet_inhibit {i : InhibitReason} (h : s.gauntlet p e = .ok (.inhibit i, s')) :
    (s.state.sourcing = true → i = .noBatterySample ∧ p.usableBattery = none) ∧
      (i = .settingsDrift → s.setpointsDrift p.setpoints = .ok true) := by
  rcases gauntlet_cases h with ⟨b, -, h⟩ | ⟨hu, -⟩
  · obtain ⟨hs, hi⟩ := (gauntletOn_cases h).of_inhibit
    exact ⟨fun hs' => absurd (hs.symm.trans hs') (by simp), fun h => absurd h hi⟩
  · cases hu with
    | inhibit r i hs hr hi =>
      refine ⟨fun hs' => absurd hs' (by simp [hs]), ?_⟩
      rintro rfl
      cases hr with
      | drift _ hd => exact hd
      | modbus | battery => cases hi
    | noSample _ _ _ _ hn => exact ⟨fun _ => ⟨rfl, hn⟩, by simp⟩

end ChargeSupervisor

end Esp32Battery
