import Esp32Battery.Proofs.Deadlines
import Esp32Battery.Proofs.Raises

/-!
# What the charge cap counts

The cap is stepped at the end of the sourcing arm. A tick that stays in absorb and has a sample
gets there and adds its time; one that has none stops at the sensor and adds nothing, and as long
as samples come back within the sensor's timeout such ticks may go on for ever.
-/

namespace Esp32Battery

open Lib Automaton

namespace ChargeSupervisor

section Cap

variable {F : Type} [FloatLike F] {s s' : ChargeSupervisor F} {p : PollResult F} {e : Duration}
  {b : BatterySample F} {a : Action F} {is : List (Input F)} {t : ChargeSupervisor F}

theorem onFault_ne_absorb {r : FaultReason} (h : s.onFault r = .ok (a, s')) :
    s'.state ≠ .absorb := by
  obtain ⟨d, hm, hd⟩ := onFault_eq_ok h
  rw [show s'.state = d from congrArg View.state hm.view]
  rcases hd with ⟨-, -, hn, -⟩ | ⟨-, hn, -⟩
  · obtain ⟨-, rfl | ⟨rfl, -⟩⟩ := ChargeState.next_park hn <;> simp
  · rw [(ChargeState.next_fault hn).1]
    simp

theorem dispatch_regulates (hs : s.state.bringingUp = false) :
    s.dispatch (.clear b) e = ({ s with inhibit := none } : ChargeSupervisor F).regulate b e := by
  unfold dispatch
  simp only []
  rw [if_neg (by rw [hs]; decide)]

theorem regulate_absorbs {exit absorb : Debounce} (hs : s.state = .absorb)
    (hx : s.exit.stepLeaky (b.chargingA < s.profile.exitAbsorbA) e exitDebounce
      = .ok (false, exit))
    (hc : s.absorb.stepLeaky (s.atCvPlateau b.voltage) e maxAbsorb = .ok (false, absorb))
    (ht : (s.chargeTotal.step true e maxCharge).1 = false) :
    s.regulate b e = .ok (.none, { s with
      exit, absorb, chargeTotal := (s.chargeTotal.step true e maxCharge).2 }) := by
  have hx' : s.exit.stepLeaky (decide (s.state = .absorb ∧ b.chargingA < s.profile.exitAbsorbA)) e
      exitDebounce = .ok (false, exit) := by
    rw [← hx]
    simp [hs]
  unfold regulate
  split
  · rename_i next hn
    rw [hs] at hn
    cases hn
  · simp only [hx', ok_bind]
    rw [if_neg (by simp [hs]), if_neg (by simp), if_pos hs]
    unfold absorbCaps
    rw [show ({ s with exit } : ChargeSupervisor F).atCvPlateau b.voltage
      = s.atCvPlateau b.voltage from rfl]
    simp only [hc, ok_bind]
    rw [if_neg (by decide), if_neg (by rw [ht]; decide)]
    rfl

/-- A tick that begins and ends in absorb asks for nothing, and steps the cap unless it has no
sample. -/
theorem tick_absorbs (hs : s.state = .absorb) (hs' : s'.state = .absorb)
    (h : s.tick p e = .ok (a, s')) :
    a = .none ∧ (p.usableBattery = none ∧ s'.chargeTotal = s.chargeTotal ∨
      s.chargeTotal.step true e maxCharge = (false, s'.chargeTotal)) := by
  have hsrc : s.state.sourcing = true := by rw [hs]; rfl
  rcases tick_eq_ok h with hr | ⟨s₁, v, s₂, hr, hg, hd⟩
  · have hterm := (reconcile_decides hr).1
    rw [hs'] at hterm
    exact absurd hterm (not_terminal (.inl rfl))
  have hs₁ : s₁ = s := by
    cases reconcile_cases hr with
    | agree => rfl
    | hold cause _ _ _ hn hm =>
      obtain ⟨act, hj, -⟩ := dispatch_judged (reconcile_cases hr).ready hg hd
      have hb : s₁.view.state.bringingUp = true := by
        rw [hm.view]
        exact ChargeState.bringingUp_of_holding (ChargeState.next_selfDisabled hn)
      have hno := hj.bringingUp hb
      rw [show s'.view.state = .absorb from hs'] at hno
      cases hno
    | resume _ hh =>
      rw [hs] at hh
      cases hh
  subst hs₁
  have hcap : s₂.chargeTotal = s₁.chargeTotal ∧ s₂.state = .absorb := by
    obtain ⟨_, _, _, _, _, _, rfl⟩ := gauntlet_clocked hg
    exact ⟨rfl, hs⟩
  cases v with
  | latch r => exact absurd hs' (onFault_ne_absorb hd)
  | inhibit i =>
    cases hd
    exact ⟨rfl, .inl ⟨((gauntlet_inhibit hg).1 hsrc).2, hcap.1⟩⟩
  | clear b =>
    rw [dispatch_regulates (by rw [hcap.2]; rfl)] at hd
    cases regulate_cases hd with
    | retarget next hn =>
      have hn' : ChargeState.absorb.retargetTo = some next := hcap.2 ▸ hn
      cases hn'
    | rise hst => cases hcap.2.symm.trans hst
    | fall _ _ hm =>
      rw [hm.state] at hs'
      cases hs'
    | absorbTimeout _ _ _ hf => exact absurd hs' (onFault_ne_absorb hf)
    | chargeTimeout _ _ _ _ hf => exact absurd hs' (onFault_ne_absorb hf)
    | absorbing _ _ _ hfired =>
      refine ⟨rfl, .inr ?_⟩
      rw [← hcap.1]
      exact Prod.ext hfired rfl
    | idle _ hne => exact absurd hcap.2 hne

/-- A stretch of turns whose ticks all begin and end in absorb. -/
inductive Absorbs : ChargeSupervisor F → List (Input F) → ChargeSupervisor F → Prop
  | nil (s : ChargeSupervisor F) : Absorbs s [] s
  | cons {s s₁ s' t : ChargeSupervisor F} {i : Input F} {is : List (Input F)} {a : Action F} :
      s.state = .absorb → s.tick i.poll i.elapsed = .ok (a, s₁) → s₁.state = .absorb →
      s.turn i = .ok (a, s') → Absorbs s' is t → Absorbs s (i :: is) t

/-- The time that passes on ticks without a usable sample. -/
def unsampledNanos (is : List (Input F)) : ℕ :=
  totalNanos (is.filter fun i => i.poll.usableBattery.isNone)

theorem unsampledNanos_cons (i : Input F) (is : List (Input F)) : unsampledNanos (i :: is) =
    (if i.poll.usableBattery = none then i.elapsed.nanos else 0) + unsampledNanos is := by
  unfold unsampledNanos totalNanos
  rcases hb : i.poll.usableBattery with _ | b <;> simp [hb]

theorem absorbs_counted {acc : ℕ} (h : s.Absorbs is t)
    (hacc : acc ≤ s.chargeTotal.elapsed.nanos) (hshort : acc < maxCharge.nanos) :
    acc + totalNanos is < maxCharge.nanos + unsampledNanos is := by
  induction h generalizing acc with
  | nil => simpa [totalNanos, unsampledNanos] using hshort
  | @cons s s₁ s' t i is a hs ht hs₁ hturn _ ih =>
    obtain ⟨rfl, hstep⟩ := tick_absorbs hs hs₁ ht
    have hend : s'.chargeTotal = s₁.chargeTotal := by
      obtain ⟨t₁, t₂, tr, ht', hc, rfl⟩ := turn_eq_ok hturn
      cases ht.symm.trans ht'
      rcases hc with ⟨-, hc⟩ | ⟨-, rfl⟩
      · cases hc
        rfl
      · rfl
    have hsum : totalNanos (i :: is) = i.elapsed.nanos + totalNanos is := by simp [totalNanos]
    rw [unsampledNanos_cons, hsum]
    rcases hstep with ⟨hn, hsame⟩ | hstep
    · have hrest := ih (by rwa [hend, hsame]) hshort
      rw [if_pos hn]
      omega
    · have hnext : acc + i.elapsed.nanos ≤ s'.chargeTotal.elapsed.nanos ∧
          acc + i.elapsed.nanos < maxCharge.nanos := by
        rw [Debounce.step_true, Prod.mk.injEq, decide_eq_false_iff_not, Duration.le_def] at hstep
        obtain ⟨hlt, htotal⟩ := hstep
        have hmax := maxCharge.nanos_le
        rw [hend, ← htotal]
        simp only [Duration.nanos_saturatingAdd] at hlt ⊢
        omega
      have hrest := ih hnext.1 hnext.2
      omega

/-- A stretch of absorb lasts less than the cap besides the time it passes without a sample. -/
theorem absorbs_lt (h : s.Absorbs is t) :
    totalNanos is < maxCharge.nanos + unsampledNanos is := by
  have hpos : 0 < maxCharge.nanos := by decide
  have hcounted := absorbs_counted h (Nat.zero_le _) hpos
  omega

end Cap

/-- The board's supervisor on the ramp, `counted` of its time charged to the cap. -/
structure Ramping (counted : ℕ) (missing : Debounce) (s : ChargeSupervisor Float32) : Prop where
  profile : s.profile = packProfile
  iSetA : s.iSetA = buck.iSetA
  state : s.state = .absorb
  packTemp : s.packTemp = .absent
  holds : s.holds.holds = 0
  exit : s.exit = .reset
  absorb : s.absorb = .reset
  batteryMissing : s.batteryMissing = missing
  chargeTotal : s.chargeTotal.elapsed.nanos = counted

/-- A poll of the board's pack on the ramp, well below the plateau, where it has a sample. -/
def rampPoll (battery : Option (BatterySample Float32)) : PollResult Float32 where
  battery
  setpoints := some { vSet := 14.4, iSet := 10.0 }
  output := some .on
  packTempC := none

def rampSample : BatterySample Float32 where
  voltage := 13.0
  current := -3.0

theorem ramp_readings :
    drifts ({ vSet := 14.4, iSet := 10.0 } : Setpoints Float32)
      { vSet := packProfile.absorbV, iSet := buck.iSetA } = false ∧
    (rampPoll (some rampSample)).usableBattery = some rampSample ∧
    ¬ packProfile.absorbV + ovMarginV < rampSample.voltage ∧
    ¬ packProfile.regulationA * overcurrentTol < rampSample.chargingA ∧
    ¬ rampSample.chargingA < packProfile.exitAbsorbA ∧
    ¬ packProfile.absorbV - absorbCvBandV ≤ rampSample.voltage := by
  decide +kernel

namespace Ramping

variable {s : ChargeSupervisor Float32} {counted : ℕ} {missing : Debounce}
  {battery : Option (BatterySample Float32)} {e : Duration}

theorem reconcile (h : s.Ramping counted missing) :
    s.reconcile (rampPoll battery) = .ok (none, s) := by
  unfold ChargeSupervisor.reconcile
  rw [h.state]
  rfl

theorem flap (h : s.Ramping counted missing) : (s.holds.step e).1 = false ∧
    (s.holds.step e).2.holds = 0 := by
  simp [HoldBudget.step, h.holds]

theorem noDrift (h : s.Ramping counted missing) :
    s.setpointsDrift (rampPoll battery).setpoints = .ok false := by
  rw [setpointsDrift_eq rfl (show s.state.setpointPhase = some .absorb by rw [h.state]; rfl)]
  unfold setpointsFor voltageForPhase
  rw [h.profile, h.iSetA]
  exact congrArg Except.ok ramp_readings.1

/-- A tick without a sample counts nothing. -/
theorem skip (h : s.Ramping counted missing) {missing' : Debounce}
    (hmiss : missing.step true e batteryMissingTimeout = (false, missing')) :
    ∃ s', s.tick (rampPoll none) e = .ok (.none, s') ∧ s'.Ramping counted missing' := by
  have hg := gauntlet_noSample h.flap.1 h.noDrift rfl (by rw [h.batteryMissing, hmiss])
    (show (rampPoll none).usableBattery = none from rfl)
  refine ⟨{ s.sampling (rampPoll none) e with inhibit := some .noBatterySample }, ?_, ?_⟩
  · unfold ChargeSupervisor.tick
    simp only [h.reconcile, hg, ok_bind]
    rfl
  · refine ⟨h.profile, h.iSetA, h.state, h.packTemp, h.flap.2, h.exit, h.absorb, ?_, h.chargeTotal⟩
    show (s.batteryMissing.step true e batteryMissingTimeout).2 = _
    rw [h.batteryMissing, hmiss]

theorem clears (h : s.Ramping counted missing) :
    ∃ s', s.gauntlet (rampPoll (some rampSample)) e = .ok (.clear rampSample, s') ∧
      s'.Ramping counted .reset := by
  obtain ⟨-, husable, hvolts, hdraws, -⟩ := ramp_readings
  set p := rampPoll (some rampSample) with hp
  have hsam : s.Sampled p e rampSample := ⟨h.flap.1, h.noDrift, rfl, husable⟩
  have hov : (s.sampling p e).overvolts rampSample = false := by
    unfold overvolts
    rw [show (s.sampling p e).profile = packProfile from h.profile]
    exact decide_eq_false hvolts
  have hoc : (s.sampling p e).overdraws rampSample = false := by
    unfold overdraws
    rw [show (s.sampling p e).profile = packProfile from h.profile]
    exact decide_eq_false hdraws
  have hgate : (s.sampling p e).bringUpGate p rampSample = .clear rampSample := by
    unfold bringUpGate
    rw [show (s.sampling p e).state = .absorb from h.state]
    rfl
  have hg := hsam.gauntlet.trans (gauntletOn_gate (p := p)
    (by unfold OvPasses; split_ifs <;> simp [hov]) (fun _ => by simp [hoc])
    fun hf => by rw [show (s.sampling p e).packTemp = .absent from h.packTemp] at hf; cases hf)
  rw [hgate] at hg
  refine ⟨_, hg, h.profile, h.iSetA, h.state, h.packTemp, h.flap.2, h.exit, h.absorb, ?_,
    h.chargeTotal⟩
  show (s.batteryMissing.step p.usableBattery.isNone e batteryMissingTimeout).2 = .reset
  rw [husable]
  rfl

theorem counts (h : s.Ramping counted missing) (hlt : counted + e.nanos < maxCharge.nanos) :
    ∃ s', s.regulate rampSample e = .ok (.none, s') ∧
      s'.Ramping (counted + e.nanos) missing := by
  obtain ⟨-, -, -, -, htail, hcv⟩ := ramp_readings
  have hx : s.exit.stepLeaky (rampSample.chargingA < s.profile.exitAbsorbA) e exitDebounce
      = .ok (false, .reset) := by
    rw [h.exit, h.profile, decide_eq_false htail]
    exact Debounce.stepLeaky_reset (by decide)
  have hc : s.absorb.stepLeaky (s.atCvPlateau rampSample.voltage) e maxAbsorb
      = .ok (false, .reset) := by
    unfold atCvPlateau
    rw [h.absorb, h.profile, decide_eq_false hcv]
    exact Debounce.stepLeaky_reset (by decide)
  have htotal : (s.chargeTotal.step true e maxCharge).1 = false ∧
      (s.chargeTotal.step true e maxCharge).2.elapsed.nanos = counted + e.nanos := by
    have hmax := maxCharge.nanos_le
    rw [Debounce.step_true]
    simp only [decide_eq_false_iff_not, Duration.le_def, Duration.nanos_saturatingAdd,
      h.chargeTotal]
    omega
  exact ⟨_, regulate_absorbs h.state hx hc htotal.1, h.profile, h.iSetA, h.state, h.packTemp,
    h.holds, rfl, rfl, h.batteryMissing, htotal.2⟩

/-- A tick with a sample counts its time. -/
theorem count (h : s.Ramping counted missing) (hlt : counted + e.nanos < maxCharge.nanos) :
    ∃ s', s.tick (rampPoll (some rampSample)) e = .ok (.none, s') ∧
      s'.Ramping (counted + e.nanos) .reset := by
  obtain ⟨g, hg, hgr⟩ := h.clears (e := e)
  have hclear : ({ g with inhibit := none } : ChargeSupervisor Float32).Ramping counted .reset :=
    ⟨hgr.1, hgr.2, hgr.3, hgr.4, hgr.5, hgr.6, hgr.7, hgr.8, hgr.9⟩
  obtain ⟨s', hr, hs'⟩ := hclear.counts hlt
  refine ⟨s', ?_, hs'⟩
  unfold ChargeSupervisor.tick
  simp only [h.reconcile, hg, ok_bind]
  rw [dispatch_regulates (by rw [hgr.state]; rfl)]
  exact hr

end Ramping

theorem turn_of_tick {s s' : ChargeSupervisor Float32} {p : PollResult Float32} {e : Duration}
    (h : s.tick p e = .ok (.none, s')) : s.turn ⟨p, e, true, 0⟩ = .ok (.none, s') := by
  unfold turn
  simp only [h, ok_bind, if_true]
  rfl

/-- Nine seconds to a poll without a sample, then one to a poll with one. -/
def gap : List (Input Float32) :=
  [⟨rampPoll none, .fromSecs 9, true, 0⟩, ⟨rampPoll (some rampSample), .fromSecs 1, true, 0⟩]

theorem Ramping.gap {s : ChargeSupervisor Float32} {counted : ℕ} (h : s.Ramping counted .reset)
    (hlt : counted + 1000000000 < maxCharge.nanos) :
    ∃ s' : ChargeSupervisor Float32, (∀ is t, s'.Absorbs is t → s.Absorbs (gap ++ is) t) ∧
      s'.Ramping (counted + 1000000000) .reset := by
  have hmiss : Debounce.reset.step true (.fromSecs 9) batteryMissingTimeout
      = (false, ⟨.fromSecs 9⟩) := by
    decide
  obtain ⟨s₁, ht₁, hs₁⟩ := h.skip hmiss
  obtain ⟨s₂, ht₂, hs₂⟩ := hs₁.count (e := .fromSecs 1) hlt
  refine ⟨s₂, fun is t hrest => ?_, hs₂⟩
  exact .cons h.state ht₁ hs₁.state (turn_of_tick ht₁)
    (.cons hs₁.state ht₂ hs₂.state (turn_of_tick ht₂) hrest)

theorem Ramping.gaps {s : ChargeSupervisor Float32} {counted n : ℕ} (h : s.Ramping counted .reset)
    (hlt : counted + n * 1000000000 < maxCharge.nanos) :
    ∃ t, s.Absorbs (List.replicate n ChargeSupervisor.gap).flatten t := by
  induction n generalizing s counted with
  | zero => exact ⟨s, .nil s⟩
  | succ n ih =>
    have hnext : counted + 1000000000 + n * 1000000000 < maxCharge.nanos := by
      rwa [Nat.succ_mul, Nat.add_comm (n * _), ← Nat.add_assoc] at hlt
    obtain ⟨s', hs, hs'⟩ := h.gap (lt_of_le_of_lt (Nat.le_add_right _ _) hnext)
    obtain ⟨t, ht⟩ := ih hs' hnext
    refine ⟨t, ?_⟩
    rw [List.replicate_succ, List.flatten_cons]
    exact hs _ t ht

theorem totalNanos_gaps (n : ℕ) :
    totalNanos (List.replicate n gap).flatten = n * 10000000000 := by
  induction n with
  | zero => rfl
  | succ n ih =>
    rw [List.replicate_succ, List.flatten_cons]
    unfold totalNanos at ih ⊢
    rw [List.map_append, List.sum_append, ih]
    show 10000000000 + _ = _
    omega

/-- The board's supervisor brought up on a half-charged pack and stepped up to absorb. -/
theorem ramp_start : ∃ s : ChargeSupervisor Float32, s.Reachable ∧ s.Ramping 0 .reset := by
  have hstart : after (bootSupervisor .absent)
      (seconds 1 (restPoll (some (.off .normal))) ++ seconds 1 (restPoll (some .on)))
      = { bootSupervisor .absent with state := .absorb, holds := ⟨0, .fromSecs 2⟩ } := by
    decide +kernel
  have hreach := after_reachable (bootSupervisor_reachable .absent)
    (seconds 1 (restPoll (some (.off .normal))) ++ seconds 1 (restPoll (some .on)))
  rw [hstart] at hreach
  exact ⟨_, hreach, rfl, rfl, rfl, rfl, rfl, rfl, rfl, rfl, rfl⟩

/-- A stretch of absorb is shorter than the cap where no time passes without a sample. -/
theorem charge_cap {F : Type} [FloatLike F] {s t : ChargeSupervisor F} {is : List (Input F)}
    (h : s.Absorbs is t)
    (hb : ∀ i ∈ is, i.poll.usableBattery = none → i.elapsed = .zero) :
    totalNanos is < maxCharge.nanos := by
  have hnone : unsampledNanos is = 0 := by
    unfold unsampledNanos totalNanos
    refine List.sum_eq_zero fun n hn => ?_
    obtain ⟨i, hi, rfl⟩ := List.mem_map.1 hn
    obtain ⟨hmem, hlost⟩ := List.mem_filter.1 hi
    rw [hb i hmem (Option.isNone_iff_eq_none.1 hlost)]
    rfl
  have hlt := absorbs_lt h
  rwa [hnone, Nat.add_zero] at hlt

/-- One tick of eight hours less a second, with a sample. -/
theorem charge_cap_tick : ∃ s t : ChargeSupervisor Float32, s.Reachable ∧
    s.Absorbs [⟨rampPoll (some rampSample), .fromSecs 28799, true, 0⟩] t ∧
    totalNanos [(⟨rampPoll (some rampSample), .fromSecs 28799, true, 0⟩ : Input Float32)]
      < maxCharge.nanos := by
  obtain ⟨s, hreach, hramp⟩ := ramp_start
  obtain ⟨t, ht, hst⟩ := hramp.count (e := .fromSecs 28799) (by decide)
  have hstretch : s.Absorbs [⟨rampPoll (some rampSample), .fromSecs 28799, true, 0⟩] t :=
    .cons hramp.state ht hst.state (turn_of_tick ht) (.nil t)
  refine ⟨s, t, hreach, hstretch, charge_cap hstretch ?_⟩
  intro i hi hn
  rw [List.mem_singleton.1 hi, ramp_readings.2.1] at hn
  cases hn

/-- Eight hours of absorb, of which the cap has counted 48 minutes. -/
theorem charge_cap_evaded : ∃ s t : ChargeSupervisor Float32, s.Reachable ∧
    s.Absorbs (List.replicate 2880 gap).flatten t ∧
    maxCharge.nanos ≤ totalNanos (List.replicate 2880 gap).flatten := by
  obtain ⟨s, hreach, hramp⟩ := ramp_start
  obtain ⟨t, ht⟩ := hramp.gaps (n := 2880) (by decide)
  refine ⟨s, t, hreach, ht, ?_⟩
  rw [totalNanos_gaps]
  decide

end ChargeSupervisor

end Esp32Battery
