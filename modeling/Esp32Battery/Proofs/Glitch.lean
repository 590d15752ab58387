import Esp32Battery.Proofs.AbsorbStay
import Esp32Battery.Proofs.Agreement
import Esp32Battery.Proofs.EnergiseGate

/-!
# One write that fails

On a healthy pack, behind a buck that reads back what it holds, one write returns an error. If the
buck did not take it, the supervisor is still right about the buck and repeats it. If the buck did,
they disagree, and the next poll shows it.
-/

namespace Esp32Battery

open Lib Automaton

/-- What a write leaves in the registers. -/
def BuckRegs.wrote (regs : BuckRegs) : XyOp Float32 → BuckRegs
  | .setVoltage v => { regs with vSet := v }
  | .setOutput on => { regs with outputOn := on }
  | .setCurrentLimit a => { regs with iSet := a }
  | .clearProtectionStatus => { regs with protection := .normal }
  | _ => regs

def AbsorbVerdict.parks : AbsorbVerdict → Bool
  | park _ => true
  | _ => false

/-- A buck, and what has come of the loop on it: whether it is `running`, has turned the output on
(`sourced`) and has had its one failing write (`spent`); the `sample` last read; what the polls
have seen since V_SET was written, as long as nothing else was (`stay`); and whether the time at
the plateau or in a stay ever came to its cap (`capped`). -/
structure GlitchBuck where
  regs : BuckRegs
  running : Bool
  sourced : Bool
  spent : Bool
  sample : Option (BatterySample Float32)
  stay : Option (List AbsorbSample)
  capped : Bool

namespace GlitchBuck

/-- After a write that was taken and confirmed. -/
def took (b : GlitchBuck) (op : XyOp Float32) : GlitchBuck := { b with regs := b.regs.wrote op }

/-- A write fails, the only one of the loop. `lost` says when the buck may have taken it. -/
def Fails (lost : GlitchBuck → XyOp Float32 → Prop) (b : GlitchBuck) (op : XyOp Float32)
    (b' : GlitchBuck) : Prop :=
  (b.running = true → b.spent = false) ∧
    ∃ regs, (regs = b.regs ∨ lost b op ∧ regs = b.regs.wrote op) ∧
      b' = { b with regs, spent := b.spent || b.running, stay := none }

/-- After the time of a poll: a stay has seen its sample for as long. -/
def lapped (profile : Profile Float32) (b : GlitchBuck) (elapsed : Duration) : GlitchBuck :=
  match b.stay, b.sample with
  | some l, some sample =>
    let stay := l ++ [⟨sample.chargingA < profile.exitAbsorbA,
      profile.absorbV - absorbCvBandV ≤ sample.voltage, elapsed⟩]
    { b with stay := some stay, capped := b.capped || (absorbVerdict stay).parks }
  | _, _ => b

theorem lapped_eq (profile : Profile Float32) (b : GlitchBuck) (elapsed : Duration) :
    ∃ stay capped, b.lapped profile elapsed = { b with stay, capped } := by
  unfold lapped
  split <;> exact ⟨_, _, rfl⟩

theorem capped_lapped {profile : Profile Float32} {b : GlitchBuck} {elapsed : Duration}
    (h : b.capped = true) : (b.lapped profile elapsed).capped = true := by
  unfold lapped
  split <;> simp [h]

end GlitchBuck

/-- A sample no check has anything against. -/
structure Healthy (profile : Profile Float32) (voltage current : Float32) : Prop where
  finiteVoltage : voltage.isFinite = true
  finiteCurrent : current.isFinite = true
  noOvervoltage : ¬ profile.absorbV + ovMarginV < voltage
  noOvercurrent : ¬ profile.regulationA * overcurrentTol < -current

/-- A buck that never changes its registers by itself, reads them back as they are, and in the loop
fails one write and no read, with a healthy pack behind it. -/
def glitchEnv (profile : Profile Float32) (lost : GlitchBuck → XyOp Float32 → Prop) :
    Env GlitchBuck (XyOp Float32) XyOp.Reply where
  self b b' := b' = b
  answer b op r b' :=
    match op, r with
    | .setOutput on, .ok () =>
      b' = { b.took (.setOutput on) with sourced := b.sourced || on, stay := none }
    | .setVoltage v, .ok () => b' = { b.took (.setVoltage v) with stay := some [] }
    | .setCurrentLimit _, .ok () | .clearProtectionStatus, .ok () => b' = b.took op
    | .setOutput _, .error _ | .setVoltage _, .error _ | .setCurrentLimit _, .error _
    | .clearProtectionStatus, .error _ => b.Fails lost op b'
    | .readStatus, .ok st => b' = b ∧ st.setpoints = ⟨b.regs.vSet, b.regs.iSet⟩ ∧
        st.outputOn = b.regs.outputOn ∧ st.protection = b.regs.protection
    | .readStatus, .error _ => b' = b ∧ b.running = false
    | .batteryReading, r => ∃ reading, r = some reading ∧
        Healthy profile reading.voltage reading.current ∧
        b' = { b with sample := some { voltage := reading.voltage, current := reading.current } }
    | .lap, elapsed => b' = b.lapped profile elapsed
    | .publishModel _, () =>
      b' = { b with running := true, sourced := false, spent := false, stay := none }
    | _, _ => b' = b

/-- The failing writes that the loop bears even if the buck has taken them: enabling an output that
has been on before, and a V_SET within the tolerance of the one before. -/
def harmless (b : GlitchBuck) (op : XyOp Float32) : Prop :=
  b.running = true → match op with
    | .setOutput on => on = true ∧ b.sourced = true
    | .setVoltage v => ¬ setpointDriftTol ≤ (v - b.regs.vSet).abs
    | _ => False

/-- The register holds `v`, or did until a glitch that shows no drift. -/
structure GlitchBuck.Near (v : Float32) (b : GlitchBuck) : Prop where
  near : ¬ setpointDriftTol ≤ (b.regs.vSet - v).abs
  exact : b.spent = false → b.regs.vSet = v

/-- The loop's buck, its output `on` or off and its register near `v`. -/
structure GlitchBuck.At (on sourced : Bool) (i v : Float32) (b : GlitchBuck) : Prop where
  running : b.running = true
  iSet : b.regs.iSet = i
  outputOn : b.regs.outputOn = on
  sourced : b.sourced = sourced
  near : b.Near v

theorem setpointDriftTol_pos : (0 : Float32) < setpointDriftTol := by decide +kernel

theorem GlitchBuck.Near.of_eq {v : Float32} {b : GlitchBuck} (h : b.regs.vSet = v) : b.Near v :=
  ⟨by rw [h]; exact Float32.not_le_abs_sub_self setpointDriftTol_pos v, fun _ => h⟩

/-- A poll that reads `regs`, on a healthy pack. -/
structure Polled (profile : Profile Float32) (regs : BuckRegs) (p : PollResult Float32) :
    Prop where
  setpoints : p.setpoints = some ⟨regs.vSet, regs.iSet⟩
  output : p.output = some (if regs.outputOn then .on else .off regs.protection)
  battery : ∃ b, p.battery = some b ∧ Healthy profile b.voltage b.current

theorem Automaton.Judged.blameless {drift : Phase → Prop} {v w : View} {a : Act}
    (h : Judged drift v w a) (hw : w.fault = none) :
    (a = .none ∨ a = .enable ∧ v.state.bringingUp = true ∨
        ∃ phase, a = .retarget phase ∧ w.state.retargetTo = some phase) ∧
      w.state.setpointPhase = v.state.setpointPhase ∧
      (w.state = v.state ∨ v.state.sourcing = true ∧ w.state.sourcing = true) ∧
      (w.state = .absorb → v.state = .absorb) := by
  cases h with
  | trip | park | toPark => cases hw
  | inhibit | idle => exact ⟨.inl rfl, rfl, .inl rfl, id⟩
  | enable hb => exact ⟨.inr (.inl ⟨rfl, hb⟩), rfl, .inl rfl, id⟩
  | retarget hr => exact ⟨.inr (.inr ⟨_, rfl, hr⟩), rfl, .inl rfl, id⟩
  | rise hs | fall hs =>
    refine ⟨.inr (.inr ⟨_, rfl, rfl⟩), ?_, .inr ⟨?_, rfl⟩, fun h => by cases h⟩
    · rw [hs]
      rfl
    · rw [hs]
      rfl

namespace ChargeSupervisor

/-- A supervisor whose windows are empty and that has found nothing. -/
structure Untroubled (profile : Profile Float32) (s : ChargeSupervisor Float32) : Prop where
  ordered : profile.floatV < profile.absorbV
  profile : s.profile = profile
  packTemp : s.packTemp = .absent
  fault : s.fault = none
  holds : s.holds.holds = 0
  modbusErr : s.modbusErr = .reset
  batteryMissing : s.batteryMissing = .reset
  ov : s.ov = .reset
  overcurrent : s.overcurrent = .reset

/-- The supervisor is right about the buck: the register is near the target it holds, the output
is where it takes it to be, and in absorb its windows hold what the stay has seen. -/
structure Tied (s : ChargeSupervisor Float32) (b : GlitchBuck) : Prop where
  running : b.running = true
  iSet : b.regs.iSet = s.iSetA
  target : ∃ phase, s.state.setpointPhase = some phase ∧ b.Near (s.voltageForPhase phase)
  output : s.state = .boot ∧ b.regs.outputOn = false ∧ b.sourced = false ∨
    s.state.sourcing = true ∧ b.regs.outputOn = true ∧ b.sourced = true
  stay : s.state = .absorb → ∃ l, b.stay = some l ∧ s.Metered l

variable {profile : Profile Float32} {s s' : ChargeSupervisor Float32} {b : GlitchBuck}
  {p : PollResult Float32} {e : Duration} {a : Action Float32} {v : Verdict Float32}

theorem Untroubled.congr (h : s.Untroubled profile) (hb : s.SameBoard s') (hw : s.SameWindows s')
    (hf : s'.fault = s.fault) : s'.Untroubled profile where
  ordered := h.ordered
  profile := hb.profile.trans h.profile
  packTemp := hb.packTemp.trans h.packTemp
  fault := hf.trans h.fault
  holds := by rw [hw.holds]; exact h.holds
  modbusErr := hw.modbusErr.trans h.modbusErr
  batteryMissing := hw.batteryMissing.trans h.batteryMissing
  ov := hw.ov.trans h.ov
  overcurrent := hw.overcurrent.trans h.overcurrent

theorem Tied.agrees (h : s.Tied b) (hp : Polled profile b.regs p) : Agrees p.output s.state := by
  rw [hp.output]
  rcases h.output with ⟨hs, ho, -⟩ | ⟨hs, ho, -⟩
  · rw [ho, hs]
    rfl
  · rw [ho]
    exact hs

theorem Tied.noDrift (h : s.Tied b) (hp : Polled profile b.regs p) :
    s.setpointsDrift p.setpoints = .ok false := by
  obtain ⟨phase, hphase, hnear⟩ := h.target
  rw [setpointsDrift_eq hp.setpoints hphase, Except.ok.injEq]
  have hi : ¬ setpointDriftTol ≤ (b.regs.iSet - s.iSetA).abs := by
    rw [h.iSet]
    exact Float32.not_le_abs_sub_self setpointDriftTol_pos s.iSetA
  exact decide_eq_false (not_or.2 ⟨hnear.near, hi⟩)

/-- The gauntlet finds nothing against an untroubled supervisor and leaves it so. -/
theorem gauntlet_untroubled (hu : s.Untroubled profile) (ht : s.Tied b)
    (hp : Polled profile b.regs p) (hg : s.gauntlet p e = .ok (v, s')) :
    s'.Untroubled profile ∧ ∀ r, v ≠ .latch r := by
  obtain ⟨sample, hsample, hh⟩ := hp.battery
  have hflap : s.holds.step e = (false, ⟨0, s.holds.sinceLast.saturatingAdd e⟩) := by
    simp [HoldBudget.step, hu.holds]
  have husable : p.usableBattery = some sample := by
    simp [PollResult.usableBattery, hsample, hh.finiteVoltage, hh.finiteCurrent]
  have hearly : ∀ r, ¬ s.EarlyFault p e r := by
    rintro r (⟨-, hd⟩ | ⟨-, -, hm⟩ | ⟨-, -, -, hb⟩)
    · rw [ht.noDrift hp] at hd
      cases hd
    · simp [hp.setpoints] at hm
    · simp [husable] at hb
  rcases gauntlet_cases hg with ⟨b', hsam, hon⟩ | ⟨hun, -⟩
  · cases husable.symm.trans hsam.battery
    set t := s.sampling p e with hteq
    have hov : t.overvolts sample = false := by
      unfold overvolts
      rw [hteq, show (s.sampling p e).profile = profile from hu.profile]
      exact decide_eq_false hh.noOvervoltage
    have hover : t.overdraws sample = false := by
      unfold overdraws
      rw [hteq, show (s.sampling p e).profile = profile from hu.profile]
      exact decide_eq_false hh.noOvercurrent
    have hfit : ¬ t.packTemp = .fitted := by
      rw [hteq, show (s.sampling p e).packTemp = .absent from hu.packTemp]
      simp
    cases gauntletOn_cases hon with
    | overvoltage v hno =>
      refine absurd ?_ hno
      unfold OvPasses
      split_ifs <;> simp [hov]
    | overcurrent _ _ hoc => simp [hover] at hoc
    | temp r v _ _ hr => cases hr <;> contradiction
    | gate =>
      refine ⟨⟨hu.ordered, hu.profile, hu.packTemp, hu.fault, ?_, ?_, ?_, ?_, ?_⟩,
        bringUpGate_ne_latch⟩
      · show (s.holds.step e).2.holds = 0
        rw [hflap]
      · show (s.modbusErr.step p.setpoints.isNone e modbusUnhealthyTimeout).2 = .reset
        rw [hp.setpoints]
        rfl
      · show (s.batteryMissing.step p.usableBattery.isNone e batteryMissingTimeout).2 = .reset
        rw [husable]
        rfl
      · show (t.ov.step (t.overvolts sample) e ovDuration).2 = .reset
        rw [hov]
        rfl
      · show (t.overcurrent.step (t.overdraws sample) e overcurrentDuration).2 = .reset
        rw [hover]
        rfl
  · cases hun with
    | flapping hf =>
      rw [hflap] at hf
      cases hf
    | latch r _ hr => exact absurd hr (hearly r)
    | inhibit r i _ hr => exact absurd hr (hearly r)
    | noSample _ _ _ _ hn =>
      rw [husable] at hn
      cases hn

/-- In absorb, what the tick sees is what the buck's stay is given. -/
theorem absorbSample_tied (hu : s.Untroubled profile) (ht : s.Tied b)
    (hp : Polled profile b.regs p) (hs : s.state = .absorb) (h : s.tick p e = .ok (a, s')) :
    ∃ sample, p.battery = some sample ∧ s.absorbSample p e =
      some ⟨sample.chargingA < profile.exitAbsorbA,
        profile.absorbV - absorbCvBandV ≤ sample.voltage, e⟩ := by
  obtain ⟨sample, hsample, hh⟩ := hp.battery
  have husable : p.usableBattery = some sample := by
    simp [PollResult.usableBattery, hsample, hh.finiteVoltage, hh.finiteCurrent]
  have hsrc : s.state.sourcing = true := by
    rw [hs]
    rfl
  refine ⟨sample, hsample, ?_⟩
  have hr := reconcile_agrees (ht.agrees hp)
  rcases tick_eq_ok h with hr' | ⟨s₁, v, s₂, hr', hg, -⟩
  · cases hr.symm.trans hr'
  cases hr.symm.trans hr'
  unfold absorbSample
  simp only [hr, hg]
  obtain ⟨hu₂, hv⟩ := gauntlet_untroubled hu ht hp hg
  have hst : s₂.state = .absorb := (congrArg View.state (gauntlet_clocked hg).view).trans hs
  cases v with
  | latch r => exact absurd rfl (hv r)
  | inhibit i =>
    have hnone := ((gauntlet_inhibit hg).1 hsrc).2
    rw [husable] at hnone
    cases hnone
  | clear sample' =>
    cases husable.symm.trans (gauntlet_clear_sample hsrc hg)
    simp only [if_pos hst, atCvPlateau, hu₂.profile]

/-- Only in absorb does the arm raise a fault, and there a cap's. -/
theorem dispatch_absorbs (h : s.dispatch v e = .ok (a, s')) (hv : ∀ r, v ≠ .latch r)
    (hf : s'.fault ≠ s.fault) : s.state = .absorb := by
  cases dispatch_cases h with
  | latch r => exact absurd rfl (hv r)
  | inhibit | enable => exact absurd rfl hf
  | regulate b _ hreg =>
    cases regulate_cases hreg with
    | absorbTimeout hs | chargeTimeout hs => exact hs
    | rise _ _ _ hm | fall _ _ hm => exact absurd (congrArg View.fault hm.view) hf
    | retarget | absorbing | idle => exact absurd rfl hf

/-- In absorb the arm follows the verdict on the stay the buck has seen by then. -/
theorem tick_lapped (hu : s.Untroubled profile) (ht : s.Tied b) (hp : Polled profile b.regs p)
    (hsample : b.sample = p.battery) (hs : s.state = .absorb) (h : s.tick p e = .ok (a, s')) :
    ∃ l, (b.lapped profile e).stay = some l ∧ s'.Meters l ∧
      (b.lapped profile e).capped = (b.capped || (absorbVerdict l).parks) ∧
      Follows s.fault a s' (absorbVerdict l) := by
  obtain ⟨l, hl, hmeters⟩ := ht.stay hs
  obtain ⟨sample, hbattery, hx⟩ := absorbSample_tied hu ht hp hs h
  obtain ⟨hmeters', hfollows⟩ := tick_metered h fun _ => hmeters
  have hlist := hfollows _ hx
  unfold sampled at hmeters' hlist
  rw [if_pos hs, hx, Option.toList_some] at hmeters' hlist
  refine ⟨_, ?_, hmeters', ?_, hlist⟩
  · simp only [GlitchBuck.lapped, hl, hsample, hbattery]
  · simp only [GlitchBuck.lapped, hl, hsample, hbattery]

/-- A move that keeps the target and the output leaves the supervisor as right. -/
theorem Tied.lapped (ht : s.Tied b) (hb : s.SameBoard s')
    (hphase : s'.state.setpointPhase = s.state.setpointPhase)
    (hstate : s'.state = s.state ∨ s.state.sourcing = true ∧ s'.state.sourcing = true)
    (hstay : s'.state = .absorb → ∃ l, (b.lapped profile e).stay = some l ∧ s'.Metered l) :
    s'.Tied (b.lapped profile e) := by
  obtain ⟨stay, capped, hlap⟩ := b.lapped_eq profile e
  rw [hlap] at hstay ⊢
  refine ⟨ht.running, ht.iSet.trans hb.iSetA.symm, ?_, ?_, hstay⟩
  · obtain ⟨phase, hp, hnear⟩ := ht.target
    refine ⟨phase, hphase.trans hp, ?_⟩
    rw [hb.voltageForPhase]
    exact ⟨hnear.near, hnear.exact⟩
  · rcases hstate with hst | ⟨hsrc, hsrc'⟩
    · rw [hst]
      exact ht.output
    · rcases ht.output with ⟨hs, -⟩ | ⟨-, ho⟩
      · rw [hs] at hsrc
        cases hsrc
      · exact .inr ⟨hsrc', ho⟩

/-- A tick of an untroubled supervisor that is right about the buck, unless a cap is reached: it
is as untroubled and as right, and asks for what it can. -/
theorem tick_untroubled (hu : s.Untroubled profile) (ht : s.Tied b)
    (hp : Polled profile b.regs p) (hsample : b.sample = p.battery)
    (h : s.tick p e = .ok (a, s')) :
    (b.lapped profile e).capped = true ∨ s'.Untroubled profile ∧ s'.Tied (b.lapped profile e) ∧
      ∃ act, s'.Realizes a act ∧ (act = .none ∨ act = .enable ∧ s'.state = .boot ∨
        ∃ phase, act = .retarget phase ∧ s'.state.retargetTo = some phase) := by
  have hr := reconcile_agrees (ht.agrees hp)
  rcases tick_eq_ok h with hr' | ⟨s₁, v, s₂, hr', hg, hd⟩
  · cases hr.symm.trans hr'
  cases hr.symm.trans hr'
  obtain ⟨hu₂, hv⟩ := gauntlet_untroubled hu ht hp hg
  by_cases hf : s'.fault = s₂.fault
  · refine .inr ?_
    have hu' : s'.Untroubled profile := hu₂.congr (.of_dispatch hd) (.of_dispatch hd) hf
    obtain ⟨act, hj, hre⟩ := dispatch_judged (ht.agrees hp).ready hg hd
    obtain ⟨hact, hphase, hstate, habsorb⟩ := hj.blameless hu'.fault
    refine ⟨hu', ht.lapped (.of_tick h) hphase hstate fun habs => ?_, act, hre, ?_⟩
    · obtain ⟨l, hl, hmeters, -⟩ := tick_lapped hu ht hp hsample (habsorb habs) h
      exact ⟨l, hl, hmeters habs⟩
    · refine hact.imp_right (Or.imp_left fun ⟨hact, hbring⟩ => ⟨hact, ?_⟩)
      have hdark : s.state.sourcing = false := ChargeState.sourcing_of_bringingUp hbring
      have hboot : s.state = .boot := by
        rcases ht.output with ⟨hs, -⟩ | ⟨hs, -⟩
        · exact hs
        · rw [hdark] at hs
          cases hs
      rcases hstate with hst | ⟨hs, -⟩
      · exact hst.trans hboot
      · cases hdark.symm.trans hs
  · -- a fault without a latch is a cap's, and raised in absorb
    refine .inl ?_
    have hst : s.state = .absorb :=
      (congrArg View.state (gauntlet_clocked hg).view).symm.trans (dispatch_absorbs hd hv hf)
    obtain ⟨l, -, -, hcapped, hfollows⟩ := tick_lapped hu ht hp hsample hst h
    rw [hu₂.fault] at hf
    rw [hu.fault] at hfollows
    rw [hcapped]
    revert hfollows
    cases absorbVerdict l with
    | park r => simp [AbsorbVerdict.parks]
    | stepDown | stay => exact fun h => absurd h.2.1 hf

theorem commit_untroubled (hu : s.Untroubled profile) (hc : s.commit a = .ok s') :
    s'.Untroubled profile :=
  hu.congr (.of_commit hc) (.of_commit hc) (commit_fault hc)

/-- A turn is over: the register near the target of the phase the machine is then on. -/
theorem Tied.sourcing {phase : Phase} {b' : GlitchBuck} (hb : s.SameBoard s')
    (hs : s'.state.sourcing = true) (hp : s'.state.setpointPhase = some phase)
    (hat : b'.At true true s.iSetA (s.voltageForPhase phase))
    (hstay : s'.state = .absorb → ∃ l, b'.stay = some l ∧ s'.Metered l) : s'.Tied b' := by
  refine ⟨hat.running, hat.iSet.trans hb.iSetA.symm, ⟨phase, hp, ?_⟩,
    .inr ⟨hs, hat.outputOn, hat.sourced⟩, hstay⟩
  rw [hb.voltageForPhase]
  exact hat.near

end ChargeSupervisor

section Device

variable {profile : Profile Float32} {b b' : GlitchBuck} {P : GlitchBuck → Prop}
  {lost : GlitchBuck → XyOp Float32 → Prop}

theorem glitch_stable : (glitchEnv profile lost).Stable P := by
  intro b b' hself hP
  rw [show b' = b from hself]
  exact hP

/-- An operation that leaves the buck as it is. -/
theorem keeps_glitch {op : XyOp Float32}
    (h : ∀ b r b', (glitchEnv profile lost).answer b op r b' → b' = b) :
    (glitchEnv profile lost).Keeps (fun _ _ => True) P op where
  stable := glitch_stable
  safe _ _ := trivial
  answer b r b' hP ha := by
    rw [h b r b' ha]
    exact hP

theorem keeps_record (event : Event) :
    (glitchEnv profile lost).Keeps (fun _ _ => True) P (.record event) :=
  keeps_glitch fun _ _ _ ha => ha

variable {on sourced : Bool} {i v w : Float32}

theorem GlitchBuck.At.setVoltage_ok (h : b.At on sourced i v)
    (ha : (glitchEnv profile lost).answer b (.setVoltage w) (.ok ()) b') :
    b'.At on sourced i w ∧ b'.stay = some [] := by
  rw [show b' = { b.took (.setVoltage w) with stay := some [] } from ha]
  exact ⟨⟨h.running, h.iSet, h.outputOn, h.sourced, .of_eq rfl⟩, rfl⟩

theorem GlitchBuck.At.setOutput_ok {on' : Bool} (h : b.At on sourced i v)
    (ha : (glitchEnv profile lost).answer b (.setOutput on') (.ok ()) b') :
    b'.At on' (sourced || on') i v := by
  rw [show b' = { b.took (.setOutput on') with sourced := b.sourced || on', stay := none } from ha]
  exact ⟨h.running, h.iSet, rfl, by rw [← h.sourced], h.near.near, h.near.exact⟩

/-- A write of V_SET that fails leaves the register near where it was. -/
theorem GlitchBuck.At.setVoltage_error {e : BusError} (h : b.At on sourced i v)
    (ha : (glitchEnv profile harmless).answer b (.setVoltage w) (.error e) b') :
    b'.At on sourced i v ∧ b'.spent = true := by
  obtain ⟨hspent, regs, hregs, rfl⟩ :=
    (show b.Fails harmless (.setVoltage w) b' from ha)
  have hs : (b.spent || b.running) = true := by simp [h.running]
  have hv : b.regs.vSet = v := h.near.exact (hspent h.running)
  refine ⟨?_, hs⟩
  rcases hregs with rfl | ⟨hlost, rfl⟩
  · exact ⟨h.running, h.iSet, h.outputOn, h.sourced, h.near.near,
      fun hn => by cases hs.symm.trans hn⟩
  · have hnear := hlost h.running
    rw [hv] at hnear
    exact ⟨h.running, h.iSet, h.outputOn, h.sourced, hnear, fun hn => by cases hs.symm.trans hn⟩

/-- Switching an output that fails leaves it as it was, or has enabled it again. -/
theorem GlitchBuck.At.setOutput_error {e : BusError} {on' : Bool} (h : b.At on sourced i v)
    (ha : (glitchEnv profile harmless).answer b (.setOutput on') (.error e) b') :
    b.spent = false ∧ b'.spent = true ∧ (b'.At on sourced i v ∨
      on' = true ∧ sourced = true ∧ b'.At true sourced i v) := by
  obtain ⟨hspent, regs, hregs, rfl⟩ :=
    (show b.Fails harmless (.setOutput on') b' from ha)
  have hs : (b.spent || b.running) = true := by simp [h.running]
  have hnear : ∀ {regs : BuckRegs}, regs.vSet = b.regs.vSet →
      GlitchBuck.Near v { b with regs, spent := b.spent || b.running, stay := none } := fun hv =>
    ⟨by rw [hv]; exact h.near.near, fun hn => by cases hs.symm.trans hn⟩
  refine ⟨hspent h.running, hs, ?_⟩
  rcases hregs with rfl | ⟨hlost, rfl⟩
  · exact .inl ⟨h.running, h.iSet, h.outputOn, h.sourced, hnear rfl⟩
  · obtain ⟨hon, hsrc⟩ := hlost h.running
    exact .inr ⟨hon, h.sourced.symm.trans hsrc, h.running, h.iSet, hon, h.sourced, hnear rfl⟩

/-- With the glitch spent, enabling the output does not fail. -/
theorem holds_restore {α : Type} {f : Except BusError Unit → XyProg Float32 α}
    {Q : α → GlitchBuck → Prop} (hf : (glitchEnv profile harmless).Holds (fun _ _ => True)
      (GlitchBuck.At true true i v) (f (.ok ())) Q) :
    (glitchEnv profile harmless).Holds (fun _ _ => True)
      (fun b => ∃ on, b.At on true i v ∧ b.spent = true)
      (XyOp.perform (.setOutput true) >>= f) Q := by
  refine .perform_bind (fun r => match r with
    | .ok _ => GlitchBuck.At true true i v
    | .error _ => fun _ => False) glitch_stable (fun _ _ => trivial) ?_ ?_
  · rintro b (e | _) b' ⟨on, hat, hspent⟩ ha
    · have hunspent := (hat.setOutput_error ha).1
      rw [hspent] at hunspent
      cases hunspent
    · exact hat.setOutput_ok ha
  · rintro (e | _)
    · exact .assume (c := False) (fun _ h => h) False.elim
    · exact hf

/-- A retarget leaves the output on, and the register near the target it wrote, or, to be retried,
near the one it found. One that wrote it live begins a stay. -/
theorem holds_applyUpdateVoltage (ticket : VoltageTicket Float32) :
    (glitchEnv profile harmless).Holds (fun _ _ => True) (GlitchBuck.At true true i v)
      (applyUpdateVoltage ticket)
      fun o => o.leaves (GlitchBuck.At true true i v) fun b =>
        b.At true true i ticket.targetV ∧ (ticket.cycleOutput = false → b.stay = some []) := by
  set Wrote : GlitchBuck → Prop := fun b =>
    b.At true true i ticket.targetV ∧ (ticket.cycleOutput = false → b.stay = some []) with hWrote
  have hretry : ∀ event : Event, (glitchEnv profile harmless).Holds (fun _ _ => True)
      (GlitchBuck.At true true i v)
      (XyOp.perform (.record event) >>= fun _ => pure VoltageWriteOutcome.retry)
      fun o => o.leaves (GlitchBuck.At true true i v) Wrote :=
    fun event => (keeps_record event).bind fun _ => .pure glitch_stable fun _ h => h
  have hcommit : (glitchEnv profile harmless).Holds (fun _ _ => True) Wrote
      (pure VoltageWriteOutcome.committed)
      fun o => o.leaves (GlitchBuck.At true true i v) Wrote :=
    .pure glitch_stable fun _ h => h
  unfold applyUpdateVoltage
  by_cases hc : (!ticket.cycleOutput) = true
  · rw [if_pos hc]
    refine .perform_bind (fun r => match r with
      | .ok _ => Wrote
      | .error _ => GlitchBuck.At true true i v) glitch_stable (fun _ _ => trivial) ?_ ?_
    · rintro b (e | _) b' hat ha
      · exact (hat.setVoltage_error ha).1
      · obtain ⟨hat', hstay⟩ := hat.setVoltage_ok ha
        exact ⟨hat', fun _ => hstay⟩
    · rintro (e | _)
      · exact hretry _
      · exact hcommit
  rw [if_neg hc]
  have hcycled : ∀ b : GlitchBuck, b.At true true i ticket.targetV → Wrote b := fun b hat =>
    ⟨hat, fun hlive => by simp [hlive] at hc⟩
  refine .perform_bind (fun r => match r with
    | .ok _ => GlitchBuck.At false true i v
    | .error _ => GlitchBuck.At true true i v) glitch_stable (fun _ _ => trivial) ?_ ?_
  · rintro b (e | _) b' hat ha
    · obtain ⟨-, -, hat' | ⟨hon, -⟩⟩ := hat.setOutput_error ha
      · exact hat'
      · cases hon
    · exact hat.setOutput_ok ha
  rintro (e | _)
  · exact hretry _
  have hsettle : (glitchEnv profile harmless).Keeps (fun _ _ => True)
      (GlitchBuck.At false true i v) (.sleep stepDownSettle) := keeps_glitch fun _ _ _ ha => ha
  refine hsettle.bind fun _ => ?_
  refine .perform_bind (fun r b => match r with
    | .ok _ => b.At false true i ticket.targetV
    | .error _ => b.At false true i v ∧ b.spent = true) glitch_stable (fun _ _ => trivial) ?_ ?_
  · rintro b (e | _) b' hat ha
    · exact hat.setVoltage_error ha
    · exact (hat.setVoltage_ok ha).1
  rintro (e | _)
  · refine (keeps_record _).bind fun _ => ?_
    refine .mono (holds_restore (.pure glitch_stable fun _ h => h)) (fun _ h => ⟨_, h⟩)
      fun _ _ hQ => hQ
  · refine .perform_bind (fun r b => match r with
      | .ok _ => b.At true true i ticket.targetV
      | .error _ => ∃ on, b.At on true i ticket.targetV ∧ b.spent = true)
      glitch_stable (fun _ _ => trivial) ?_ ?_
    · rintro b (e | _) b' hat ha
      · obtain ⟨-, hspent, hat' | ⟨-, -, hat'⟩⟩ := hat.setOutput_error ha
        · exact ⟨_, hat', hspent⟩
        · exact ⟨_, hat', hspent⟩
      · exact hat.setOutput_ok ha
    rintro (e | _)
    · exact holds_restore (hcommit.mono hcycled fun _ _ hQ => hQ)
    · exact hcommit.mono hcycled fun _ _ hQ => hQ

end Device

section Loop

variable {profile : Profile Float32} {s s₁ : ChargeSupervisor Float32} {b : GlitchBuck}
  {a : Action Float32} {act : Act}

/-- Bringing up an output that is off: enabled and committed, or off as it was. -/
theorem applyEnable_untroubled {t : EnableTicket} (hu : s.Untroubled profile) (ht : s.Tied b)
    (hboot : s.state = .boot) :
    (glitchEnv profile harmless).Holds (fun _ _ => True) (· = b)
      (applyAction s (.enableOutput t))
      fun x b' => ∀ s₁, x = .ok s₁ → s₁.Untroubled profile ∧ s₁.Tied b' := by
  obtain ⟨live, hlive, hnear⟩ := ht.target
  have hphase : live = .float := by
    rw [hboot] at hlive
    cases hlive
    rfl
  have hat : b.At false false s.iSetA (s.voltageForPhase live) := by
    rcases ht.output with ⟨-, ho, hsrc⟩ | ⟨hs, -⟩
    · exact ⟨ht.running, ht.iSet, ho, hsrc, hnear⟩
    · rw [hboot] at hs
      cases hs
  refine .mono (P := GlitchBuck.At false false s.iSetA (s.voltageForPhase live)) ?_
    (by rintro _ rfl; exact hat) fun _ _ hQ => hQ
  refine .perform_bind (fun r => match r with
    | .ok _ => GlitchBuck.At true true s.iSetA (s.voltageForPhase live)
    | .error _ => GlitchBuck.At false false s.iSetA (s.voltageForPhase live))
    glitch_stable (fun _ _ => trivial) ?_ ?_
  · rintro b (e | _) b' hat ha
    · obtain ⟨-, -, hat' | ⟨-, hsrc, -⟩⟩ := hat.setOutput_error ha
      · exact hat'
      · cases hsrc
    · exact hat.setOutput_ok ha
  rintro (e | _)
  · refine (keeps_record _).bind fun _ => .pure glitch_stable ?_
    intro b' hat s₁ hx
    cases hx
    refine ⟨hu, hat.running, hat.iSet, ⟨live, hlive, hat.near⟩,
      .inl ⟨hboot, hat.outputOn, hat.sourced⟩, fun habs => ?_⟩
    rw [hboot] at habs
    cases habs
  · refine .pure glitch_stable ?_
    intro b' hat s₁ hx
    have hc : s.commit (.enableOutput t) = .ok s₁ := hx
    obtain ⟨d, hn, hm⟩ := ChargeSupervisor.step_eq_ok (show s.step _ = .ok s₁ from hx)
    have hst : s₁.state.sourcing = true ∧ s₁.state.setpointPhase = some .float := by
      rw [hm.state]
      rw [hboot] at hn
      revert hn
      split_ifs <;> rintro ⟨⟩ <;> exact ⟨rfl, rfl⟩
    rw [hphase] at hat
    refine ⟨ChargeSupervisor.commit_untroubled hu hc,
      .sourcing (.of_commit hc) hst.1 hst.2 hat fun habs => ?_⟩
    rw [habs] at hst
    cases hst.2

/-- Retargeting an output that is on: the register written and the write committed, or both to be
done again. -/
theorem applyRetarget_untroubled {t : VoltageTicket Float32} {phase : Phase}
    (hu : s.Untroubled profile) (ht : s.Tied b)
    (hre : s.Realizes (.updateVoltage t) (.retarget phase))
    (hretarget : s.state.retargetTo = some phase) :
    (glitchEnv profile harmless).Holds (fun _ _ => True) (· = b)
      (applyAction s (.updateVoltage t))
      fun x b' => ∀ s₁, x = .ok s₁ → s₁.Untroubled profile ∧ s₁.Tied b' := by
  obtain ⟨live, hlive, hnear⟩ := ht.target
  have htarget : t.targetV = s.voltageForPhase phase := by
    obtain ⟨-, -, rfl⟩ := hre
    rfl
  have hout : s.state.sourcing = true ∧ b.regs.outputOn = true ∧ b.sourced = true := by
    rcases ht.output with ⟨hs, -⟩ | hout
    · rw [hs] at hretarget
      cases hretarget
    · exact hout
  -- the absorb target is above the one it is written from
  have hraise : phase = .absorb → t.cycleOutput = false := by
    rintro rfl
    obtain ⟨from_, hfrom, rfl⟩ := hre
    have hfloat : from_ = .float := by
      cases hs : s.state <;> rw [hs] at hretarget hfrom <;> cases hretarget
      cases hfrom
      rfl
    rw [hfloat]
    refine decide_eq_false ?_
    show ¬ s.profile.absorbV < s.profile.floatV
    rw [hu.profile]
    exact Float32.lt_asymm hu.ordered
  have hat : b.At true true s.iSetA (s.voltageForPhase live) :=
    ⟨ht.running, ht.iSet, hout.2.1, hout.2.2, hnear⟩
  refine .mono (P := GlitchBuck.At true true s.iSetA (s.voltageForPhase live)) ?_
    (by rintro _ rfl; exact hat) fun _ _ hQ => hQ
  refine (holds_applyUpdateVoltage t).bind ?_
  rintro (_ | _)
  · refine .pure glitch_stable ?_
    rintro b' ⟨hat, hbegun⟩ s₁ hx
    have hc : s.commit (.updateVoltage t) = .ok s₁ := hx
    obtain ⟨hcom, -⟩ := ChargeSupervisor.commit_committed hre hc
    have hsrc := hcom.sourcing hout.1
    have hphase : s₁.state.setpointPhase = some phase :=
      hcom.setpointPhase.resolve_left (not_terminal (.inl hsrc))
    rw [htarget] at hat
    refine ⟨ChargeSupervisor.commit_untroubled hu hc,
      .sourcing (.of_commit hc) hsrc hphase hat fun habs => ⟨[], hbegun (hraise ?_), ?_⟩⟩
    · rw [habs] at hphase
      cases hphase
      rfl
    · rcases ChargeSupervisor.commit_cases hc with ⟨hnone, -⟩ | ⟨-, d, -, -, hm⟩
      · cases hnone
      · exact hm.meters habs
  · refine .pure glitch_stable ?_
    intro b' hat s₁ hx
    cases hx
    refine ⟨hu, .sourcing (.refl s) hout.1 hlive hat fun habs => ?_⟩
    rw [habs] at hretarget
    cases hretarget

/-- Carrying out what an untroubled supervisor asks for leaves it right about the buck. -/
theorem applyAction_untroubled (hu : s.Untroubled profile) (ht : s.Tied b)
    (hre : s.Realizes a act) (hact : act = .none ∨ act = .enable ∧ s.state = .boot ∨
      ∃ phase, act = .retarget phase ∧ s.state.retargetTo = some phase) :
    (glitchEnv profile harmless).Holds (fun _ _ => True) (· = b) (applyAction s a)
      fun x b' => ∀ s₁, x = .ok s₁ → s₁.Untroubled profile ∧ s₁.Tied b' := by
  rcases hact with rfl | ⟨rfl, hboot⟩ | ⟨phase, rfl, hretarget⟩
  · cases a with
    | none =>
      refine .pure glitch_stable ?_
      rintro _ rfl s₁ hx
      cases hx
      exact ⟨hu, ht⟩
    | _ => cases hre
  · cases a with
    | enableOutput t => exact applyEnable_untroubled hu ht hboot
    | _ => cases hre
  · cases a with
    | updateVoltage t => exact applyRetarget_untroubled hu ht hre hretarget
    | _ => cases hre

/-- A poll leaves the registers alone and, in the loop, reads them as they are. -/
theorem holds_poll (lost : GlitchBuck → XyOp Float32 → Prop) (log : ProtectionLog) :
    (glitchEnv profile lost).Holds (fun _ _ => True) (· = b) (poll log) fun x b' =>
      b' = { b with sample := x.1.poll.battery } ∧
        (b.running = true → Polled profile b.regs x.1.poll) := by
  have hupdate : ∀ ps, (glitchEnv profile lost).Keeps (fun _ _ => True) (· = b) (.updatePs ps) :=
    fun _ => keeps_glitch fun _ _ _ ha => ha
  have hbattery : ∀ {α : Type} {f : Option (BatterySample Float32) → XyProg Float32 α}
      {Q : α → GlitchBuck → Prop}, (∀ sample, Healthy profile sample.voltage sample.current →
        (glitchEnv profile lost).Holds (fun _ _ => True) (· = { b with sample := some sample })
          (f (some sample)) Q) →
      (glitchEnv profile lost).Holds (fun _ _ => True) (· = b) (readBattery >>= f) Q := by
    intro α f Q hf
    refine .perform_bind (fun r b' => ∃ reading, r = some reading ∧
      Healthy profile reading.voltage reading.current ∧
      b' = { b with sample := some { voltage := reading.voltage, current := reading.current } })
      glitch_stable (fun _ _ => trivial) ?_ fun r => ?_
    · rintro _ r b' rfl ha
      exact ha
    · refine .assume (c := ∃ reading, r = some reading ∧
        Healthy profile reading.voltage reading.current)
        (fun _ ⟨reading, hr, hh, _⟩ => ⟨reading, hr, hh⟩) ?_
      rintro ⟨reading, rfl, hh⟩
      refine (hf { voltage := reading.voltage, current := reading.current } hh).mono ?_
        fun _ _ hQ => hQ
      rintro _ ⟨_, ⟨⟩, -, hb⟩
      exact hb
  unfold poll
  refine .perform_bind (fun r b' => b' = b ∧ match r with
    | .ok st => st.setpoints = ⟨b.regs.vSet, b.regs.iSet⟩ ∧ st.outputOn = b.regs.outputOn ∧
        st.protection = b.regs.protection
    | .error _ => b.running = false) glitch_stable (fun _ _ => trivial) ?_ ?_
  · rintro _ (e | st) b' rfl ha
    · exact ha
    · exact ha
  rintro (e | st)
  · refine .assume (c := b.running = false) (fun _ h => h.2) fun hrun => ?_
    refine .mono (P := (· = b)) ?_ (fun _ h => h.1) fun _ _ hQ => hQ
    refine (keeps_record _).bind fun _ => hbattery fun sample _ => ?_
    refine .pure glitch_stable fun _ hb => ⟨hb, fun h => ?_⟩
    rw [hrun] at h
    cases h
  · refine .assume (c := st.setpoints = ⟨b.regs.vSet, b.regs.iSet⟩ ∧
      st.outputOn = b.regs.outputOn ∧ st.protection = b.regs.protection) (fun _ h => h.2) ?_
    rintro ⟨hsp, hout, hprot⟩
    refine .mono (P := (· = b)) ?_ (fun _ h => h.1) fun _ _ hQ => hQ
    refine holds_classify (fun _ => keeps_record _) log st fun x hx => ?_
    refine (hupdate _).bind fun _ => hbattery fun sample hh => ?_
    refine .pure glitch_stable fun _ hb => ⟨hb, fun _ => ⟨?_, ?_, sample, rfl, hh⟩⟩
    · exact congrArg some hsp
    · rw [← hout, ← hprot, ← hx]

/-- A cap once reached stays so. -/
theorem keeps_capped {lost : GlitchBuck → XyOp Float32 → Prop} (op : XyOp Float32) :
    (glitchEnv profile lost).Keeps (fun _ _ => True) (fun b => b.capped = true) op where
  stable := glitch_stable
  safe _ _ := trivial
  answer b r b' hb ha := by
    cases op with
    | setVoltage | setOutput | setCurrentLimit | clearProtectionStatus =>
      rcases r with e | _
      · obtain ⟨-, regs, -, rfl⟩ := ha
        exact hb
      · cases (show b' = _ from ha)
        exact hb
    | readStatus =>
      have hb' : b' = b := by
        rcases r with e | st
        · exact ha.1
        · exact ha.1
      rw [hb']
      exact hb
    | batteryReading =>
      obtain ⟨reading, -, -, rfl⟩ := ha
      exact hb
    | lap =>
      rw [show b' = b.lapped profile r from ha]
      exact GlitchBuck.capped_lapped hb
    | _ =>
      cases (show b' = _ from ha)
      exact hb

/-- Between turns: the supervisor untroubled and right about the buck, unless a cap was reached. -/
def Bears (profile : Profile Float32) (s : ChargeSupervisor Float32) (b : GlitchBuck) : Prop :=
  b.capped = true ∨ s.Untroubled profile ∧ s.Tied b

/-- Once the buck is polled: that, and the poll has read it. -/
def BearsPolled (profile : Profile Float32) (s : ChargeSupervisor Float32)
    (p : PollResult Float32) (b : GlitchBuck) : Prop :=
  b.capped = true ∨
    (s.Untroubled profile ∧ s.Tied b) ∧ Polled profile b.regs p ∧ b.sample = p.battery

theorem holds_applyAction_capped (s : ChargeSupervisor Float32) (a : Action Float32) :
    (glitchEnv profile harmless).Holds (fun _ _ => True) (fun b => b.capped = true)
      (applyAction s a) fun x b => ∀ s₁, x = .ok s₁ → Bears profile s₁ b :=
  (holds_applyAction_keeps keeps_capped s a).mono (fun _ h => h) fun _ _ h s₁ hx =>
    .inl (h s₁ hx).1

theorem glitchLoop : LoopRule (glitchEnv profile harmless) (fun _ _ => True) (Bears profile)
    (BearsPolled profile)
    (fun s p e b => ∃ b₀, BearsPolled profile s p b₀ ∧ b = b₀.lapped profile e)
    (Bears profile) where
  feeds s := keeps_glitch fun _ _ _ ha => ha
  polls s log := by
    refine .of_forall fun b hb => ⟨(· = b), rfl, (holds_poll harmless log).mono (fun _ h => h) ?_⟩
    rintro x _ ⟨rfl, hp⟩
    refine hb.imp_right fun ⟨hu, ht⟩ => ⟨⟨hu, ?_⟩, hp ht.running, rfl⟩
    obtain ⟨phase, hphase, hnear⟩ := ht.target
    exact ⟨ht.running, ht.iSet, ⟨phase, hphase, hnear.near, hnear.exact⟩, ht.output, ht.stay⟩
  laps s p := by
    refine .perform glitch_stable (fun _ _ => trivial) ?_ fun _ => glitch_stable
    intro b e b' hb ha
    exact ⟨b, hb, ha⟩
  acts s p e a s₁ ht := by
    refine .of_forall fun b hb => ?_
    obtain ⟨b₀, hb₀, rfl⟩ := hb
    rcases hb₀ with hcap | ⟨⟨hu, htied⟩, hp, hsample⟩
    · exact ⟨_, GlitchBuck.capped_lapped hcap, holds_applyAction_capped s₁ a⟩
    rcases ChargeSupervisor.tick_untroubled hu htied hp hsample ht with
      hcap | ⟨hu₁, ht₁, act, hre, hact⟩
    · exact ⟨_, hcap, holds_applyAction_capped s₁ a⟩
    · refine ⟨(· = b₀.lapped profile e), rfl,
        (applyAction_untroubled hu₁ ht₁ hre hact).mono (fun _ h => h) ?_⟩
      exact fun x b' h s₂ hx => .inr (h s₂ hx)
  records s t := keeps_record _
  pops s b h := by
    refine h.imp_right fun ⟨hu, ht⟩ => ⟨?_, ?_⟩
    · exact ⟨hu.1, hu.2, hu.3, hu.4, hu.5, hu.6, hu.7, hu.8, hu.9⟩
    · refine ⟨ht.1, ht.2, ht.3, ht.4, fun hs => ?_⟩
      obtain ⟨l, hl, hm⟩ := ht.stay hs
      exact ⟨l, hl, hm.1, hm.2, hm.3⟩
  publishes s st _ := by
    refine .perform glitch_stable (fun _ _ => trivial) ?_ fun _ => glitch_stable
    intro b r b' hb ha
    rw [show b' = b from ha]
    exact hb
  sleeps s := keeps_glitch fun _ _ _ ha => ha

end Loop

section Boot

variable {profile : Profile Float32} {buck : BuckSetup Float32}

/-- What a boot leaves in the registers. -/
def Programmed (profile : Profile Float32) (buck : BuckSetup Float32) (regs : BuckRegs) : Prop :=
  regs.outputOn = false ∧ regs.vSet = profile.floatV ∧ regs.iSet = buck.iSetA

theorem glitchBoot (lost : GlitchBuck → XyOp Float32 → Prop) :
    BootInvariant (glitchEnv profile lost) (fun _ _ => True) profile buck
      (fun b => b.regs.outputOn = false)
      (fun b => b.regs.outputOn = false ∧ b.regs.vSet = profile.floatV)
      fun b => Programmed profile buck b.regs where
  others _ _ _ := trivial
  off_stable := glitch_stable
  set_stable := glitch_stable
  done_stable := glitch_stable
  disabled b b' ha := by
    rw [show b' = { b.took (.setOutput false) with sourced := b.sourced || false, stay := none }
      from ha]
    rfl
  cleared b b' hb ha := by
    rw [show b' = b.took .clearProtectionStatus from ha]
    exact hb
  defaulted b b' hb ha := by
    rw [show b' = b from ha]
    exact hb
  limited b b' hb ha := by
    rw [show b' = b from ha]
    exact hb
  writable _ _ := trivial
  written b b' hb ha := by
    rw [show b' = { b.took (.setVoltage profile.floatV) with stay := some [] } from ha]
    exact ⟨hb, rfl⟩
  current b b' hb ha := by
    rw [show b' = b.took (.setCurrentLimit buck.iSetA) from ha]
    exact ⟨hb.1, hb.2, rfl⟩
  status b st b' hb ha := by
    rw [show b' = b from ha.1]
    exact hb
  limits b p b' hb ha := by
    rw [show b' = b from ha]
    exact hb

theorem bears_new {s : ChargeSupervisor Float32} {b : GlitchBuck}
    (h : ChargeSupervisor.new profile buck.iSetA .absent = .ok s) (hrun : b.running = true)
    (hsrc : b.sourced = false) (hregs : Programmed profile buck b.regs) : Bears profile s b := by
  obtain ⟨hvalid, -, rfl⟩ := ChargeSupervisor.new_eq_ok h
  obtain ⟨hout, hv, hi⟩ := hregs
  refine .inr ⟨⟨?_, rfl, rfl, rfl, rfl, rfl, rfl, rfl, rfl⟩,
    hrun, hi, ⟨.float, rfl, .of_eq hv⟩, .inl ⟨rfl, hout, hsrc⟩, fun hs => by cases hs⟩
  exact hvalid

/-- The write of the loop that is lost: taken by the buck, and answered with an error. -/
inductive Lost where
  | enable
  | stepUp
  | disable
  | stepDown
  | reenable

def Lost.hits (site : Lost) (b : GlitchBuck) : XyOp Float32 → Bool
  | .setOutput on => match site with
    | .enable => on && !b.sourced
    | .disable => !on
    | .reenable => on && b.sourced
    | _ => false
  | .setVoltage v => match site with
    | .stepUp => b.regs.vSet < v
    | .stepDown => v < b.regs.vSet
    | _ => false
  | _ => false

/-- The answer to a write that leaves `taken`. -/
def Lost.answer (site : Lost) (b : GlitchBuck) (op : XyOp Float32) (taken : GlitchBuck) :
    Except BusError Unit × GlitchBuck :=
  if b.running && !b.spent && site.hits b op then
    (.error .mk, { b with regs := b.regs.wrote op, spent := b.spent || b.running, stay := none })
  else (.ok (), taken)

/-- A buck that takes every write and loses the answer to one, polled once a minute with a pack
behind it that charges slowly. -/
def losing (site : Lost) (b : GlitchBuck) : (op : XyOp Float32) → op.Reply × GlitchBuck
  | .checkModel => (.ok ⟨25856, true⟩, b)
  | .readStatus => (.ok {
      setpoints := { vSet := b.regs.vSet, iSet := b.regs.iSet }
      vOut := b.regs.vSet
      iOut := 0.0
      pOut := 0.0
      protection := b.regs.protection
      outputOn := b.regs.outputOn }, b)
  | .readSafetyLimits => (.ok Esp32Battery.buck.limits, b)
  | .setVoltage v => site.answer b (.setVoltage v) { b.took (.setVoltage v) with stay := some [] }
  | .setOutput on => site.answer b (.setOutput on)
      { b.took (.setOutput on) with sourced := b.sourced || on, stay := none }
  | .setCurrentLimit a => (.ok (), b.took (.setCurrentLimit a))
  | .clearProtectionStatus => (.ok (), b.took .clearProtectionStatus)
  | .setPowerOnDefault _ | .setSafetyLimits _ => (.ok (), b)
  | .lap => (.fromSecs 60, b.lapped packProfile (.fromSecs 60))
  | .batteryReading =>
    (some ⟨13.0, -0.1, 1.3⟩, { b with sample := some { voltage := 13.0, current := -0.1 } })
  | .publishModel _ =>
    ((), { b with running := true, sourced := false, spent := false, stay := none })
  | .wdtSubscribe | .wdtReset | .sleep _ | .record _ | .updatePs _ | .publish _ => ((), b)

theorem healthy_slow : Healthy packProfile 13.0 (-0.1) := by
  have h : ((13.0 : Float32).isFinite = true ∧ (-0.1 : Float32).isFinite = true) ∧
      ¬ packProfile.absorbV + ovMarginV < (13.0 : Float32) ∧
      ¬ packProfile.regulationA * overcurrentTol < -(-0.1 : Float32) := by
    decide +kernel
  exact ⟨h.1.1, h.1.2, h.2.1, h.2.2⟩

theorem losing_answers {lost : GlitchBuck → XyOp Float32 → Prop} {site : Lost}
    (hlost : ∀ b op, site.hits b op = true → lost b op) (b : GlitchBuck) (op : XyOp Float32) :
    (glitchEnv packProfile lost).answer b op (losing site b op).1 (losing site b op).2 := by
  have hfails : ∀ {op}, (b.running && !b.spent && site.hits b op) = true → b.Fails lost op
      { b with regs := b.regs.wrote op, spent := b.spent || b.running, stay := none } := by
    intro op h
    simp only [Bool.and_eq_true, Bool.not_eq_true'] at h
    exact ⟨fun _ => h.1.2, _, .inr ⟨hlost b op h.2, rfl⟩, rfl⟩
  cases op with
  | setVoltage v =>
    simp only [losing, Lost.answer]
    split_ifs with h
    · exact hfails h
    · rfl
  | setOutput on =>
    simp only [losing, Lost.answer]
    split_ifs with h
    · exact hfails h
    · rfl
  | readStatus => exact ⟨rfl, rfl, rfl, rfl⟩
  | batteryReading => exact ⟨_, rfl, healthy_slow, rfl⟩
  | _ => rfl

/-- A buck that was left on at the absorb target, before the boot. -/
def GlitchBuck.leftOn : GlitchBuck where
  regs := ⟨14.4, 10.0, true, .normal⟩
  running := false
  sourced := false
  spent := false
  sample := none
  stay := none
  capped := false

/-- `n` turns after a reset, one write lost in them. -/
def losingRun (site : Lost) (n : ℕ) :=
  Env.exec (losing site) (session packProfile Esp32Battery.buck .absent n) .leftOn

/-- The run ends with `fault`, after its one glitch and before a cap. -/
def LosesTo (site : Lost) (n : ℕ) (fault : Option FaultReason) : Prop :=
  (losingRun site n).2.1.map (fun r => r.map ChargeSupervisor.fault) = some (.ok fault) ∧
    (losingRun site n).2.2.spent = true ∧ (losingRun site n).2.2.capped = false

theorem losing_run {lost : GlitchBuck → XyOp Float32 → Prop} {site : Lost} {n : ℕ}
    {fault : Option FaultReason} (hlost : ∀ b op, site.hits b op = true → lost b op)
    (h : LosesTo site n fault) :
    ∃ s, s.fault = fault ∧ (glitchEnv packProfile lost).Run
      (session packProfile Esp32Battery.buck .absent n) .leftOn (losingRun site n).1
      (some (some (.ok s))) (losingRun site n).2.2 := by
  have hrun := Env.exec_run (losing_answers hlost)
    (session packProfile Esp32Battery.buck .absent n) .leftOn
  obtain ⟨r, hr, hs⟩ := Option.map_eq_some_iff.1 h.1
  rcases r with e | s
  · cases hs
  · refine ⟨s, by simpa [Except.map] using hs, ?_⟩
    rw [show (Env.exec (losing site) (session packProfile Esp32Battery.buck .absent n)
      .leftOn).2.1 = some (.ok s) from hr] at hrun
    exact hrun

/-- One write that fails, harmless if the buck has taken it, never latches. -/
theorem glitch_never_latches {n : ℕ} {b₀ b : GlitchBuck}
    {tr : List (GlitchBuck × XyOp Float32)} {s : ChargeSupervisor Float32}
    (h : (glitchEnv profile harmless).Run (session profile buck .absent n) b₀ tr
      (some (some (.ok s))) b) (hcap : b.capped = false) : s.fault = none := by
  have hsession := (glitchBoot harmless).session glitchLoop .absent
    (@glitch_stable profile (fun b => b.running = true ∧ b.sourced = false ∧
      Programmed profile buck b.regs) harmless) (fun code => ?_)
    (fun s hs b hb => bears_new hs hb.1 hb.2.1 hb.2.2) n
  · rcases (hsession _ _ _ _ trivial h).2 _ rfl s rfl with hb | ⟨hu, -⟩
    · rw [hcap] at hb
      cases hb
    · exact hu.fault
  · refine .perform glitch_stable (fun _ _ => trivial) ?_ fun _ => glitch_stable
    intro b r b' hb ha
    rw [show b' = { b with running := true, sourced := false, spent := false, stay := none }
      from ha]
    exact ⟨rfl, rfl, hb⟩

/-- The re-enable of a step-down, lost: it is enabled again. -/
theorem glitch_never_latches_reenable : ∃ s tr b, (glitchEnv packProfile harmless).Run
      (session packProfile Esp32Battery.buck .absent 4) .leftOn tr (some (some (.ok s))) b ∧
    b.spent = true ∧ b.capped = false ∧ s.fault = none := by
  have hlosing : LosesTo .reenable 4 none := ⟨rfl, rfl, rfl⟩
  have hlost : ∀ b op, Lost.reenable.hits b op = true → harmless b op := by
    intro b op h _
    cases op with
    | setOutput on => simpa [Lost.hits] using h
    | _ => simp [Lost.hits] at h
  obtain ⟨s, -, hrun⟩ := losing_run hlost hlosing
  exact ⟨s, _, _, hrun, hlosing.2.1, hlosing.2.2, glitch_never_latches hrun hlosing.2.2⟩

/-- `n` turns after a reset end in `fault`, the one failing write being one the buck has taken. -/
def Latches (site : Lost) (n : ℕ) (fault : FaultReason) : Prop :=
  ∃ s tr b, (glitchEnv packProfile fun b op => site.hits b op = true).Run
      (session packProfile Esp32Battery.buck .absent n) .leftOn tr (some (some (.ok s))) b ∧
    b.spent = true ∧ b.capped = false ∧ s.fault = some fault

/-- The other writes, lost, latch: the first enable, a step-up, and a step-down at its disable and
at its write. -/
theorem glitch_latches : Latches .enable 2 .outputOnInPending ∧ Latches .stepUp 3 .settingsDrift ∧
    Latches .disable 4 (.outputUnexpectedlyOff .normal) ∧ Latches .stepDown 4 .settingsDrift := by
  have latches : ∀ {site n fault}, LosesTo site n (some fault) → Latches site n fault := by
    intro site n fault h
    obtain ⟨s, hs, hrun⟩ := losing_run (fun _ _ hhit => hhit) h
    exact ⟨s, _, _, hrun, h.2.1, h.2.2, hs⟩
  exact ⟨latches ⟨rfl, rfl, rfl⟩, latches ⟨rfl, rfl, rfl⟩, latches ⟨rfl, rfl, rfl⟩,
    latches ⟨rfl, rfl, rfl⟩⟩

end Boot

end Esp32Battery
