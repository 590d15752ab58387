import Esp32Battery.Lib.Check
import Esp32Battery.Proofs.ChargeCap
import Esp32Battery.Proofs.NoPanic

/-!
# Elapsed time, not ticks

The gauntlet is a row of timed checks, so cutting a span of time in two moves other windows and
reaches the same verdict; a span cut where the first tick moves nothing then ends in the same
action and the same view.
-/

namespace Esp32Battery

open Lib Automaton

section Split

variable {d₁ d₂ d : Duration}

namespace Debounce

theorem step_split (h : d₁.checkedAdd d₂ = some d) (w : Debounce) (cond : Bool)
    (timeout : Duration) :
    (w.step cond d₁ timeout).2.step cond d₂ timeout = w.step cond d timeout := by
  cases cond
  · rfl
  · simp only [step_true, Duration.saturatingAdd_split h]

theorem step_lasting (h : d₁.checkedAdd d₂ = some d) {w : Debounce} {cond : Bool}
    {timeout : Duration} (hd : (w.step cond d timeout).1 = false) :
    (w.step cond d₁ timeout).1 = false := by
  have hsum := Duration.nanos_of_checkedAdd h
  cases cond
  · rfl
  · simp only [step_true, decide_eq_false_iff_not, Duration.le_def,
      Duration.nanos_saturatingAdd] at hd ⊢
    omega

/-- A leaky window that is not past its timeout at the cut. -/
theorem stepLeaky_split (h : d₁.checkedAdd d₂ = some d) {w w' : Debounce} {cond fired : Bool}
    {timeout : Duration} (hw : w.elapsed < timeout) (hw' : w'.elapsed < timeout)
    (hd : w.stepLeaky cond d₁ timeout = .ok (fired, w')) :
    w'.stepLeaky cond d₂ timeout = w.stepLeaky cond d timeout := by
  rw [stepLeaky_eq hw] at hd
  cases hd
  rw [stepLeaky_eq hw', stepLeaky_eq hw]
  cases cond
  · simp only [Bool.false_eq_true, if_false, Duration.saturatingSub_split h]
  · simp only [if_true, Duration.saturatingAdd_split h]

/-- The window of a debounced condition, as a check. -/
def check {V : Type} (cond : Bool) (timeout : Duration) (answer : Bool → Option V)
    (hanswer : answer true = none → answer false = none) : Check Debounce V where
  step w e := (answer (w.step cond e timeout).1, (w.step cond e timeout).2)
  lasting {w d₁ d₂ d} h hn := by
    rcases hd : (w.step cond d timeout).1 with _ | _
    · rw [step_lasting h hd]
      rwa [hd] at hn
    · rw [hd] at hn
      rcases (w.step cond d₁ timeout).1 with _ | _
      · exact hanswer hn
      · exact hn
  answer h := by rw [step_split h]

end Debounce

/-- Once past the quiet time, the count stays forgotten. -/
theorem HoldBudget.step_split (h : d₁.checkedAdd d₂ = some d) (w : HoldBudget) :
    (w.step d₁).2.step d₂ = w.step d := by
  have hsum := Duration.nanos_of_checkedAdd h
  have hpast : flapWindow < w.sinceLast.saturatingAdd d₁ →
      flapWindow < w.sinceLast.saturatingAdd d := by
    simp only [Duration.lt_def, Duration.nanos_saturatingAdd]
    omega
  unfold step
  simp only [Duration.saturatingAdd_split h]
  by_cases hd : flapWindow < w.sinceLast.saturatingAdd d
  · simp only [hd, if_true]
  · simp only [hd, if_false, if_neg (fun h₁ => hd (hpast h₁))]

end Split

/-- No move of the table stays where it was. -/
theorem ChargeState.next_ne {s d : ChargeState} {event : ChargeEvent} (h : s.next event = some d) :
    d ≠ s := by
  cases s <;> cases event <;> cases h <;> simp

namespace Automaton

variable {drift : Phase → Prop} {output : Option BuckOutput} {v w : View} {a : Act}

theorem Judged.not_sourcing (h : Judged drift v w a) (hv : v.state.bringingUp = true) :
    w.state.sourcing = false := by
  have hoff := ChargeState.sourcing_of_bringingUp hv
  cases h with
  | trip => rfl
  | park _ _ hn | toPark _ _ hn =>
    rw [(ChargeState.next_park hn).1] at hoff
    cases hoff
  | inhibit | enable | retarget | idle => exact hoff
  | rise hs | fall hs =>
    rw [hs] at hoff
    cases hoff

theorem Agrees.of_eq {s s' : ChargeState} (h : Agrees output s) (hs : s' = s) :
    Agrees output s' := by
  rw [hs]
  exact h

/-- A beat that leaves the state where it was found the machine given up, or in agreement. -/
theorem Beat.still (h : Beat drift output v w a) (hst : w.state = v.state) :
    Terminal v.state ∨ Agrees output v.state := by
  cases h with
  | tripping _ hs => exact .inl (.inl hs)
  | resurfaced _ hs | dark hs => exact .inl (.inr hs)
  | lost _ hs =>
    rw [← hst] at hs
    cases hs
  | pending hs =>
    rw [← hst] at hs
    cases hs
  | agree hag => exact .inr hag
  | hold _ _ _ hs hn hj =>
    have hbring := ChargeState.bringingUp_of_holding (ChargeState.next_selfDisabled hn)
    have hoff := hj.not_sourcing hbring
    rw [hst, hs] at hoff
    cases hoff
  | resume _ hh hn hj =>
    have hoff := ChargeState.sourcing_of_bringingUp (ChargeState.bringingUp_of_holding hh)
    rcases hj.sourcing (ChargeState.next_selfEnabled hh hn) with hs | hs
    · rw [hst, hoff] at hs
      cases hs
    · exact .inl (.inl (hst.symm.trans hs))

end Automaton

/-- What a check that does not pass makes of the tick. -/
inductive Stop where
  | latch (reason : FaultReason)
  | inhibit (reason : InhibitReason)

def Stop.verdict {F : Type} : Stop → Verdict F
  | latch reason => .latch reason
  | inhibit reason => .inhibit reason

namespace ChargeSupervisor

variable {F : Type} [FloatLike F] {s s' t t' : ChargeSupervisor F} {p : PollResult F}
  {b : BatterySample F} {a : Action F} {v : Verdict F} {e e' : Duration}

section Checks

/-- How a fault stops a tick, which `faultOrInhibit` returns beside the machine. -/
def raised (s : ChargeSupervisor F) (r : FaultReason) : Except Panic Stop :=
  if s.state.sourcing then .ok (.latch r)
  else .inhibit <$> expect r.inhibited "a fault reachable with the output off has a waiting form"

/-- Checks 2 and 3. -/
def linkCheck (s : ChargeSupervisor F) (p : PollResult F) : Check Debounce (Except Panic Stop) :=
  .after
    (match s.setpointsDrift p.setpoints with
      | .error panic => some (.error panic)
      | .ok true => some (s.raised .settingsDrift)
      | .ok false => none)
    (Debounce.check p.setpoints.isNone modbusUnhealthyTimeout
      (fun fired => if fired then some (s.raised .modbusUnhealthy) else none) (fun _ => rfl))

/-- Check 4. -/
def sampleCheck (s : ChargeSupervisor F) (p : PollResult F) : Check Debounce (Except Panic Stop) :=
  Debounce.check p.usableBattery.isNone batteryMissingTimeout
    (fun fired => if fired then some (s.raised .batterySensorStale) else none) (fun _ => rfl)

/-- Check 5. -/
def ovCheck (s : ChargeSupervisor F) (b : BatterySample F) : Check Debounce (Except Panic Stop) :=
  Debounce.check (s.overvolts b) ovDuration
    (fun fired =>
      if s.state.sourcing then if fired then some (.ok (.latch .overvoltage)) else none
      else if s.overvolts b then some (.ok (.inhibit .overvoltage)) else none)
    (by
      intro h
      by_cases hs : s.state.sourcing = true
      · rw [if_pos hs] at h
        cases h
      · rwa [if_neg hs] at h ⊢)

/-- Check 6. -/
def overcurrentCheck (s : ChargeSupervisor F) (b : BatterySample F) :
    Check Debounce (Except Panic Stop) :=
  Debounce.check (s.overdraws b) overcurrentDuration
    (fun fired =>
      if fired ∧ s.state.sourcing then some (.ok (.latch .chargeOvercurrent)) else none)
    (fun _ => by simp)

/-- Check 7. -/
def tempCheck (s : ChargeSupervisor F) (p : PollResult F) : Check Debounce (Except Panic Stop) :=
  if s.packTemp = .fitted then
    Debounce.check p.packTempC.isNone packTempStaleTimeout
      (fun fired =>
        if fired then some (s.raised .packTempStale)
        else p.packTempC.bind fun t =>
          if t < chargeTempMinC then some (s.raised .packTooCold)
          else if chargeTempMaxC < t then some (s.raised .packTooHot)
          else none)
      (fun h => by simp at h)
  else .silent

/-- Checks 5 to 7. -/
def checksOn (s : ChargeSupervisor F) (p : PollResult F) (b : BatterySample F) :
    Check (Debounce × Debounce × Debounce) (Except Panic Stop) :=
  (s.ovCheck b).andThen ((s.overcurrentCheck b).andThen (s.tempCheck p))

/-- They wait for a sample. -/
def laterChecks (s : ChargeSupervisor F) (p : PollResult F) :
    Check (Debounce × Debounce × Debounce) (Except Panic Stop) :=
  match p.usableBattery with
  | some b => s.checksOn p b
  | none => .silent

/-- The timed checks of the gauntlet, in their order. -/
def checks (s : ChargeSupervisor F) (p : PollResult F) :
    Check (Debounce × Debounce × Debounce × Debounce × Debounce) (Except Panic Stop) :=
  (s.linkCheck p).andThen ((s.sampleCheck p).andThen (s.laterChecks p))

/-- The verdict when none of them answers. -/
def passed (s : ChargeSupervisor F) (p : PollResult F) : Verdict F :=
  match p.usableBattery with
  | some b => s.bringUpGate p b
  | none => .inhibit .noBatterySample

def windowsOn (s : ChargeSupervisor F) : Debounce × Debounce × Debounce :=
  (s.ov, s.overcurrent, s.packTempMissing)

def windows (s : ChargeSupervisor F) : Debounce × Debounce × Debounce × Debounce × Debounce :=
  (s.modbusErr, s.batteryMissing, s.windowsOn)

/-- The verdict of a tick that takes `e`. -/
def verdict (s : ChargeSupervisor F) (p : PollResult F) (e : Duration) :
    Except Panic (Verdict F) :=
  if (s.holds.step e).1 then .ok (.latch .protectionFlapping)
  else (((s.checks p).step s.windows e).1.map (Stop.verdict <$> ·)).getD (.ok (s.passed p))

def withWindows (s : ChargeSupervisor F) (holds : HoldBudget)
    (w : Debounce × Debounce × Debounce × Debounce × Debounce) : ChargeSupervisor F :=
  { s with
    holds
    modbusErr := w.1
    batteryMissing := w.2.1
    ov := w.2.2.1
    overcurrent := w.2.2.2.1
    packTempMissing := w.2.2.2.2 }

omit [FloatLike F] in
theorem faultOrInhibit_eq (r : FaultReason) (h : t.state = s.state) :
    t.faultOrInhibit r = (·, t) <$> Stop.verdict <$> s.raised r := by
  unfold raised faultOrInhibit
  rw [h]
  split_ifs
  · rfl
  · rcases hr : r.inhibited with _ | i <;> rfl

theorem gauntletOn_eq :
    s.gauntletOn p b e = (fun v =>
        let w := ((s.checksOn p b).step s.windowsOn e).2
        (v, { s with ov := w.1, overcurrent := w.2.1, packTempMissing := w.2.2 })) <$>
      (((s.checksOn p b).step s.windowsOn e).1.map (Stop.verdict <$> ·)).getD
        (.ok (s.bringUpGate p b)) := by
  have hov : (s.ovCheck b).step s.windowsOn.1 e = (if s.state.sourcing then
      if (s.ov.step (s.overvolts b) e ovDuration).1 then some (.ok (.latch .overvoltage)) else none
      else if s.overvolts b then some (.ok (.inhibit .overvoltage)) else none,
      (s.ov.step (s.overvolts b) e ovDuration).2) := rfl
  have hover : (s.overcurrentCheck b).step s.windowsOn.2.1 e =
      (if (s.overcurrent.step (s.overdraws b) e overcurrentDuration).1 ∧ s.state.sourcing then
        some (.ok (.latch .chargeOvercurrent)) else none,
      (s.overcurrent.step (s.overdraws b) e overcurrentDuration).2) := rfl
  have hfault : ∀ {t : ChargeSupervisor F} (r : FaultReason), t.state = s.state →
      t.faultOrInhibit r = (·, t) <$> Stop.verdict <$> s.raised r :=
    fun r h => faultOrInhibit_eq r h
  unfold gauntletOn
  simp only []
  split_ifs with h₁ h₂ h₃ hfit hstale
  · rw [checksOn, Check.andThen_some (v := .ok (.latch .overvoltage))
      (by rw [hov, if_pos h₁.1]; exact if_pos h₁.2)]
    rfl
  · rw [checksOn, Check.andThen_some (v := .ok (.inhibit .overvoltage))
      (by rw [hov, if_neg h₂.1]; exact if_pos h₂.2)]
    rfl
  all_goals
    have hpass : ((s.ovCheck b).step s.windowsOn.1 e).1 = none := by
      rw [hov]
      by_cases hs : s.state.sourcing = true
      · exact (if_pos hs).trans (if_neg fun h => h₁ ⟨hs, h⟩)
      · exact (if_neg hs).trans (if_neg fun h => h₂ ⟨hs, h⟩)
    rw [checksOn, Check.andThen_none hpass]
  · rw [Check.andThen_some (v := .ok (.latch .chargeOvercurrent))
      (by rw [hover]; exact if_pos h₃)]
    rfl
  all_goals rw [Check.andThen_none (by rw [hover]; exact if_neg h₃), tempCheck]
  · rw [if_pos hfit]
    simp only [Debounce.check, windowsOn, hstale, if_true]
    exact hfault .packTempStale rfl
  · rw [Bool.not_eq_true] at hstale
    rw [if_pos hfit]
    simp only [Debounce.check, windowsOn, hstale, Bool.false_eq_true, if_false]
    rcases p.packTempC with _ | t
    · rfl
    · simp only [Option.bind_some]
      split_ifs
      · exact hfault .packTooCold rfl
      · exact hfault .packTooHot rfl
      · rfl
  · rw [if_neg hfit]
    rfl

/-- The gauntlet, once the holds are within budget, is its timed checks. -/
theorem gauntlet_eq (hflap : (s.holds.step e).1 = false) :
    s.gauntlet p e = (·, s.withWindows (s.holds.step e).2 ((s.checks p).step s.windows e).2) <$>
      s.verdict p e := by
  have hdrift : ({ s with holds := (s.holds.step e).2 } : ChargeSupervisor F).setpointsDrift
      p.setpoints = s.setpointsDrift p.setpoints := rfl
  unfold gauntlet verdict
  simp only [hflap, hdrift, Bool.false_eq_true, if_false]
  rcases hd : s.setpointsDrift p.setpoints with panic | _ | _
  · have hlink : (s.linkCheck p).step s.windows.1 e = (some (.error panic), s.modbusErr) := by
      rw [linkCheck, hd]
      rfl
    rw [checks, Check.andThen_some (congrArg Prod.fst hlink)]
    rfl
  · have hlink : (s.linkCheck p).step s.windows.1 e =
        (if (s.modbusErr.step p.setpoints.isNone e modbusUnhealthyTimeout).1 then
          some (s.raised .modbusUnhealthy) else none,
        (s.modbusErr.step p.setpoints.isNone e modbusUnhealthyTimeout).2) := by
      rw [linkCheck, hd]
      rfl
    have hsample : (s.sampleCheck p).step s.windows.2.1 e =
        (if (s.batteryMissing.step p.usableBattery.isNone e batteryMissingTimeout).1 then
          some (s.raised .batterySensorStale) else none,
        (s.batteryMissing.step p.usableBattery.isNone e batteryMissingTimeout).2) := rfl
    simp only []
    split_ifs with hm hn
    · rw [checks, Check.andThen_some (v := s.raised .modbusUnhealthy)
        (by rw [hlink]; exact if_pos hm), hlink]
      exact faultOrInhibit_eq .modbusUnhealthy rfl
    · rw [checks, Check.andThen_none (by rw [hlink]; exact if_neg hm), hlink,
        Check.andThen_some (v := s.raised .batterySensorStale) (by rw [hsample]; exact if_pos hn)]
      exact faultOrInhibit_eq .batterySensorStale rfl
    · rw [checks, Check.andThen_none (by rw [hlink]; exact if_neg hm), hlink,
        Check.andThen_none (by rw [hsample]; exact if_neg hn), hsample]
      unfold passed laterChecks
      rcases p.usableBattery with _ | b
      · rfl
      · simp only []
        rw [gauntletOn_eq]
        rfl
  · have hlink : (s.linkCheck p).step s.windows.1 e
        = (some (s.raised .settingsDrift), s.modbusErr) := by
      rw [linkCheck, hd]
      rfl
    rw [checks, Check.andThen_some (congrArg Prod.fst hlink), hlink]
    exact faultOrInhibit_eq .settingsDrift rfl

end Checks

section Observed

/-- What of a tick can be told from outside: its action, and the view it leaves. -/
def observed (x : Except Panic (Action F × ChargeSupervisor F)) :
    Except Panic (Action F × View) :=
  (fun y => (y.1, y.2.view)) <$> x

/-- They show the same, and regulate to the same targets. -/
structure Alike (s t : ChargeSupervisor F) : Prop where
  view : t.view = s.view
  profile : t.profile = s.profile

omit [FloatLike F] in
theorem Alike.state (h : s.Alike t) : t.state = s.state := congrArg View.state h.view

theorem updateVoltageFor_congr (h : s.Alike t) (next : Phase) :
    t.updateVoltageFor next = s.updateVoltageFor next := by
  have hv : ∀ phase, t.voltageForPhase phase = s.voltageForPhase phase := by
    intro phase
    unfold voltageForPhase
    rw [h.profile]
  unfold updateVoltageFor targetVoltage expectedSetpoints setpointsFor
  rw [h.state]
  rcases s.state.setpointPhase with _ | phase
  · rfl
  · simp only [expect_some, hv]
    rfl

omit [FloatLike F] in
theorem observed_ok (a : Action F) (h : s.Alike t) :
    observed (.ok (a, t)) = observed (.ok (a, s)) :=
  congrArg (fun v => Except.ok (a, v)) h.view

theorem write_congr (h : s.Alike t) (next : Phase) :
    observed (do return (← t.updateVoltageFor next, t)) =
      observed (do return (← s.updateVoltageFor next, s)) := by
  rw [updateVoltageFor_congr h]
  rcases s.updateVoltageFor next with panic | a
  · rfl
  · exact observed_ok a h

omit [FloatLike F] in
/-- The move a step makes of one it makes of the other. -/
theorem step_congr {event : ChargeEvent}
    {k : ChargeSupervisor F → Except Panic (Action F × ChargeSupervisor F)} (h : s.Alike t)
    (hk : ∀ s' t' : ChargeSupervisor F, s'.Alike t' → observed (k t') = observed (k s')) :
    observed (t.step event >>= k) = observed (s.step event >>= k) := by
  rcases hd : s.state.next event with _ | d
  · have hpanic : t.step event = s.step event := by
      unfold step
      rw [h.state, hd]
      rfl
    have herr : ∃ panic, s.step event = .error panic := by
      unfold step
      rw [hd]
      exact ⟨_, rfl⟩
    obtain ⟨panic, herr⟩ := herr
    rw [hpanic, herr]
  · obtain ⟨s', hs', hm⟩ := step_ok hd
    obtain ⟨t', ht', hm'⟩ := step_ok (s := t) (h.state ▸ hd)
    rw [hs', ht']
    refine hk s' t' ⟨?_, ?_⟩
    · rw [hm.view, hm'.view, show t.fault = s.fault from congrArg View.fault h.view,
        show t.inhibit = s.inhibit from congrArg View.inhibit h.view]
    · rw [(SameBoard.of_moved hm).profile, (SameBoard.of_moved hm').profile, h.profile]

theorem onFault_congr (r : FaultReason) (hs : t.state = s.state) (hp : t.profile = s.profile) :
    observed (t.onFault r) = observed (s.onFault r) := by
  have h : Alike { s with fault := some r, inhibit := none }
      { t with state := s.state, fault := some r, inhibit := none } := ⟨rfl, hp⟩
  unfold onFault
  simp only [hs]
  split_ifs
  · refine step_congr h fun s' t' h' => ?_
    rw [h'.state]
    rcases s'.state.retargetTo with _ | next
    · exact observed_ok .none h'
    · exact write_congr h' next
  · refine step_congr h fun s' t' h' => ?_
    unfold disableForLatchedFault
    rw [show t'.fault = s'.fault from congrArg View.fault h'.view]
    rcases s'.fault with _ | r
    · rfl
    · exact observed_ok (.disableOutput ⟨r⟩) h'

/-- The windows of the sourcing arm answer `t` in `e'` as they answer `s` in `e`. -/
structure ArmAlike (s t : ChargeSupervisor F) (b : BatterySample F) (e e' : Duration) : Prop where
  exit : s.state.retargetTo = none →
    t.exit.stepLeaky (s.state = .absorb ∧ b.chargingA < s.profile.exitAbsorbA) e' exitDebounce =
      s.exit.stepLeaky (s.state = .absorb ∧ b.chargingA < s.profile.exitAbsorbA) e exitDebounce
  absorb : s.state = .absorb → t.absorb.stepLeaky (s.atCvPlateau b.voltage) e' maxAbsorb =
    s.absorb.stepLeaky (s.atCvPlateau b.voltage) e maxAbsorb
  chargeTotal : s.state = .absorb →
    t.chargeTotal.step true e' maxCharge = s.chargeTotal.step true e maxCharge

theorem regulate_congr (h : s.Alike t) (hw : s.ArmAlike t b e e') :
    observed (t.regulate b e') = observed (s.regulate b e) := by
  unfold regulate
  rw [h.state]
  rcases hn : s.state.retargetTo with _ | next
  · simp only [h.profile, hw.exit hn]
    rcases s.exit.stepLeaky (s.state = .absorb ∧ b.chargingA < s.profile.exitAbsorbA) e
        exitDebounce with panic | ⟨done, exit⟩
    · rfl
    have hview : ∀ {t' : ChargeSupervisor F}, t'.fault = t.fault → t'.inhibit = t.inhibit →
        t'.state = s.state → t'.view = s.view := by
      intro t' hf hi hs
      rw [← h.view]
      unfold ChargeSupervisor.view
      rw [hf, hi, hs, h.state]
    have h' : Alike { s with exit } { t with profile := s.profile, state := s.state, exit } :=
      ⟨hview rfl rfl rfl, rfl⟩
    simp only [ok_bind]
    split_ifs with hrise hfall habs
    · exact step_congr h' fun s' t' h'' => write_congr h'' .absorb
    · exact step_congr h' fun s' t' h'' => write_congr h'' .float
    · unfold absorbCaps
      simp only [atCvPlateau]
      have ha := hw.absorb habs
      unfold atCvPlateau at ha
      rw [ha, hw.chargeTotal habs]
      rcases s.absorb.stepLeaky (s.profile.absorbV - absorbCvBandV ≤ b.voltage) e maxAbsorb
        with panic | ⟨capped, absorb⟩
      · rfl
      simp only [ok_bind]
      split_ifs
      · exact onFault_congr .absorbTimeout rfl rfl
      · exact onFault_congr .chargeTimeout rfl rfl
      · exact observed_ok .none ⟨hview rfl rfl rfl, rfl⟩
    · exact observed_ok .none h'
  · exact write_congr h next

theorem dispatch_clear_congr (hs : t.state = s.state) (hp : t.profile = s.profile)
    (hf : t.fault = s.fault) (hw : s.state.bringingUp = false → s.ArmAlike t b e e') :
    observed (t.dispatch (.clear b) e') = observed (s.dispatch (.clear b) e) := by
  have h : Alike { s with inhibit := none } { t with inhibit := none } :=
    ⟨by simp [ChargeSupervisor.view, hs, hf], hp⟩
  rcases hb : s.state.bringingUp with _ | _
  · rw [dispatch_regulates hb, dispatch_regulates (s := t) (by rw [hs, hb])]
    have hw := hw hb
    exact regulate_congr h ⟨hw.exit, hw.absorb, hw.chargeTotal⟩
  · unfold dispatch
    have hrested : ({ t with inhibit := none } : ChargeSupervisor F).restedFull b =
        ({ s with inhibit := none } : ChargeSupervisor F).restedFull b := by
      unfold restedFull
      rw [hp]
    simp only []
    rw [if_pos (hs ▸ hb), if_pos hb, hrested]
    rcases ({ s with inhibit := none } : ChargeSupervisor F).restedFull b with panic | full
    · rfl
    · exact observed_ok (.enableOutput { resumeAbsorb := !full }) h

end Observed

section Cut

variable {s₁ : ChargeSupervisor F} {d₁ d₂ d : Duration}

theorem onFault_moves {r : FaultReason} (h : s.onFault r = .ok (a, s')) : s'.state ≠ s.state := by
  obtain ⟨d, hm, ⟨-, -, hn, -⟩ | ⟨-, hn, -⟩⟩ := onFault_eq_ok h
  · rw [hm.state]
    exact ChargeState.next_ne hn
  · rw [hm.state]
    exact ChargeState.next_ne hn

theorem dispatch_moves {r : FaultReason} (h : s.dispatch (.latch r) e = .ok (a, s')) :
    s'.state ≠ s.state := onFault_moves h

theorem gauntlet_verdict :
    ∃ holds w, s.gauntlet p e = (·, s.withWindows holds w) <$> s.verdict p e := by
  by_cases hflap : (s.holds.step e).1 = true
  · refine ⟨(s.holds.step e).2, s.windows, ?_⟩
    unfold verdict gauntlet
    simp only [hflap, if_true]
    rfl
  · rw [Bool.not_eq_true] at hflap
    exact ⟨_, _, gauntlet_eq hflap⟩

theorem tick_verdict (h : Agrees p.output s.state) : ∃ holds w,
    s.tick p e = s.verdict p e >>= fun v => (s.withWindows holds w).dispatch v e := by
  obtain ⟨holds, w, hg⟩ := s.gauntlet_verdict (p := p) (e := e)
  refine ⟨holds, w, ?_⟩
  unfold tick
  rw [reconcile_agrees h]
  simp only [ok_bind, hg]
  rcases s.verdict p e with panic | v
  · rfl
  · rfl

/-- What the sourcing arm leaves of a machine that stays where it was. -/
theorem regulate_cut (hw : s.Unfired) (hd : d₁.checkedAdd d₂ = some d)
    (h : s.regulate b d₁ = .ok (a, s₁)) (hst : s₁.state = s.state) :
    ∃ exit absorb chargeTotal, s₁ = { s with exit, absorb, chargeTotal } ∧
      s.ArmAlike s₁ b d d₂ := by
  cases regulate_cases h with
  | retarget next hn =>
    refine ⟨_, _, _, rfl, fun hnone => ?_, fun habs => ?_, fun habs => ?_⟩
    · cases hn.symm.trans hnone
    · rw [habs] at hn
      cases hn
    · rw [habs] at hn
      cases hn
  | rise hs _ _ hm => cases hm.state.symm.trans (hst.trans hs)
  | fall hs _ hm => cases hm.state.symm.trans (hst.trans hs)
  | absorbTimeout _ _ _ hf => exact (onFault_moves hf hst).elim
  | chargeTimeout _ _ _ _ hf => exact (onFault_moves hf hst).elim
  | absorbing habs hx ha =>
    refine ⟨_, _, _, rfl, fun _ => ?_, fun _ => ?_, fun _ => ?_⟩
    · simp only [habs, true_and]
      exact Debounce.stepLeaky_split hd hw.exit (Debounce.stepLeaky_unfired hw.exit hx) hx
    · exact Debounce.stepLeaky_split hd hw.absorb (Debounce.stepLeaky_unfired hw.absorb ha) ha
    · exact Debounce.step_split hd s.chargeTotal true maxCharge
  | idle _ habs _ hx =>
    refine ⟨_, _, _, rfl, fun _ => ?_, fun h => absurd h habs, fun h => absurd h habs⟩
    simp only [habs, false_and, decide_false]
    exact Debounce.stepLeaky_split hd hw.exit (Debounce.stepLeaky_false_lt hw.exit hx) hx

/-- The windows the gauntlet left of the first span answer the second as the whole. -/
theorem verdict_cut (hd : d₁.checkedAdd d₂ = some d) (exit absorb chargeTotal : Debounce)
    (inhibit : Option InhibitReason) :
    ({ s.withWindows (s.holds.step d₁).2 ((s.checks p).step s.windows d₁).2 with
      exit, absorb, chargeTotal, inhibit } : ChargeSupervisor F).verdict p d₂ = s.verdict p d := by
  have hans := (s.checks p).answer (w := s.windows) hd
  have hflap := HoldBudget.step_split hd s.holds
  unfold verdict
  rw [← hans, ← hflap]
  rfl

/-- What acting on a verdict leaves of it. -/
theorem dispatch_cut (hw : s.Unfired) (hd : d₁.checkedAdd d₂ = some d)
    (h : s.dispatch v d₁ = .ok (a, s₁)) (hst : s₁.state = s.state) :
    ∃ exit absorb chargeTotal inhibit, s₁ = { s with exit, absorb, chargeTotal, inhibit } ∧
      ∀ b, v = .clear b → s.state.bringingUp = false → s.ArmAlike s₁ b d d₂ := by
  cases dispatch_cases h with
  | latch r => exact (dispatch_moves h hst).elim
  | inhibit i => exact ⟨_, _, _, _, rfl, nofun⟩
  | enable b full hb =>
    refine ⟨_, _, _, _, rfl, fun _ _ hno => ?_⟩
    rw [hb] at hno
    cases hno
  | regulate b _ hreg =>
    have hw' : ({ s with inhibit := none } : ChargeSupervisor F).Unfired := ⟨hw.exit, hw.absorb⟩
    obtain ⟨exit, absorb, chargeTotal, rfl, harm⟩ := regulate_cut hw' hd hreg hst
    refine ⟨_, _, _, _, rfl, fun b' hb' _ => ?_⟩
    cases hb'
    exact ⟨harm.exit, harm.absorb, harm.chargeTotal⟩

/-- What is clear in the end was clear at the cut. -/
theorem verdict_lasting (hd : d₁.checkedAdd d₂ = some d) (hflap : (s.holds.step d₁).1 = false)
    (h : s.verdict p d = .ok (.clear b)) : s.verdict p d₁ = .ok (.clear b) := by
  unfold verdict at h ⊢
  rw [if_neg (by rw [hflap]; decide)]
  split_ifs at h with hflap'
  · cases h
  rcases hc : ((s.checks p).step s.windows d).1 with _ | x
  · rw [(s.checks p).lasting hd hc]
    rw [hc] at h
    exact h
  · rw [hc] at h
    rcases x with panic | stop
    · cases h
    · cases stop <;> cases h

/-- A machine that gave up does not look at the time. -/
theorem tick_terminal (hterm : Terminal s.state) (h : s.tick p e = .ok (a, s₁))
    (hst : s₁.state = s.state) : s₁ = s ∧ ∀ e', s.tick p e' = .ok (a, s) := by
  rcases tick_eq_ok h with hr | ⟨r, v, g, hr, -, -⟩
  · have hsame : s₁ = s := by
      generalize hsome : some a = o at hr
      cases reconcile_cases hr with
      | tripping | dark | agree => rfl
      | resurfaced _ hs _ _ hm =>
        rw [hm.state, hs] at hst
        cases hst
      | lost _ _ hs => exact absurd hterm (not_terminal (.inl hs))
      | pending _ hs => exact absurd hterm (not_terminal (.inr (by rw [hs]; rfl)))
      | hold | resume => cases hsome
    subst hsame
    refine ⟨rfl, fun e' => ?_⟩
    unfold tick
    rw [hr]
    rfl
  · exact absurd hterm (reconcile_cases hr).not_terminal

/-- What a tick that leaves the state where it was leaves of the rest. -/
theorem tick_still (hw : s.Unfired) (hd : d₁.checkedAdd d₂ = some d)
    (hag : Agrees p.output s.state) (h : s.tick p d₁ = .ok (a, s₁)) (hst : s₁.state = s.state) :
    ∃ v exit absorb chargeTotal inhibit,
      (s.holds.step d₁).1 = false ∧ s.verdict p d₁ = .ok v ∧
      s₁ = { s.withWindows (s.holds.step d₁).2 ((s.checks p).step s.windows d₁).2 with
        exit, absorb, chargeTotal, inhibit } ∧
      ∀ b, v = .clear b → s.state.bringingUp = false → s.ArmAlike s₁ b d d₂ := by
  rcases tick_eq_ok h with hr | ⟨r, v, g, hr, hg, hdis⟩
  · rw [reconcile_agrees hag] at hr
    cases hr
  rw [reconcile_agrees hag] at hr
  cases hr
  have hflap : (s.holds.step d₁).1 = false := by
    by_contra hf
    rw [Bool.not_eq_false] at hf
    unfold gauntlet at hg
    simp only [hf, if_true] at hg
    cases hg
    exact dispatch_moves hdis hst
  rw [gauntlet_eq hflap] at hg
  rcases hv : s.verdict p d₁ with panic | v₁
  · rw [hv] at hg
    cases hg
  rw [hv] at hg
  cases hg
  have hwg : (s.withWindows (s.holds.step d₁).2 ((s.checks p).step s.windows d₁).2).Unfired :=
    ⟨hw.exit, hw.absorb⟩
  obtain ⟨exit, absorb, chargeTotal, inhibit, hs₁, harm⟩ := dispatch_cut hwg hd hdis hst
  refine ⟨v, exit, absorb, chargeTotal, inhibit, hflap, rfl, hs₁, fun b hb hbring => ?_⟩
  have harm := harm b hb hbring
  exact ⟨harm.exit, harm.absorb, harm.chargeTotal⟩

/-- A tick that leaves the state where it was, and then the rest of the span, end in what the
whole span ends in. -/
theorem tick_cut (hw : s.Unfired) (hd : d₁.checkedAdd d₂ = some d)
    (h : s.tick p d₁ = .ok (a, s₁)) (hst : s₁.state = s.state) :
    observed (s₁.tick p d₂) = observed (s.tick p d) := by
  obtain ⟨act, hbeat, -⟩ := tick_beat h
  rcases hbeat.still hst with hterm | hag
  · obtain ⟨rfl, hall⟩ := tick_terminal hterm h hst
    rw [hall d₂, hall d]
  obtain ⟨v₁, exit, absorb, chargeTotal, inhibit, hflap, hv, rfl, harm⟩ :=
    tick_still hw hd hag h hst
  obtain ⟨holds, w, hwhole⟩ := tick_verdict (e := d) hag
  obtain ⟨holds₂, w₂, hrest⟩ := tick_verdict (e := d₂) (hag.of_eq hst)
  rw [hwhole, hrest, verdict_cut hd]
  rcases hv₂ : s.verdict p d with panic | v₂
  · rfl
  cases v₂ with
  | latch reason => exact onFault_congr reason rfl rfl
  | inhibit reason => exact observed_ok .none ⟨rfl, rfl⟩
  | clear b =>
    have hclear := Except.ok.inj (hv.symm.trans (verdict_lasting hd hflap hv₂))
    refine dispatch_clear_congr rfl rfl rfl fun hb => ?_
    have harm := harm b hclear hb
    exact ⟨harm.exit, harm.absorb, harm.chargeTotal⟩

/-- Ticks on one poll that take `d` in all, each leaving the state where it was and its ticket
dropped. -/
inductive Dwells (p : PollResult F) : ChargeSupervisor F → Duration → ChargeSupervisor F → Prop
  | tick {s s₁ : ChargeSupervisor F} {a : Action F} {d : Duration} : s.tick p d = .ok (a, s₁) →
      s₁.state = s.state → Dwells p s d s₁
  | more {s s₁ t : ChargeSupervisor F} {a : Action F} {d₁ d₂ d : Duration} :
      s.tick p d₁ = .ok (a, s₁) → s₁.state = s.state → Dwells p s₁ d₂ t →
      d₁.checkedAdd d₂ = some d → Dwells p s d t

theorem Dwells.tick_cut (h : Dwells p s d₁ t) (hw : s.Unfired) (hd : d₁.checkedAdd d₂ = some d) :
    observed (t.tick p d₂) = observed (s.tick p d) := by
  induction h generalizing d with
  | tick ht hst => exact ChargeSupervisor.tick_cut hw hd ht hst
  | @more s s₁ t a e₁ e₂ e ht hst _ he ih =>
    -- the rest of the span, from the first cut on
    obtain ⟨rest, hrest, hwhole⟩ := Duration.checkedAdd_assoc he hd
    rw [ih (hw.of_tick ht) hrest]
    exact ChargeSupervisor.tick_cut hw hwhole ht hst

/-- Of a tick that leaves the state where it was and the tick after it nothing shows but the time
they took: one tick of the whole span answers the same action, ticket and all, and ends in the
same state, fault and inhibit reason. So does any number of such ticks. -/
theorem elapsed_only (hs : s.Reachable) (hd : d₁.checkedAdd d₂ = some d) :
    (∀ a s₁, s.tick p d₁ = .ok (a, s₁) → s₁.state = s.state →
      observed (s₁.tick p d₂) = observed (s.tick p d)) ∧
    ∀ t, Dwells p s d₁ t → observed (t.tick p d₂) = observed (s.tick p d) :=
  ⟨fun _ _ h hst => tick_cut hs.unfired hd h hst, fun _ h => h.tick_cut hs.unfired hd⟩

/-- Ten seconds without a sample, cut at six. -/
theorem elapsed_only_stale : ∃ a s₁,
    floatSupervisor.tick { restPoll (some .on) with battery := none } (.fromSecs 6) = .ok (a, s₁) ∧
    observed (s₁.tick { restPoll (some .on) with battery := none } (.fromSecs 4)) =
      .ok (.disableOutput ⟨.batterySensorStale⟩, ⟨.tripping, some .batterySensorStale, none⟩) := by
  have ht : ∃ s₁, floatSupervisor.tick { restPoll (some .on) with battery := none }
      (.fromSecs 6) = .ok (.none, s₁) ∧ s₁.state = floatSupervisor.state :=
    ⟨after floatSupervisor
      [⟨{ restPoll (some .on) with battery := none }, .fromSecs 6, false, 0⟩],
      by decide +kernel, by decide +kernel⟩
  obtain ⟨s₁, ht, hst⟩ := ht
  have hreach : floatSupervisor.Reachable := after_reachable (bootSupervisor_reachable .absent) _
  refine ⟨_, s₁, ht, ?_⟩
  rw [(elapsed_only hreach (d := .fromSecs 10) rfl).1 _ _ ht hst]
  decide +kernel

end Cut

end ChargeSupervisor

end Esp32Battery
