import Esp32Battery.Board
import Esp32Battery.Proofs.Tick

/-!
# The energise gate

What a tick has to see before it asks for output-on, exactly. What the gate is meant to promise
is then compared with what it checks.
-/

namespace Esp32Battery

open Lib

namespace ChargeSupervisor

variable {F : Type} [FloatLike F] {s s' : ChargeSupervisor F} {p : PollResult F} {e : Duration}
  {b : BatterySample F} {a : Action F} {t : EnableTicket}

/-- Everything a tick that asks for output-on has checked. -/
structure EnergiseGate (s : ChargeSupervisor F) (p : PollResult F) (e : Duration)
    (b : BatterySample F) (full : Bool) : Prop where
  bringingUp : s.state.bringingUp = true
  output : ∀ o, p.output = some o → ∃ cause, o = .off cause ∧ cause.isSelfClearing = false
  holds : (s.holds.step e).1 = false
  setpoints : p.setpoints.isSome = true
  drift : s.setpointsDrift p.setpoints = .ok false
  battery : p.usableBattery = some b
  voltage : s.overvolts b = false
  temp : s.packTemp = .fitted → s.TempPasses p e
  rested : s.restedFull b = .ok full

/-- The supervisor such a tick leaves. -/
def energised (s : ChargeSupervisor F) (p : PollResult F) (e : Duration) (b : BatterySample F) :
    ChargeSupervisor F :=
  { (s.sampling p e).examined p b e with inhibit := none }

theorem updateVoltageFor_ne_enable {next : Phase} :
    s.updateVoltageFor next ≠ .ok (.enableOutput t) := by
  intro h
  obtain ⟨live, -, hl⟩ := updateVoltageFor_eq_ok h
  cases hl

theorem onFault_ne_enable {r : FaultReason} : s.onFault r ≠ .ok (.enableOutput t, s') := by
  intro h
  obtain ⟨d, -, ⟨-, -, -, ⟨-, ha⟩ | ⟨next, -, hu⟩⟩ | ⟨-, -, ha⟩⟩ := onFault_eq_ok h
  · cases ha
  · exact updateVoltageFor_ne_enable hu
  · cases ha

theorem regulate_ne_enable : s.regulate b e ≠ .ok (.enableOutput t, s') := by
  intro h
  generalize ha : Action.enableOutput t = a at h
  cases regulate_cases h with
  | retarget next _ hu => exact updateVoltageFor_ne_enable (ha ▸ hu)
  | rise _ _ _ _ hu => exact updateVoltageFor_ne_enable (ha ▸ hu)
  | fall _ _ _ hu => exact updateVoltageFor_ne_enable (ha ▸ hu)
  | absorbTimeout _ _ _ hf => exact onFault_ne_enable (ha ▸ hf)
  | chargeTimeout _ _ _ _ hf => exact onFault_ne_enable (ha ▸ hf)
  | absorbing | idle => cases ha

theorem reconcile_ne_enable : s.reconcile p ≠ .ok (some (.enableOutput t), s') := by
  intro h
  generalize ho : some (Action.enableOutput t) = o at h
  cases reconcile_cases h with
  | tripping | resurfaced | dark | agree | hold | resume => cases ho
  | lost _ _ _ _ hf => cases ho; exact onFault_ne_enable hf
  | pending _ _ hf => cases ho; exact onFault_ne_enable hf

omit [FloatLike F] in
theorem bringUpGate_clear {b' : BatterySample F} (hb : s.state.bringingUp = true) :
    s.bringUpGate p b = .clear b' ↔ b = b' ∧ p.setpoints.isSome = true ∧
      ∀ cause, p.output = some (.off cause) → cause.isSelfClearing = false := by
  unfold bringUpGate
  rw [if_pos hb]
  split_ifs with hsp
  · simp [Option.isNone_iff_eq_none.1 hsp]
  · have hsome : p.setpoints.isSome = true := by simpa [Option.isSome_iff_ne_none] using hsp
    split
    · rename_i cause ho
      split_ifs with hc <;> simp [ho, hc, hsome]
    · rename_i ho
      simp only [Verdict.clear.injEq, hsome, true_and]
      exact ⟨fun h => ⟨h, fun cause hc => absurd hc (ho cause)⟩, And.left⟩

theorem gauntlet_clear (h : s.gauntlet p e = .ok (.clear b, s')) :
    ∃ b', s.Sampled p e b' ∧ (s.sampling p e).OvPasses b' e ∧
      ((s.sampling p e).packTemp = .fitted → (s.sampling p e).TempPasses p e) ∧
      (s.sampling p e).bringUpGate p b' = .clear b ∧ s' = (s.sampling p e).examined p b' e := by
  rcases gauntlet_cases h with ⟨b', hs, h⟩ | ⟨hu, -⟩
  · generalize hv : Verdict.clear b = v at h
    refine ⟨b', hs, ?_⟩
    cases gauntletOn_cases h with
    | overvoltage v _ hv' => rcases hv' with ⟨-, rfl⟩ | ⟨-, rfl⟩ <;> cases hv
    | overcurrent => cases hv
    | temp r v _ _ _ hv' => rcases hv' with ⟨-, rfl⟩ | ⟨-, i, -, rfl⟩ <;> cases hv
    | gate hov _ ht => exact ⟨hov, ht, rfl, rfl⟩
  · cases hu

/-- With the output up, the sample that is clear is the poll's. -/
theorem gauntlet_clear_sample (hs : s.state.sourcing = true)
    (h : s.gauntlet p e = .ok (.clear b, s')) : p.usableBattery = some b := by
  obtain ⟨b', hsam, -, -, hgate, -⟩ := gauntlet_clear h
  have hbring : ¬ (s.sampling p e).state.bringingUp = true := by
    intro hb
    rw [show s.state.sourcing = false from ChargeState.sourcing_of_bringingUp hb] at hs
    cases hs
  unfold bringUpGate at hgate
  rw [if_neg hbring] at hgate
  cases hgate
  exact hsam.battery

theorem tick_enable (h : s.tick p e = .ok (.enableOutput t, s')) :
    ∃ b, s.EnergiseGate p e b (!t.resumeAbsorb) ∧ s' = s.energised p e b := by
  rcases tick_eq_ok h with hr | ⟨s₁, v, s₂, hr, hg, hd⟩
  · exact absurd hr reconcile_ne_enable
  generalize ha : Action.enableOutput t = a at hd
  cases dispatch_cases hd with
  | latch r hf =>
    subst ha
    exact absurd hf onFault_ne_enable
  | inhibit i => cases ha
  | regulate b _ hreg =>
    subst ha
    exact absurd hreg regulate_ne_enable
  | enable b full hb hfull =>
    cases ha
    obtain ⟨b', hs, hov, ht, hgate, rfl⟩ := gauntlet_clear hg
    have hb₁ : s₁.state.bringingUp = true := hb
    obtain ⟨rfl, hsp, ho⟩ := (bringUpGate_clear (by exact hb₁)).1 hgate
    have hns := ChargeState.sourcing_of_bringingUp hb₁
    have hvolt : s₁.overvolts b' = false := by
      unfold OvPasses at hov
      rw [if_neg (by rw [show (s₁.sampling p e).state.sourcing = false from hns]; decide)] at hov
      exact hov
    generalize hno : (none : Option (Action F)) = o at hr
    cases reconcile_cases hr with
    | tripping | resurfaced | dark | lost | pending => cases hno
    | agree hag =>
      have ht' : s.packTemp = .fitted → s.TempPasses p e :=
        fun hf => ⟨(ht hf).fresh, (ht hf).inRange⟩
      refine ⟨b', ⟨hb₁, ?_, hs.flap, hsp, hs.drift, hs.battery, hvolt, ht', ?_⟩, rfl⟩
      · rintro (_ | cause) hout
        · rw [hout] at hag
          rw [show s.state.sourcing = true from hag] at hns
          cases hns
        · exact ⟨cause, rfl, ho cause hout⟩
      · rw [Bool.not_not]
        exact hfull
    | hold cause hout hc =>
      rw [ho cause hout] at hc
      cases hc
    | resume hout hh hn hm =>
      rw [hm.state, ChargeState.next_selfEnabled hh hn] at hns
      cases hns

theorem EnergiseGate.tick {full : Bool} (h : s.EnergiseGate p e b full) :
    s.tick p e = .ok (.enableOutput ⟨!full⟩, s.energised p e b) := by
  have hns := ChargeState.sourcing_of_bringingUp h.bringingUp
  have hsp : p.setpoints.isNone = false := by
    rw [Option.isNone_eq_false_iff]
    exact h.setpoints
  have hr : s.reconcile p = .ok (none, s) := by
    refine reconcile_agrees ?_
    unfold Automaton.Agrees
    split
    · exact .inr h.bringingUp
    · rename_i ho
      obtain ⟨cause, hc, -⟩ := h.output _ ho
      cases hc
    · exact h.bringingUp
  have hsampled : s.Sampled p e b := ⟨h.holds, h.drift, by rw [hsp]; rfl, h.battery⟩
  have hov : (s.sampling p e).OvPasses b e := by
    unfold OvPasses
    rw [if_neg (by rw [show (s.sampling p e).state.sourcing = false from hns]; decide)]
    exact h.voltage
  have hoc : (s.sampling p e).OvercurrentPasses b e := fun hs => by
    rw [show (s.sampling p e).state.sourcing = false from hns] at hs
    cases hs
  have hgate : (s.sampling p e).bringUpGate p b = .clear b := by
    refine (bringUpGate_clear h.bringingUp).2 ⟨rfl, h.setpoints, fun cause ho => ?_⟩
    obtain ⟨cause', hc, hcl⟩ := h.output _ ho
    cases hc
    exact hcl
  have hg := hsampled.gauntlet.trans
    (gauntletOn_gate hov hoc fun hf => ⟨(h.temp hf).fresh, (h.temp hf).inRange⟩)
  rw [hgate] at hg
  have hrest : ({ (s.sampling p e).examined p b e with inhibit := none } :
      ChargeSupervisor F).restedFull b = .ok full := h.rested
  unfold ChargeSupervisor.tick
  simp only [hr, hg, ok_bind]
  unfold dispatch
  simp only [hrest, ok_bind]
  rw [if_pos (by exact h.bringingUp)]
  rfl

/-- A tick asks for output-on exactly when the gate passes. -/
theorem tick_enable_iff : s.tick p e = .ok (.enableOutput t, s') ↔
    ∃ b, s.EnergiseGate p e b (!t.resumeAbsorb) ∧ s' = s.energised p e b := by
  refine ⟨tick_enable, ?_⟩
  rintro ⟨b, hg, rfl⟩
  rw [hg.tick, Bool.not_not]

theorem Reachable.ordered (h : s.Reachable) : s.profile.floatV < s.profile.absorbV := by
  induction h with
  | new h =>
    obtain ⟨hlt, -, rfl⟩ := new_eq_ok h
    exact hlt
  | turn _ h ih => rwa [(SameBoard.of_turn h).profile]

section Promise

variable {s s' : ChargeSupervisor Float32} {p : PollResult Float32} {e : Duration}
  {t : EnableTicket}

/-- The readback's difference from a target, in either register, is not a number. -/
def NanReadback (s : ChargeSupervisor Float32) (p : PollResult Float32) : Prop :=
  ∃ sp phase, p.setpoints = some sp ∧ s.state.setpointPhase = some phase ∧
    (sp.vSet - s.voltageForPhase phase = .nan ∨ sp.iSet - s.iSetA = .nan)

/-- What is promised of a tick that asks for output-on. -/
structure GatePromise (s : ChargeSupervisor Float32) (p : PollResult Float32)
    (s' : ChargeSupervisor Float32) (t : EnableTicket) : Prop where
  state : s.state ∈ [.boot, .holdFloat, .holdAbsorb, .holdParked]
  unchanged : s'.state = s.state
  setpoints : ∃ sp phase, p.setpoints = some sp ∧ s.state.setpointPhase = some phase ∧
    (sp.vSet - s.voltageForPhase phase).abs < setpointDriftTol ∧
    (sp.iSet - s.iSetA).abs < setpointDriftTol
  battery : ∃ b, p.battery = some b ∧ b.voltage.isFinite = true ∧ b.current.isFinite = true ∧
    b.voltage ≤ s.profile.absorbV + ovMarginV ∧
    (t.resumeAbsorb = false ↔ b.current.abs < s.profile.exitAbsorbA ∧ ∃ soc floatSoc,
      s.profile.soc b.voltage = .ok soc ∧ s.profile.soc s.profile.floatV = .ok floatSoc ∧
        floatSoc - fullSocMargin ≤ soc)
  output : p.output ≠ some .on ∧ ∀ cause, p.output = some (.off cause) →
    cause.isSelfClearing = false
  holds : s'.holds.holds ≤ maxHolds
  committed : ∃ s'', s'.commitEnable t = .ok s'' ∧ s''.state.sourcing = true ∧
    s''.state.setpointPhase = s.state.setpointPhase
  parked : s.state = .holdParked → ∀ t', ∃ s'', s'.commitEnable t' = .ok s'' ∧
    s''.state = .parked

theorem not_drifts {sp want : Setpoints Float32} (h : drifts sp want = false) :
    ((sp.vSet - want.vSet).abs < setpointDriftTol ∧
      (sp.iSet - want.iSet).abs < setpointDriftTol) ↔
    ¬ (sp.vSet - want.vSet = .nan ∨ sp.iSet - want.iSet = .nan) := by
  have htol : (setpointDriftTol : Float32) ≠ .nan :=
    Float32.ne_nan_of_isFinite limits_isFinite.2.1
  have hdiff : ∀ d : Float32, ¬ setpointDriftTol ≤ d.abs → (d.abs < setpointDriftTol ↔ d ≠ .nan) :=
    fun d hd => by
      refine ⟨fun hlt hn => ?_, fun hn => (Float32.not_le htol (Float32.abs_eq_nan.not.2 hn)).1 hd⟩
      exact (Float32.ne_nan_of_lt hlt).1 (Float32.abs_eq_nan.2 hn)
  obtain ⟨hv, hi⟩ : ¬ setpointDriftTol ≤ (sp.vSet - want.vSet).abs ∧
      ¬ setpointDriftTol ≤ (sp.iSet - want.iSet).abs := by
    simpa [drifts, not_or] using h
  rw [hdiff _ hv, hdiff _ hi, not_or]

theorem restedFull_eq_ok {b : BatterySample Float32} {full : Bool}
    (h : s.restedFull b = .ok full) : full = true ↔
      b.current.abs < s.profile.exitAbsorbA ∧ ∃ soc floatSoc, s.profile.soc b.voltage = .ok soc ∧
        s.profile.soc s.profile.floatV = .ok floatSoc ∧ floatSoc - fullSocMargin ≤ soc := by
  unfold restedFull at h
  split_ifs at h with hc
  · simp only [bind_eq_ok, Profile.fullRestSoc] at h
    obtain ⟨soc, hs, full', ⟨floatSoc, hf, hfull⟩, h⟩ := h
    cases hfull
    cases h
    rw [decide_eq_true_eq]
    refine ⟨fun hle => ⟨hc, soc, floatSoc, hs, hf, hle⟩, ?_⟩
    rintro ⟨-, soc', floatSoc', hs', hf', hle⟩
    rw [hs] at hs'
    rw [hf] at hf'
    cases hs'
    cases hf'
    exact hle
  · cases h
    exact ⟨fun h => (by cases h), fun h => absurd h.1 hc⟩

theorem EnergiseGate.commitEnable {b : BatterySample Float32} {full : Bool}
    (h : s.EnergiseGate p e b full) (t : EnableTicket) :
    ∃ s'', (s.energised p e b).commitEnable t = .ok s'' ∧ s''.state.sourcing = true ∧
      s''.state.setpointPhase = s.state.setpointPhase ∧
      (s.state = .holdParked → s''.state = .parked) := by
  have hnext : ∃ d, s.state.next (if t.resumeAbsorb then .enabledBelowFull else .enabled) = some d ∧
      d.sourcing = true ∧ d.setpointPhase = s.state.setpointPhase ∧
      (s.state = .holdParked → d = .parked) := by
    have hb := h.bringingUp
    cases t.resumeAbsorb <;> revert hb <;> cases s.state <;> rintro ⟨⟩ <;>
      exact ⟨_, rfl, rfl, rfl, by simp⟩
  obtain ⟨d, hn, hs, hp, hpark⟩ := hnext
  obtain ⟨s'', hstep, hm⟩ := step_ok (s := s.energised p e b) hn
  exact ⟨s'', hstep, by rw [hm.state, hs], by rw [hm.state, hp], fun h => by rw [hm.state, hpark h]⟩

/-- The gate keeps its promise unless a readback that is not a number passes it. -/
theorem gatePromise_iff (hr : s.Reachable) :
    (∀ t s', s.tick p e = .ok (.enableOutput t, s') → s.GatePromise p s' t) ↔
      ¬ (s.NanReadback p ∧ ∃ b full, s.EnergiseGate p e b full) := by
  constructor
  · rintro h ⟨⟨sp, phase, hsp, hph, hnan⟩, b, full, hg⟩
    obtain ⟨sp', phase', hsp', hph', hd⟩ := (h _ _ hg.tick).setpoints
    rw [hsp] at hsp'
    rw [hph] at hph'
    cases hsp'
    cases hph'
    have hdrift := hg.drift
    rw [setpointsDrift_eq hsp hph, Except.ok.injEq] at hdrift
    exact (not_drifts hdrift).1 hd hnan
  · intro h t s' ht
    obtain ⟨b, hg, rfl⟩ := tick_enable ht
    obtain ⟨sp, hsp⟩ := Option.isSome_iff_exists.1 hg.setpoints
    obtain ⟨phase, hph⟩ := ChargeState.exists_setpointPhase (.inr hg.bringingUp)
    obtain ⟨s'', hc, hsrc, hphase, -⟩ := hg.commitEnable t
    obtain ⟨hb, hfin⟩ := Option.filter_eq_some_iff.1 hg.battery
    obtain ⟨hfv, hfc⟩ : b.voltage.isFinite = true ∧ b.current.isFinite = true := by
      simpa using hfin
    refine ⟨?_, rfl, ⟨sp, phase, hsp, hph, ?_⟩, ⟨b, hb, hfv, hfc, ?_, ?_⟩, ⟨?_, ?_⟩, ?_,
      ⟨s'', hc, hsrc, hphase⟩, fun hst t' => ?_⟩
    · have := hg.bringingUp
      revert this
      cases s.state <;> decide
    · have hdrift := hg.drift
      rw [setpointsDrift_eq hsp hph, Except.ok.injEq] at hdrift
      exact (not_drifts hdrift).2 fun hn => h ⟨⟨sp, phase, hsp, hph, hn⟩, b, _, hg⟩
    · have habs := (Float32.ne_nan_of_lt hr.ordered).2
      have hmar := limits_isFinite.1
      refine (Float32.not_lt (Float32.add_ne_nan habs hmar) (Float32.ne_nan_of_isFinite hfv)).1 ?_
      simpa [overvolts] using hg.voltage
    · rw [← restedFull_eq_ok hg.rested]
      cases t.resumeAbsorb <;> simp
    · intro ho
      obtain ⟨cause, hcause, -⟩ := hg.output _ ho
      cases hcause
    · intro cause ho
      obtain ⟨cause', hcause, hcl⟩ := hg.output _ ho
      cases hcause
      exact hcl
    · have := hg.holds
      simpa [HoldBudget.step, energised, examined, sampling] using this
    · obtain ⟨s₂, hc₂, -, -, hp⟩ := hg.commitEnable t'
      exact ⟨s₂, hc₂, hp hst⟩

theorem gatePromise_boot : GatePromise (bootSupervisor .absent) (restPoll (some (.off .normal)))
    (after (bootSupervisor .absent)
      [⟨restPoll (some (.off .normal)), .fromSecs 1, false, 0⟩]) ⟨true⟩ := by
  refine (gatePromise_iff (e := .fromSecs 1) (bootSupervisor_reachable .absent)).2 ?_ _ _
    rfl
  rintro ⟨⟨sp, phase, hsp, hph, hnan⟩, -⟩
  cases hsp
  cases hph
  revert hnan
  decide +kernel

/-- A poll whose V_SET read back as no number. -/
def nanPoll : PollResult Float32 :=
  { restPoll (some (.off .normal)) with setpoints := some { vSet := .nan, iSet := 10.0 } }

theorem nanPoll_enables : (bootSupervisor .absent).Reachable ∧
    ∃ t s', (bootSupervisor .absent).tick nanPoll (.fromSecs 1) = .ok (.enableOutput t, s') ∧
      ¬ (bootSupervisor .absent).GatePromise nanPoll s' t := by
  refine ⟨bootSupervisor_reachable .absent, ⟨true⟩,
    after (bootSupervisor .absent) [⟨nanPoll, .fromSecs 1, false, 0⟩], rfl, fun h => ?_⟩
  obtain ⟨sp, phase, hsp, hph, hv, -⟩ := h.setpoints
  cases hsp
  cases hph
  revert hv
  decide +kernel

/-- Every other check of the gate passes on a poll with a hard cause. -/
theorem hardCause_iff {F : Type} [FloatLike F] (s : ChargeSupervisor F) (p : PollResult F)
    (e : Duration) :
    (∀ cause, p.output = some (.off cause) → cause ≠ .normal → cause.isSelfClearing = false →
      ∀ t s', s.tick p e ≠ .ok (.enableOutput t, s')) ↔
    ¬ ∃ cause b full, p.output = some (.off cause) ∧ cause ≠ .normal ∧
      s.EnergiseGate p e b full := by
  constructor
  · rintro h ⟨cause, b, full, ho, hn, hg⟩
    obtain ⟨cause', hc, hcl⟩ := hg.output _ ho
    cases hc
    exact h cause ho hn hcl _ _ hg.tick
  · intro h cause ho hn _ t s' ht
    obtain ⟨b, hg, -⟩ := tick_enable ht
    exact h ⟨cause, b, _, ho, hn, hg⟩

/-- Held on an input sag, with the buck's own overvoltage trip after it. -/
def heldTurns : List (Input Float32) :=
  [⟨restPoll (some (.off .normal)), .fromSecs 1, true, 1⟩,
    ⟨restPoll (some (.off .lvp)), .fromSecs 1, true, 1⟩]

def heldSupervisor : ChargeSupervisor Float32 := after (bootSupervisor .absent) heldTurns

theorem ovp_reenergised : heldSupervisor.Reachable ∧ heldSupervisor.state = .holdFloat ∧
    ProtectionStatus.ovp.isSelfClearing = false ∧
    ∃ t s', heldSupervisor.tick (restPoll (some (.off .ovp))) (.fromSecs 1)
      = .ok (.enableOutput t, s') :=
  ⟨after_reachable (bootSupervisor_reachable .absent) _, rfl, rfl, ⟨true⟩,
    after heldSupervisor [⟨restPoll (some (.off .ovp)), .fromSecs 1, false, 0⟩], rfl⟩

/-- A board with a sensor asks for output-on with a temperature in range, unless it reads none or
no number. -/
theorem fittedTemp_iff (hf : s.packTemp = .fitted) :
    (∀ t s', s.tick p e = .ok (.enableOutput t, s') → ∃ c, p.packTempC = some c ∧
      c.isFinite = true ∧ chargeTempMinC ≤ c ∧ c ≤ chargeTempMaxC) ↔
    ¬ ((p.packTempC = none ∨ p.packTempC = some .nan) ∧ ∃ b full, s.EnergiseGate p e b full) := by
  obtain ⟨-, -, hmin, hmax⟩ := limits_isFinite
  constructor
  · rintro h ⟨hc, b, full, hg⟩
    obtain ⟨c, hc', hfin, -⟩ := h _ _ hg.tick
    rcases hc with hc | hc <;> rw [hc] at hc' <;> cases hc'
    exact Float32.ne_nan_of_isFinite hfin rfl
  · intro h t s' ht
    obtain ⟨b, hg, -⟩ := tick_enable ht
    rcases hc : p.packTempC with _ | c
    · exact absurd ⟨.inl hc, b, _, hg⟩ h
    · have hnan : c ≠ .nan := by
        rintro rfl
        exact h ⟨.inr hc, b, _, hg⟩
      obtain ⟨hcold, hhot⟩ := (hg.temp hf).inRange c hc
      have hlo := (Float32.not_lt hnan (Float32.ne_nan_of_isFinite hmin)).1 hcold
      have hhi := (Float32.not_lt (Float32.ne_nan_of_isFinite hmax) hnan).1 hhot
      exact ⟨c, rfl, Float32.isFinite_of_mem hmin hmax hlo hhi, hlo, hhi⟩

/-- The rest poll with a temperature. -/
def tempPoll (c : Option Float32) : PollResult Float32 :=
  { restPoll (some (.off .normal)) with packTempC := c }

theorem fittedTemp_warm : ∃ c : Float32, some c = some 20.0 ∧ c.isFinite = true ∧
    chargeTempMinC ≤ c ∧ c ≤ chargeTempMaxC := by
  have h := (fittedTemp_iff (s := bootSupervisor .fitted) (p := tempPoll (some 20.0))
    (e := .fromSecs 1) rfl).2 (by
      rintro ⟨hc | hc, -⟩
      · cases hc
      · revert hc
        decide +kernel)
  obtain ⟨c, hc, hrest⟩ := h ⟨true⟩ (after (bootSupervisor .fitted)
    [⟨tempPoll (some 20.0), .fromSecs 1, false, 0⟩]) rfl
  exact ⟨c, hc.symm, hrest⟩

theorem blind_energised : (bootSupervisor .fitted).Reachable ∧
    (∃ t s', (bootSupervisor .fitted).tick (tempPoll none) (.fromSecs 1)
      = .ok (.enableOutput t, s')) ∧
    ∃ t s', (bootSupervisor .fitted).tick (tempPoll (some .nan)) (.fromSecs 1)
      = .ok (.enableOutput t, s') :=
  ⟨bootSupervisor_reachable .fitted,
    ⟨⟨true⟩, after (bootSupervisor .fitted) [⟨tempPoll none, .fromSecs 1, false, 0⟩],
      by rfl⟩,
    ⟨⟨true⟩, after (bootSupervisor .fitted) [⟨tempPoll (some .nan), .fromSecs 1, false, 0⟩],
      by rfl⟩⟩

end Promise

end ChargeSupervisor

end Esp32Battery
