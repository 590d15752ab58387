import Esp32Battery.Charging.Run
import Esp32Battery.Proofs.Gauntlet

/-!
# A tick is a beat of the automaton

The sourcing arm is inverted, and a tick with its windows forgotten is one beat. What a caller
does between ticks either commits what the beat asked for or changes nothing the automaton shows.
-/

namespace Esp32Battery

open Lib

namespace ChargeSupervisor

variable {F : Type} [FloatLike F] {s s' : ChargeSupervisor F} {p : PollResult F} {e : Duration}
  {b : BatterySample F} {a : Action F}

/-- What the sourcing arm may do. -/
inductive Regulated (s : ChargeSupervisor F) (b : BatterySample F) (e : Duration) :
    Action F → ChargeSupervisor F → Prop
  | retarget {a : Action F} (next : Phase) : s.state.retargetTo = some next →
      s.updateVoltageFor next = .ok a → Regulated s b e a s
  | rise {a : Action F} {s₁ : ChargeSupervisor F} {fired : Bool} {exit : Debounce} :
      s.state = .float → s.profile.enterAbsorbA < b.chargingA →
      s.exit.stepLeaky false e exitDebounce = .ok (fired, exit) →
      ({ s with exit } : ChargeSupervisor F).Moved .toAbsorb s₁ →
      s₁.updateVoltageFor .absorb = .ok a → Regulated s b e a s₁
  | fall {a : Action F} {s₁ : ChargeSupervisor F} {exit : Debounce} : s.state = .absorb →
      s.exit.stepLeaky (b.chargingA < s.profile.exitAbsorbA) e exitDebounce = .ok (true, exit) →
      ({ s with exit } : ChargeSupervisor F).Moved .toFloat s₁ →
      s₁.updateVoltageFor .float = .ok a → Regulated s b e a s₁
  | absorbTimeout {a : Action F} {s₁ : ChargeSupervisor F} {exit absorb : Debounce} :
      s.state = .absorb →
      s.exit.stepLeaky (b.chargingA < s.profile.exitAbsorbA) e exitDebounce = .ok (false, exit) →
      s.absorb.stepLeaky (s.atCvPlateau b.voltage) e maxAbsorb = .ok (true, absorb) →
      ({ s with exit, absorb } : ChargeSupervisor F).onFault .absorbTimeout = .ok (a, s₁) →
      Regulated s b e a s₁
  | chargeTimeout {a : Action F} {s₁ : ChargeSupervisor F} {exit absorb : Debounce} :
      s.state = .absorb →
      s.exit.stepLeaky (b.chargingA < s.profile.exitAbsorbA) e exitDebounce = .ok (false, exit) →
      s.absorb.stepLeaky (s.atCvPlateau b.voltage) e maxAbsorb = .ok (false, absorb) →
      (s.chargeTotal.step true e maxCharge).1 = true →
      ({ s with exit, absorb, chargeTotal := (s.chargeTotal.step true e maxCharge).2 } :
        ChargeSupervisor F).onFault .chargeTimeout = .ok (a, s₁) →
      Regulated s b e a s₁
  | absorbing {exit absorb : Debounce} : s.state = .absorb →
      s.exit.stepLeaky (b.chargingA < s.profile.exitAbsorbA) e exitDebounce = .ok (false, exit) →
      s.absorb.stepLeaky (s.atCvPlateau b.voltage) e maxAbsorb = .ok (false, absorb) →
      (s.chargeTotal.step true e maxCharge).1 = false →
      Regulated s b e .none
        { s with exit, absorb, chargeTotal := (s.chargeTotal.step true e maxCharge).2 }
  | idle {fired : Bool} {exit : Debounce} : s.state.retargetTo = none → s.state ≠ .absorb →
      (s.state = .float → ¬ s.profile.enterAbsorbA < b.chargingA) →
      s.exit.stepLeaky false e exitDebounce = .ok (fired, exit) →
      Regulated s b e .none { s with exit }

theorem regulate_cases (h : s.regulate b e = .ok (a, s')) : s.Regulated b e a s' := by
  unfold regulate at h
  split at h
  · rename_i next hn
    simp only [bind_eq_ok] at h
    obtain ⟨a', ha, h⟩ := h
    cases h
    exact .retarget next hn ha
  rename_i hn
  simp only [bind_eq_ok] at h
  obtain ⟨⟨fired, exit⟩, hx, h⟩ := h
  simp only [] at h
  split_ifs at h with hrise hfall habs
  · simp only [bind_eq_ok] at h
    obtain ⟨s₁, hm, a', ha, h⟩ := h
    obtain ⟨d, hd, hm⟩ := step_eq_ok hm
    simp only [hrise.1] at hd hx
    cases hd
    cases h
    exact .rise hrise.1 hrise.2 (by simpa using hx) hm ha
  · simp only [bind_eq_ok] at h
    obtain ⟨s₁, hm, a', ha, h⟩ := h
    obtain ⟨d, hd, hm⟩ := step_eq_ok hm
    simp only [hfall.1] at hd hx
    cases hd
    cases h
    exact .fall hfall.1 (by simpa [hfall.2] using hx) hm ha
  · have hf : fired = false := by simpa [habs] using hfall
    subst hf
    have hx' : s.exit.stepLeaky (b.chargingA < s.profile.exitAbsorbA) e exitDebounce
        = .ok (false, exit) := by simpa [habs] using hx
    unfold absorbCaps at h
    simp only [bind_eq_ok] at h
    obtain ⟨⟨capped, absorb⟩, hc, h⟩ := h
    simp only [] at h
    split_ifs at h with hcap htot
    · exact .absorbTimeout habs hx' (by rw [← hcap]; exact hc) h
    · rw [Bool.not_eq_true] at hcap
      exact .chargeTimeout habs hx' (by rw [← hcap]; exact hc) htot h
    · rw [Bool.not_eq_true] at hcap htot
      cases h
      exact .absorbing habs hx' (by rw [← hcap]; exact hc) htot
  · cases h
    have hx' : s.exit.stepLeaky false e exitDebounce = .ok (fired, exit) := by
      simpa [habs] using hx
    exact .idle hn habs (fun hf hlt => hrise ⟨hf, hlt⟩) hx'

/-- What acting on a verdict may do. -/
inductive Dispatched (s : ChargeSupervisor F) (e : Duration) :
    Verdict F → Action F → ChargeSupervisor F → Prop
  | latch {a : Action F} {s₁ : ChargeSupervisor F} (r : FaultReason) :
      s.onFault r = .ok (a, s₁) → Dispatched s e (.latch r) a s₁
  | inhibit (i : InhibitReason) :
      Dispatched s e (.inhibit i) .none { s with inhibit := some i }
  | enable (b : BatterySample F) (full : Bool) : s.state.bringingUp = true →
      s.restedFull b = .ok full →
      Dispatched s e (.clear b) (.enableOutput ⟨!full⟩) { s with inhibit := none }
  | regulate {a : Action F} {s₁ : ChargeSupervisor F} (b : BatterySample F) :
      s.state.bringingUp = false →
      ({ s with inhibit := none } : ChargeSupervisor F).regulate b e = .ok (a, s₁) →
      Dispatched s e (.clear b) a s₁

theorem dispatch_cases {v : Verdict F} (h : s.dispatch v e = .ok (a, s')) :
    s.Dispatched e v a s' := by
  cases v with
  | latch r => exact .latch r h
  | inhibit i =>
    cases h
    exact .inhibit i
  | clear b =>
    unfold dispatch at h
    simp only [] at h
    split_ifs at h with hb
    · simp only [bind_eq_ok] at h
      obtain ⟨full, hfull, h⟩ := h
      cases h
      exact .enable b full hb hfull
    · exact .regulate b (by simpa using hb) h

theorem tick_eq_ok (h : s.tick p e = .ok (a, s')) :
    s.reconcile p = .ok (some a, s') ∨ ∃ s₁ v s₂, s.reconcile p = .ok (none, s₁) ∧
      s₁.gauntlet p e = .ok (v, s₂) ∧ s₂.dispatch v e = .ok (a, s') := by
  unfold tick at h
  simp only [bind_eq_ok] at h
  obtain ⟨⟨o, s₁⟩, hr, h⟩ := h
  rcases o with _ | a₁
  · simp only [bind_eq_ok] at h
    obtain ⟨⟨v, s₂⟩, hg, h⟩ := h
    exact .inr ⟨s₁, v, s₂, hr, hg, h⟩
  · cases h
    exact .inl hr

/-- The readback is off the target of `phase`. -/
def drift (s : ChargeSupervisor F) (p : PollResult F) (phase : Phase) : Prop :=
  ∃ sp, p.setpoints = some sp ∧ drifts sp (s.setpointsFor phase) = true

/-- `a` is what `act` asks for, a voltage ticket naming the target of its phase and whether it
lies below the live one. -/
def Realizes (s : ChargeSupervisor F) : Action F → Act → Prop
  | .none, .none => True
  | .enableOutput _, .enable => True
  | .updateVoltage t, .retarget phase => ∃ live, s.state.setpointPhase = some live ∧
      t = ⟨phase, s.voltageForPhase phase, s.voltageForPhase phase < s.voltageForPhase live⟩
  | .disableOutput t, .disable r => t.reason = r
  | _, _ => False

theorem Realizes.retarget {phase : Phase} (h : s.updateVoltageFor phase = .ok a) :
    s.Realizes a (.retarget phase) := by
  obtain ⟨live, hl, rfl⟩ := updateVoltageFor_eq_ok h
  exact ⟨live, hl, rfl⟩

theorem onFault_judged {D : Phase → Prop} {r : FaultReason} {v : View}
    (h : s.onFault r = .ok (a, s')) (hv : v.state = s.state)
    (hd : ∀ phase, v.state.setpointPhase = some phase → r = .settingsDrift → D phase)
    (hs : v.state.sourcing = true ∨ r = .protectionFlapping) :
    ∃ act, Automaton.Judged D v s'.view act ∧ s'.Realizes a act := by
  obtain ⟨d, hm, ⟨hr, -, hn, hp⟩ | ⟨hr, hn, rfl⟩⟩ := onFault_eq_ok h
  · rw [hm.view]
    rcases hp with ⟨ht, rfl⟩ | ⟨next, ht, hu⟩
    · exact ⟨.none, .park r hr (hv ▸ hn) ht, trivial⟩
    · exact ⟨.retarget next, .toPark r hr (hv ▸ hn) ht, .retarget hu⟩
  · rw [hm.view]
    obtain ⟨rfl, phase, hp⟩ := ChargeState.next_fault hn
    rw [← hv] at hp hr
    exact ⟨.disable r, .trip r hp (hd phase hp) hs hr, rfl⟩

theorem onFault_disable {r : FaultReason} (h : s.onFault r = .ok (a, s'))
    (hr : r.response = .disable) :
    s'.view = ⟨.tripping, some r, none⟩ ∧ a = .disableOutput ⟨r⟩ := by
  obtain ⟨d, hm, ⟨hr', -⟩ | ⟨-, hn, rfl⟩⟩ := onFault_eq_ok h
  · rw [hr] at hr'
    cases hr'
  · obtain ⟨rfl, -⟩ := ChargeState.next_fault hn
    exact ⟨hm.view, rfl⟩

theorem regulate_judged {D : Phase → Prop} {v : View} (h : s.regulate b e = .ok (a, s'))
    (hv : v.state = s.state) (hf : v.fault = s.fault) (hi : s.inhibit = none)
    (hs : v.state.sourcing = true) :
    ∃ act, Automaton.Judged D v s'.view act ∧ s'.Realizes a act := by
  have hview : s.view = ⟨v.state, v.fault, none⟩ := by rw [view, hv, hf, hi]
  have habs : ∀ {x y z : Debounce} {r : FaultReason}, s.state = .absorb → r ≠ .settingsDrift →
      ({ s with exit := x, absorb := y, chargeTotal := z } : ChargeSupervisor F).onFault r
        = .ok (a, s') → ∃ act, Automaton.Judged D v s'.view act ∧ s'.Realizes a act :=
    fun _ hr h => onFault_judged h hv (fun _ _ h => absurd h hr) (.inl hs)
  cases regulate_cases h with
  | retarget next hn hu => exact ⟨_, hview ▸ .retarget (hv ▸ hn), .retarget hu⟩
  | rise hst _ _ hm hu =>
    rw [hm.view]
    exact ⟨_, hf ▸ hi ▸ .rise (hv.trans hst), .retarget hu⟩
  | fall hst _ hm hu =>
    rw [hm.view]
    exact ⟨_, hf ▸ hi ▸ .fall (hv.trans hst), .retarget hu⟩
  | absorbTimeout hst _ _ ho => exact habs hst (by simp) ho
  | chargeTimeout hst _ _ _ ho => exact habs hst (by simp) ho
  | absorbing hst =>
    exact ⟨.none, hview ▸ .idle hs (by rw [hv, hst]; rfl), trivial⟩
  | idle hn => exact ⟨.none, hview ▸ .idle hs (hv ▸ hn), trivial⟩

theorem setpointsDrift_eq {sp : Setpoints F} {phase : Phase} (hsp : p.setpoints = some sp)
    (hp : s.state.setpointPhase = some phase) :
    s.setpointsDrift p.setpoints = .ok (drifts sp (s.setpointsFor phase)) := by
  rw [hsp, setpointsDrift, expectedSetpoints, hp]
  rfl

theorem drift_of_setpointsDrift {phase : Phase}
    (h : s.setpointsDrift p.setpoints = .ok true) (hp : s.state.setpointPhase = some phase) :
    s.drift p phase := by
  rcases hsp : p.setpoints with _ | sp
  · rw [hsp] at h
    cases h
  · rw [setpointsDrift_eq hsp hp, Except.ok.injEq] at h
    exact ⟨sp, hsp, h⟩

/-- The verdict on a machine that agrees with the output, acted on. -/
theorem dispatch_judged {s₁ s₂ : ChargeSupervisor F} {v : Verdict F}
    (hs : s₁.state.sourcing = true ∨ s₁.state.bringingUp = true)
    (hg : s₁.gauntlet p e = .ok (v, s₂)) (h : s₂.dispatch v e = .ok (a, s')) :
    ∃ act, Automaton.Judged (s₁.drift p) s₁.view s'.view act ∧ s'.Realizes a act := by
  obtain ⟨phase, hp⟩ := ChargeState.exists_setpointPhase hs
  have hview := (gauntlet_clocked hg).view
  have hst : s₂.state = s₁.state := congrArg View.state hview
  have hft : s₂.fault = s₁.fault := congrArg View.fault hview
  have hw : ∀ i, ({ s₂ with inhibit := i } : ChargeSupervisor F).view
      = ⟨s₁.view.state, s₁.view.fault, i⟩ := by
    intro i
    simp [view, hst, hft]
  cases dispatch_cases h with
  | latch r hf =>
    obtain ⟨hsrc, hd⟩ := gauntlet_latch hg
    exact onFault_judged hf hst.symm (fun _ hp hr => drift_of_setpointsDrift (hd hr) hp) hsrc
  | inhibit i =>
    obtain ⟨hsrc, hd⟩ := gauntlet_inhibit hg
    refine ⟨.none, ?_, trivial⟩
    rw [hw]
    exact .inhibit i hp (fun hi => drift_of_setpointsDrift (hd hi) hp) fun hs => (hsrc hs).1
  | enable b full hb =>
    rw [hst] at hb
    refine ⟨.enable, ?_, trivial⟩
    rw [hw]
    exact .enable hb
  | regulate b hb hreg =>
    rw [hst] at hb
    exact regulate_judged hreg hst.symm hft.symm rfl (hs.resolve_right (by rw [hb]; decide))

/-- With its windows forgotten, a tick is one beat of the automaton. -/
theorem tick_beat (h : s.tick p e = .ok (a, s')) :
    ∃ act, Automaton.Beat (s.drift p) p.output s.view s'.view act ∧ s'.Realizes a act := by
  rcases tick_eq_ok h with hr | ⟨s₁, v, s₂, hr, hg, hd⟩
  · generalize ho : some a = o at hr
    cases reconcile_cases hr with
    | tripping r hs hf => cases ho; exact ⟨_, .tripping r hs hf, rfl⟩
    | resurfaced r hs hout hf hm =>
      cases ho
      rw [hm.view]
      exact ⟨_, .resurfaced r hs hf hout, rfl⟩
    | dark hs hout => cases ho; exact ⟨_, .dark hs hout, trivial⟩
    | lost cause hout hs _ hf =>
      cases ho
      obtain ⟨hv, rfl⟩ := onFault_disable hf rfl
      rw [hv]
      exact ⟨_, .lost cause hs hout, rfl⟩
    | pending hout hs hf =>
      cases ho
      obtain ⟨hv, rfl⟩ := onFault_disable hf rfl
      rw [hv]
      exact ⟨_, .pending hs hout, rfl⟩
    | agree | hold | resume => cases ho
  · have hs₁ := (reconcile_cases hr).ready
    obtain ⟨act, hj, hre⟩ := dispatch_judged hs₁ hg hd
    generalize ho : (none : Option (Action F)) = o at hr
    cases reconcile_cases hr with
    | agree hag => exact ⟨act, .agree hag hj, hre⟩
    | hold cause hout hc hs hn hm =>
      rw [hm.view] at hj
      refine ⟨act, .hold cause hout hc hs hn ?_, hre⟩
      obtain ⟨tr, rfl⟩ := hm
      exact hj
    | resume hout hs hn hm =>
      rw [hm.view] at hj
      refine ⟨act, .resume hout hs hn ?_, hre⟩
      obtain ⟨tr, rfl⟩ := hm
      exact hj
    | tripping | resurfaced | dark | lost | pending => cases ho

omit [FloatLike F] in
/-- A commit of a ticket is one move, never the one into a hold. -/
theorem commit_cases (h : s.commit a = .ok s') : (a = .none ∧ s' = s) ∨
    ∃ event d, event ≠ .selfDisabled ∧ s.state.next event = some d ∧ s.Moved d s' := by
  have hstep : ∀ {event : ChargeEvent}, s.step event = .ok s' → event ≠ .selfDisabled →
      ∃ event d, event ≠ .selfDisabled ∧ s.state.next event = some d ∧ s.Moved d s' :=
    fun h hne => by
      obtain ⟨d, hn, hm⟩ := step_eq_ok h
      exact ⟨_, d, hne, hn, hm⟩
  cases a with
  | none => cases h; exact .inl ⟨rfl, rfl⟩
  | enableOutput t => exact .inr (hstep (show s.step _ = .ok s' from h) (by split_ifs <;> simp))
  | updateVoltage t =>
    simp only [commit, commitVoltage, require_bind_eq_ok] at h
    exact .inr (hstep h.2 (by simp))
  | disableOutput t =>
    simp only [commit, commitDisable, require_bind_eq_ok] at h
    exact .inr (hstep h.2 (by simp))

namespace SameBoard

theorem of_onFault {r : FaultReason} (h : s.onFault r = .ok (a, s')) : s.SameBoard s' := by
  obtain ⟨d, hm, -⟩ := onFault_eq_ok h
  obtain ⟨h₁, h₂, h₃⟩ := of_moved hm
  exact ⟨h₁, h₂, h₃⟩

theorem of_reconciled {o : Option (Action F)} (h : s.reconcile p = .ok (o, s')) :
    s.SameBoard s' := by
  cases reconcile_cases h with
  | tripping | dark | agree => exact refl s
  | resurfaced _ _ _ _ hm => exact of_moved hm
  | lost _ _ _ _ hf => exact of_onFault hf
  | pending _ _ hf => exact of_onFault hf
  | hold _ _ _ _ _ hm => exact of_moved hm
  | resume _ _ _ hm => exact of_moved hm

theorem of_regulate (h : s.regulate b e = .ok (a, s')) : s.SameBoard s' := by
  cases regulate_cases h with
  | retarget | absorbing | idle => exact ⟨rfl, rfl, rfl⟩
  | rise _ _ _ hm =>
    obtain ⟨h₁, h₂, h₃⟩ := of_moved hm
    exact ⟨h₁, h₂, h₃⟩
  | fall _ _ hm =>
    obtain ⟨h₁, h₂, h₃⟩ := of_moved hm
    exact ⟨h₁, h₂, h₃⟩
  | absorbTimeout _ _ _ hf =>
    obtain ⟨h₁, h₂, h₃⟩ := of_onFault hf
    exact ⟨h₁, h₂, h₃⟩
  | chargeTimeout _ _ _ _ hf =>
    obtain ⟨h₁, h₂, h₃⟩ := of_onFault hf
    exact ⟨h₁, h₂, h₃⟩

theorem of_dispatch {v : Verdict F} (h : s.dispatch v e = .ok (a, s')) : s.SameBoard s' := by
  cases dispatch_cases h with
  | latch r hf => exact of_onFault hf
  | inhibit | enable => exact ⟨rfl, rfl, rfl⟩
  | regulate b _ hreg =>
    obtain ⟨h₁, h₂, h₃⟩ := of_regulate hreg
    exact ⟨h₁, h₂, h₃⟩

theorem of_tick (h : s.tick p e = .ok (a, s')) : s.SameBoard s' := by
  rcases tick_eq_ok h with hr | ⟨s₁, v, s₂, hr, hg, hd⟩
  · exact of_reconciled hr
  · exact ((of_reconciled hr).trans (of_clocked (gauntlet_clocked hg))).trans (of_dispatch hd)

omit [FloatLike F] in
theorem of_commit (h : s.commit a = .ok s') : s.SameBoard s' := by
  rcases commit_cases h with ⟨-, rfl⟩ | ⟨event, d, -, -, hm⟩
  · exact refl s'
  · exact of_moved hm

end SameBoard

/-- Committing a ticket makes the move its action asked for, and nothing else that shows. -/
theorem commit_committed {act : Act} (hre : s.Realizes a act) (h : s.commit a = .ok s') :
    Automaton.Committed act s.state s'.state ∧ s'.fault = s.fault ∧ s'.inhibit = s.inhibit := by
  have hmove : ∀ {d : ChargeState}, s.Moved d s' → s'.state = d ∧ s'.fault = s.fault ∧
      s'.inhibit = s.inhibit := fun hm => by
    obtain ⟨tr, rfl⟩ := hm
    exact ⟨rfl, rfl, rfl⟩
  cases a with
  | none =>
    cases h
    cases act <;> first | exact ⟨.none _, rfl, rfl⟩ | cases hre
  | enableOutput t =>
    obtain ⟨d, hn, hm⟩ := step_eq_ok (show s.step _ = .ok s' from h)
    obtain ⟨hs, hf⟩ := hmove hm
    cases act <;> first | exact ⟨.enable t.resumeAbsorb (hs ▸ hn), hf⟩ | cases hre
  | updateVoltage t =>
    simp only [commit, commitVoltage, require_bind_eq_ok, decide_eq_true_eq] at h
    obtain ⟨hph, h⟩ := h
    obtain ⟨d, hn, hm⟩ := step_eq_ok h
    obtain ⟨hs, hf⟩ := hmove hm
    cases act with
    | retarget phase =>
      obtain ⟨live, -, rfl⟩ := hre
      exact ⟨.retarget hph (hs ▸ hn), hf⟩
    | none | enable | disable => cases hre
  | disableOutput t =>
    simp only [commit, commitDisable, require_bind_eq_ok] at h
    obtain ⟨-, h⟩ := h
    obtain ⟨d, hn, hm⟩ := step_eq_ok h
    obtain ⟨hs, hf⟩ := hmove hm
    cases act with
    | disable r => exact ⟨.disable r (hs ▸ hn), hf⟩
    | none | enable | retarget => cases hre

omit [FloatLike F] in
theorem popN_eq (s : ChargeSupervisor F) (n : ℕ) :
    ∃ transitions, s.popN n = { s with transitions } := by
  induction n generalizing s with
  | zero => exact ⟨s.transitions, rfl⟩
  | succ n ih => exact ih s.popTransition.2

/-- A turn is a beat, then a commit if the caller makes one. -/
theorem turn_eq_ok {i : Input F} (h : s.turn i = .ok (a, s')) :
    ∃ s₁ s₂ transitions, s.tick i.poll i.elapsed = .ok (a, s₁) ∧
      (i.commit = true ∧ s₁.commit a = .ok s₂ ∨ i.commit = false ∧ s₂ = s₁) ∧
      s' = { s₂ with transitions } := by
  unfold turn at h
  simp only [bind_eq_ok] at h
  obtain ⟨⟨a', s₁⟩, ht, h⟩ := h
  simp only [] at h
  split_ifs at h with hi
  · simp only [bind_eq_ok] at h
    obtain ⟨s₂, hc, h⟩ := h
    obtain ⟨tr, hp⟩ := s₂.popN_eq i.drain
    rw [hp] at h
    cases h
    exact ⟨s₁, s₂, tr, ht, .inl ⟨hi, hc⟩, rfl⟩
  · obtain ⟨tr, hp⟩ := s₁.popN_eq i.drain
    simp only [ok_bind, hp] at h
    cases h
    exact ⟨s₁, s₁, tr, ht, .inr ⟨by simpa using hi, rfl⟩, rfl⟩

theorem turn_beat {i : Input F} (h : s.turn i = .ok (a, s')) :
    ∃ v act, Automaton.Beat (s.drift i.poll) i.poll.output s.view v act ∧
      (∃ s₁ : ChargeSupervisor F, s₁.view = v ∧ s₁.SameBoard s' ∧ s₁.Realizes a act) ∧
      (s'.view = v ∨ Automaton.Committed act v.state s'.state ∧ s'.fault = v.fault ∧
        s'.inhibit = v.inhibit) := by
  obtain ⟨s₁, s₂, tr, ht, hc, rfl⟩ := turn_eq_ok h
  obtain ⟨act, hbeat, hre⟩ := tick_beat ht
  refine ⟨s₁.view, act, hbeat, ?_⟩
  rcases hc with ⟨-, hc⟩ | ⟨-, rfl⟩
  · have hcom := commit_committed hre hc
    exact ⟨⟨s₁, rfl, .trans (.of_commit hc) ⟨rfl, rfl, rfl⟩, hre⟩, .inr hcom⟩
  · exact ⟨⟨s₂, rfl, ⟨rfl, rfl, rfl⟩, hre⟩, .inl rfl⟩

theorem SameBoard.of_turn {i : Input F} (h : s.turn i = .ok (a, s')) : s.SameBoard s' := by
  obtain ⟨s₁, s₂, tr, ht, hc, rfl⟩ := turn_eq_ok h
  rcases hc with ⟨-, hc⟩ | ⟨-, rfl⟩
  · exact ((of_tick ht).trans (of_commit hc)).trans ⟨rfl, rfl, rfl⟩
  · exact (of_tick ht).trans ⟨rfl, rfl, rfl⟩

theorem SameBoard.of_run {is : List (Input F)} {as : List (Action F)}
    (h : s.run is = .ok (as, s')) : s.SameBoard s' :=
  (run_induction (P := s.SameBoard) (Q := fun _ => True)
    (fun _ _ _ _ hs ht => ⟨hs.trans (of_turn ht), trivial⟩) (.refl s) h).1

end ChargeSupervisor

end Esp32Battery
