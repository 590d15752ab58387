import Esp32Battery.Automaton
import Esp32Battery.Charging.ChargeSupervisor

/-!
# What the writers of the supervisor do

A move lands where the table says and resets what `land` resets; the transition buffer, which
nothing reads, is the one field left open. Each function that moves the machine is inverted once
here, and no later proof unfolds it.
-/

namespace Esp32Battery

open Lib

namespace ChargeSupervisor

variable {F : Type}

def view (s : ChargeSupervisor F) : View := ⟨s.state, s.fault, s.inhibit⟩

/-- `s'` is `s` moved to `d`, whatever was logged of it. -/
def Moved (s : ChargeSupervisor F) (d : ChargeState) (s' : ChargeSupervisor F) : Prop :=
  ∃ transitions, s' = { s.land d with transitions }

variable {s s' : ChargeSupervisor F} {d : ChargeState}

theorem Moved.view (h : s.Moved d s') : s'.view = ⟨d, s.fault, s.inhibit⟩ := by
  obtain ⟨tr, rfl⟩ := h
  rfl

theorem Moved.state (h : s.Moved d s') : s'.state = d := congrArg View.state h.view

/-- What nothing changes. -/
structure SameBoard (s s' : ChargeSupervisor F) : Prop where
  profile : s'.profile = s.profile
  iSetA : s'.iSetA = s.iSetA
  packTemp : s'.packTemp = s.packTemp

theorem SameBoard.refl (s : ChargeSupervisor F) : s.SameBoard s := ⟨rfl, rfl, rfl⟩

theorem SameBoard.trans {s₁ : ChargeSupervisor F} (h : s.SameBoard s₁) (h' : s₁.SameBoard s') :
    s.SameBoard s' :=
  ⟨h'.1.trans h.1, h'.2.trans h.2, h'.3.trans h.3⟩

theorem SameBoard.voltageForPhase (h : s.SameBoard s') (phase : Phase) :
    s'.voltageForPhase phase = s.voltageForPhase phase := by
  cases phase <;> simp only [ChargeSupervisor.voltageForPhase, h.profile]

theorem SameBoard.of_moved (h : s.Moved d s') : s.SameBoard s' := by
  obtain ⟨tr, rfl⟩ := h
  exact ⟨rfl, rfl, rfl⟩

theorem logTransition_ok (s : ChargeSupervisor F) (t : ChargeTransition) :
    ∃ transitions, s.logTransition t = .ok { s with transitions } := by
  obtain ⟨transitions, h⟩ := s.transitions.pushBack_evict t (by decide)
  refine ⟨transitions, ?_⟩
  unfold logTransition
  simp only [h, expect_some, ok_bind]
  rfl

theorem step_ok {event : ChargeEvent} (h : s.state.next event = some d) :
    ∃ s', s.step event = .ok s' ∧ s.Moved d s' := by
  unfold step
  simp only [h, expect_some, ok_bind]
  rcases hl : s.state.loggedAs d with _ | t
  · exact ⟨_, rfl, s.transitions, rfl⟩
  · obtain ⟨transitions, ht⟩ := s.logTransition_ok t
    exact ⟨_, by simp only [ht, ok_bind]; rfl, transitions, rfl⟩

theorem step_eq_ok {event : ChargeEvent} (h : s.step event = .ok s') :
    ∃ d, s.state.next event = some d ∧ s.Moved d s' := by
  rcases hd : s.state.next event with _ | d
  · simp [step, hd] at h
  · obtain ⟨s₁, h₁, hm⟩ := step_ok hd
    rw [h₁, Except.ok.injEq] at h
    exact ⟨d, rfl, h ▸ hm⟩

variable [FloatLike F]

theorem updateVoltageFor_eq_ok {next : Phase} {a : Action F}
    (h : s.updateVoltageFor next = .ok a) : ∃ live, s.state.setpointPhase = some live ∧
      a = .updateVoltage ⟨next, s.voltageForPhase next,
        s.voltageForPhase next < s.voltageForPhase live⟩ := by
  rcases hp : s.state.setpointPhase with _ | live
  · simp [updateVoltageFor, targetVoltage, expectedSetpoints, hp] at h
  · refine ⟨live, rfl, ?_⟩
    simpa [updateVoltageFor, targetVoltage, expectedSetpoints, hp, setpointsFor] using h.symm

/-- The fault is recorded first; then the machine parks, with the write that is owed, or trips. -/
theorem onFault_eq_ok {r : FaultReason} {a : Action F} (h : s.onFault r = .ok (a, s')) :
    ∃ d, ({ s with fault := some r, inhibit := none } : ChargeSupervisor F).Moved d s' ∧
      ((r.response = .park ∧ s.state.isParked = false ∧ s.state.next .park = some d ∧
          (d.retargetTo = none ∧ a = .none ∨
            ∃ next, d.retargetTo = some next ∧ s'.updateVoltageFor next = .ok a)) ∨
        ((r.response = .park → s.state.isParked = true) ∧ s.state.next .fault = some d ∧
          a = .disableOutput ⟨r⟩)) := by
  unfold onFault at h
  simp only [] at h
  split_ifs at h with hp
  · simp only [bind_eq_ok] at h
    obtain ⟨s₁, hs, h⟩ := h
    obtain ⟨d, hd, hm⟩ := step_eq_ok hs
    have hst : s₁.state = d := by obtain ⟨tr, rfl⟩ := hm; rfl
    rw [hst] at h
    rcases hr : d.retargetTo with _ | next <;> simp only [hr, bind_eq_ok] at h
    · cases h
      exact ⟨d, hm, .inl ⟨hp.1, by simpa using hp.2, hd, .inl ⟨hr, rfl⟩⟩⟩
    · obtain ⟨a', ha, h⟩ := h
      cases h
      exact ⟨d, hm, .inl ⟨hp.1, by simpa using hp.2, hd, .inr ⟨next, hr, ha⟩⟩⟩
  · simp only [bind_eq_ok] at h
    obtain ⟨s₁, hs, a', ha, h⟩ := h
    obtain ⟨d, hd, hm⟩ := step_eq_ok hs
    cases h
    refine ⟨d, hm, .inr ⟨by simpa using hp, hd, ?_⟩⟩
    obtain ⟨tr, rfl⟩ := hm
    simpa [disableForLatchedFault, land] using ha.symm

/-- What `reconcile` may answer: an action that decides the tick, or a machine that agrees with
the output. -/
inductive Reconciled (s : ChargeSupervisor F) (output : Option BuckOutput) :
    Option (Action F) → ChargeSupervisor F → Prop
  | tripping (r : FaultReason) : s.state = .tripping → s.fault = some r →
      Reconciled s output (some (.disableOutput ⟨r⟩)) s
  | resurfaced {s₁ : ChargeSupervisor F} (r : FaultReason) : s.state = .latched →
      output = some .on → s.fault = some r → s.Moved .tripping s₁ →
      Reconciled s output (some (.disableOutput ⟨r⟩)) s₁
  | dark : s.state = .latched → output ≠ some .on → Reconciled s output (some .none) s
  | lost {a : Action F} {s₁ : ChargeSupervisor F} (cause : ProtectionStatus) :
      output = some (.off cause) → s.state.sourcing = true →
      (cause.isSelfClearing = true → s.state.next .selfDisabled = none) →
      s.onFault (.outputUnexpectedlyOff cause) = .ok (a, s₁) → Reconciled s output (some a) s₁
  | pending {a : Action F} {s₁ : ChargeSupervisor F} : output = some .on → s.state = .boot →
      s.onFault .outputOnInPending = .ok (a, s₁) → Reconciled s output (some a) s₁
  | agree : Automaton.Agrees output s.state → Reconciled s output none s
  | hold {s₁ : ChargeSupervisor F} {d : ChargeState} (cause : ProtectionStatus) :
      output = some (.off cause) → cause.isSelfClearing = true → s.state.sourcing = true →
      s.state.next .selfDisabled = some d → s.Moved d s₁ → Reconciled s output none s₁
  | resume {s₁ : ChargeSupervisor F} {d : ChargeState} : output = some .on →
      s.state.holding = true → s.state.next .selfEnabled = some d → s.Moved d s₁ →
      Reconciled s output none s₁

theorem reconcile_cases {p : PollResult F} {o : Option (Action F)} {s₁ : ChargeSupervisor F}
    (h : s.reconcile p = .ok (o, s₁)) : Reconciled s p.output o s₁ := by
  unfold reconcile at h
  split at h
  · rename_i hs
    simp only [disableForLatchedFault, bind_eq_ok, expect_eq_ok] at h
    obtain ⟨a, ⟨r, hr, ha⟩, h⟩ := h
    cases ha
    cases h
    exact .tripping r hs hr
  · rename_i hs ho
    simp only [disableForLatchedFault, bind_eq_ok, expect_eq_ok] at h
    obtain ⟨s₂, hm, a, ⟨r, hr, ha⟩, h⟩ := h
    obtain ⟨d, hd, hm⟩ := step_eq_ok hm
    cases ha
    cases h
    rw [hs] at hd
    cases hd
    obtain ⟨tr, rfl⟩ := hm
    exact .resurfaced r hs ho (by simpa [land] using hr) ⟨tr, rfl⟩
  · rename_i hs ho
    cases h
    exact .dark hs ho
  · rename_i cause ho ht hl
    split_ifs at h with h₁ h₂
    · simp only [bind_eq_ok] at h
      obtain ⟨s₂, hm, h⟩ := h
      obtain ⟨d, hd, hm⟩ := step_eq_ok hm
      cases h
      exact .hold cause ho h₂.1 h₁ hd hm
    · simp only [bind_eq_ok] at h
      obtain ⟨⟨a, s₂⟩, hf, h⟩ := h
      cases h
      exact .lost cause ho h₁ (by simpa using h₂) hf
    · cases h
      refine .agree ?_
      rw [ho]
      revert ht hl h₁
      cases s.state <;> simp [Automaton.Agrees, ChargeState.sourcing, ChargeState.bringingUp]
  · rename_i ho ht hl
    split_ifs at h with h₁ h₂
    · simp only [bind_eq_ok] at h
      obtain ⟨s₂, hm, h⟩ := h
      obtain ⟨d, hd, hm⟩ := step_eq_ok hm
      cases h
      exact .resume ho h₂ hd hm
    · simp only [bind_eq_ok] at h
      obtain ⟨⟨a, s₂⟩, hf, h⟩ := h
      cases h
      refine .pending ho ?_ hf
      revert h₁ h₂
      cases s.state <;> simp [ChargeState.holding, ChargeState.bringingUp]
    · cases h
      refine .agree ?_
      rw [ho]
      revert ht hl h₁
      cases s.state <;> simp [Automaton.Agrees, ChargeState.sourcing, ChargeState.bringingUp]
  · rename_i ho ht hl
    cases h
    refine .agree ?_
    rw [ho]
    revert ht hl
    cases s.state <;> simp [Automaton.Agrees, ChargeState.sourcing, ChargeState.bringingUp]

/-- A machine that agrees with the output is left as it is. -/
theorem reconcile_agrees {p : PollResult F} (h : Automaton.Agrees p.output s.state) :
    s.reconcile p = .ok (none, s) := by
  have hlive := Automaton.not_terminal h.ready
  unfold reconcile
  split
  · rename_i hs
    exact absurd (.inl hs) hlive
  · rename_i hs _
    exact absurd (.inr hs) hlive
  · rename_i hs _
    exact absurd (.inr hs) hlive
  · rename_i cause ho _ _
    rw [ho] at h
    rw [if_neg (by rw [ChargeState.sourcing_of_bringingUp h]; decide)]
  · rename_i ho _ _
    rw [ho] at h
    refine if_neg fun hb => ?_
    have hs : s.state.sourcing = true := h
    rw [ChargeState.sourcing_of_bringingUp hb] at hs
    cases hs
  · rfl

theorem Reconciled.not_terminal {output : Option BuckOutput} (h : s.Reconciled output none s') :
    ¬ Automaton.Terminal s.state := by
  cases h with
  | agree hag => exact Automaton.not_terminal hag.ready
  | hold _ _ _ hs => exact Automaton.not_terminal (.inl hs)
  | resume _ hh => exact Automaton.not_terminal (.inr (ChargeState.bringingUp_of_holding hh))

theorem Reconciled.ready {output : Option BuckOutput} (h : s.Reconciled output none s') :
    s'.state.sourcing = true ∨ s'.state.bringingUp = true := by
  cases h with
  | agree hag => exact hag.ready
  | hold _ _ _ _ hn hm =>
    rw [hm.state]
    exact .inr (ChargeState.bringingUp_of_holding (ChargeState.next_selfDisabled hn))
  | resume _ hh hn hm =>
    rw [hm.state]
    exact .inl (ChargeState.next_selfEnabled hh hn)

end ChargeSupervisor

end Esp32Battery
