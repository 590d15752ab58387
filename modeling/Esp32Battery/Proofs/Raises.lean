import Esp32Battery.Proofs.Windows

/-!
# Which part of a turn raises a fault

Agreeing with the output raises the faults of an output that is not where the machine left it, the
sourcing arm raises the two caps, and every other fault is a verdict of the gauntlet.
-/

namespace Esp32Battery

open Lib Automaton

namespace FaultReason

/-- The faults the gauntlet checks for. -/
def checked : FaultReason → Bool
  | batterySensorStale | modbusUnhealthy | overvoltage | protectionFlapping | packTooCold
  | packTooHot | packTempStale | chargeOvercurrent | settingsDrift => true
  | absorbTimeout | chargeTimeout | outputUnexpectedlyOff _ | outputOnInPending => false

end FaultReason

namespace ChargeSupervisor

variable {F : Type} [FloatLike F] {s s' : ChargeSupervisor F} {p : PollResult F} {e : Duration}
  {b : BatterySample F} {i : Input F} {a : Action F} {r : FaultReason}

/-- The turn raises `r`: it puts it in the fault field, or disables on it a machine that had not
given up. -/
def Raises (r : FaultReason) (s : ChargeSupervisor F) (a : Action F) (s' : ChargeSupervisor F) :
    Prop :=
  s.fault ≠ some r ∧ s'.fault = some r ∨ ¬ Terminal s.state ∧ a = .disableOutput ⟨r⟩

/-- A fault was raised and it was `r`. -/
def Blames (r : FaultReason) (a : Action F) (s' : ChargeSupervisor F) : Prop :=
  s'.fault = some r ∧ ∀ r', a = .disableOutput ⟨r'⟩ → r' = r

omit [FloatLike F] in
theorem Blames.raises (h : Blames r a s') {r' : FaultReason} (hr : Raises r' s a s') : r' = r := by
  rcases hr with ⟨-, hf⟩ | ⟨-, ha⟩
  · rw [h.1] at hf
    cases hf
    rfl
  · exact h.2 r' ha

theorem onFault_blames (h : s.onFault r = .ok (a, s')) : Blames r a s' := by
  obtain ⟨d, hm, hd⟩ := onFault_eq_ok h
  refine ⟨congrArg View.fault hm.view, ?_⟩
  rintro r' rfl
  rcases hd with ⟨-, -, -, ⟨-, ha⟩ | ⟨next, -, hu⟩⟩ | ⟨-, -, ha⟩
  · cases ha
  · obtain ⟨live, -, ha⟩ := updateVoltageFor_eq_ok hu
    cases ha
  · cases ha
    rfl

/-- The sourcing arm raises the two caps and nothing else. -/
theorem regulate_blames (h : s.regulate b e = .ok (a, s')) :
    (s'.fault = s.fault ∧ ∀ r, a ≠ .disableOutput ⟨r⟩) ∨
      ∃ r, (r = .absorbTimeout ∨ r = .chargeTimeout) ∧ Blames r a s' := by
  have hupdate : ∀ {t : ChargeSupervisor F} {next : Phase}, t.updateVoltageFor next = .ok a →
      ∀ r, a ≠ .disableOutput ⟨r⟩ := by
    rintro t next hu r rfl
    obtain ⟨live, -, ha⟩ := updateVoltageFor_eq_ok hu
    cases ha
  cases regulate_cases h with
  | retarget next _ hu => exact .inl ⟨rfl, hupdate hu⟩
  | rise _ _ _ hm hu => exact .inl ⟨congrArg View.fault hm.view, hupdate hu⟩
  | fall _ _ hm hu => exact .inl ⟨congrArg View.fault hm.view, hupdate hu⟩
  | absorbTimeout _ _ _ hf => exact .inr ⟨_, .inl rfl, onFault_blames hf⟩
  | chargeTimeout _ _ _ _ hf => exact .inr ⟨_, .inr rfl, onFault_blames hf⟩
  | absorbing | idle => exact .inl ⟨rfl, by simp⟩

theorem dispatch_blames {v : Verdict F} (h : s.dispatch v e = .ok (a, s')) :
    (s'.fault = s.fault ∧ ∀ r, a ≠ .disableOutput ⟨r⟩) ∨
      ∃ r, (v = .latch r ∨ r = .absorbTimeout ∨ r = .chargeTimeout) ∧ Blames r a s' := by
  cases dispatch_cases h with
  | latch r hf => exact .inr ⟨r, .inl rfl, onFault_blames hf⟩
  | inhibit | enable => exact .inl ⟨rfl, by simp⟩
  | regulate b _ hreg =>
    exact (regulate_blames hreg).imp_right fun ⟨r, hr, hb⟩ => ⟨r, .inr hr, hb⟩

theorem Reconciled.fault {output : Option BuckOutput} (h : s.Reconciled output none s') :
    s'.fault = s.fault := by
  cases h with
  | agree => rfl
  | hold _ _ _ _ _ hm => exact congrArg View.fault hm.view
  | resume _ _ _ hm => exact congrArg View.fault hm.view

theorem reconcile_decides {s₁ : ChargeSupervisor F} (h : s.reconcile p = .ok (some a, s₁)) :
    Terminal s₁.state ∧ ((Terminal s.state ∧ s₁.fault = s.fault) ∨
      ∃ r, Blames r a s₁ ∧ r.checked = false) := by
  have hlost : ∀ {r : FaultReason}, s.onFault r = .ok (a, s₁) → r.response = .disable →
      r.checked = false → Terminal s₁.state ∧ ((Terminal s.state ∧
        s₁.fault = s.fault) ∨ ∃ r, Blames r a s₁ ∧ r.checked = false) := by
    intro r hf hr hk
    obtain ⟨hv, -⟩ := onFault_disable hf hr
    exact ⟨.inl (congrArg View.state hv), .inr ⟨r, onFault_blames hf, hk⟩⟩
  generalize ho : some a = o at h
  cases reconcile_cases h with
  | tripping _ hs => exact ⟨.inl hs, .inl ⟨.inl hs, rfl⟩⟩
  | resurfaced _ hs _ _ hm =>
    exact ⟨.inl hm.state, .inl ⟨.inr hs, congrArg View.fault hm.view⟩⟩
  | dark hs => exact ⟨.inr hs, .inl ⟨.inr hs, rfl⟩⟩
  | lost _ _ _ _ hf =>
    cases ho
    exact hlost hf rfl rfl
  | pending _ _ hf =>
    cases ho
    exact hlost hf rfl rfl
  | agree | hold | resume => cases ho

/-- A turn is decided by what the output reads, or by the verdict of the gauntlet. -/
inductive Verdicts (s : ChargeSupervisor F) (i : Input F) (a : Action F)
    (s' : ChargeSupervisor F) : Prop
  | decided (s₁ : ChargeSupervisor F) : s.reconcile i.poll = .ok (some a, s₁) →
      Terminal s'.state → (∀ r, r.checked = true → ¬ Raises r s a s') → Verdicts s i a s'
  | examined (s₁ : ChargeSupervisor F) (v : Verdict F) (s₂ : ChargeSupervisor F) :
      s.reconcile i.poll = .ok (none, s₁) → s₁.gauntlet i.poll i.elapsed = .ok (v, s₂) →
      s₂.SameWindows s' → (∀ r, r.checked = true → Raises r s a s' → v = .latch r) →
      (∀ r, v = .latch r → r.response = .disable → Terminal s'.state ∧ Raises r s a s') →
      Verdicts s i a s'

theorem turn_verdict (h : s.turn i = .ok (a, s')) : s.Verdicts i a s' := by
  obtain ⟨t, t', tr, ht, hc, rfl⟩ := turn_eq_ok h
  have hcommit : t.SameWindows t' ∧ (Terminal t.state → Terminal t'.state) ∧
      t'.fault = t.fault := by
    rcases hc with ⟨-, hc⟩ | ⟨-, rfl⟩
    · exact ⟨.of_commit hc, commit_terminal hc, commit_fault hc⟩
    · exact ⟨.refl _, id, rfl⟩
  obtain ⟨hwin, hterm, hfault⟩ := hcommit
  have hblames : ∀ {r}, Blames r a t → Blames r a { t' with transitions := tr } :=
    fun hb => ⟨hfault.trans hb.1, hb.2⟩
  rcases tick_eq_ok ht with hr | ⟨s₁, v, s₂, hr, hg, hd⟩
  · obtain ⟨hst, hs⟩ := reconcile_decides hr
    refine .decided t hr (hterm hst) fun r hk hraise => ?_
    rcases hs with ⟨hs, hf⟩ | ⟨r', hb, hk'⟩
    · rcases hraise with ⟨hne, hf'⟩ | ⟨hn, -⟩
      · exact hne (hf.symm.trans (hfault.symm.trans hf'))
      · exact hn hs
    · cases (hblames hb).raises hraise
      rw [hk] at hk'
      cases hk'
  · have hview := (gauntlet_clocked hg).view
    have hst : s₂.fault = s.fault :=
      (congrArg View.fault hview).trans (reconcile_cases hr).fault
    have hend : t.SameWindows { t' with transitions := tr } :=
      hwin.trans ⟨rfl, rfl, rfl, rfl, rfl, rfl⟩
    refine .examined s₁ v s₂ hr hg ((SameWindows.of_dispatch hd).trans hend) ?_ ?_
    · intro r hk hraise
      rcases dispatch_blames hd with ⟨hsame, hne⟩ | ⟨r', hv, hb⟩
      · rcases hraise with ⟨hn, hf⟩ | ⟨-, ha⟩
        · exact absurd (hst.symm.trans (hsame.symm.trans (hfault.symm.trans hf))) hn
        · exact absurd ha (hne _)
      · cases (hblames hb).raises hraise
        rcases hv with hv | rfl | rfl
        · exact hv
        · cases hk
        · cases hk
    · rintro r rfl hdis
      obtain ⟨hv, rfl⟩ := onFault_disable hd hdis
      exact ⟨hterm (.inl (congrArg View.state hv)),
        .inr ⟨(reconcile_cases hr).not_terminal, rfl⟩⟩

end ChargeSupervisor

end Esp32Battery
