import Esp32Battery.Proofs.Tick

/-!
# Which windows a turn moves

The gauntlet moves them, and nothing after it does: acting on a verdict and committing a ticket
leave them as they are, since neither enters a hold. While the machine sources and the output
does not read off, a turn is the gauntlet on the machine as it was, and ends sourcing or tripped.
-/

namespace Esp32Battery

open Lib Automaton

namespace Automaton

variable {drift : Phase → Prop} {output : Option BuckOutput} {v w : View} {a : Act}

theorem Committed.sourcing {s s' : ChargeState} (h : Committed a s s')
    (hs : s.sourcing = true) : s'.sourcing = true := by
  cases h with
  | none => exact hs
  | enable resume hn => cases resume <;> cases s <;> cases hs <;> cases hn
  | retarget _ hn | disable _ hn => cases s <;> cases hs <;> cases hn <;> rfl

/-- A sourcing machine that does not read its output off goes on sourcing or trips. -/
theorem Beat.sourcing (h : Beat drift output v w a) (hv : v.state.sourcing = true)
    (ho : ∀ cause, output ≠ some (.off cause)) :
    w.state.sourcing = true ∨ w.state = .tripping := by
  cases h with
  | tripping _ hs | resurfaced _ hs | dark hs => rw [hs] at hv; cases hv
  | lost cause _ hc => exact absurd hc (ho cause)
  | pending hs => rw [hs] at hv; cases hv
  | agree _ hj => exact hj.sourcing hv
  | hold cause hc => exact absurd hc (ho cause)
  | resume _ hh =>
    rw [ChargeState.sourcing_of_bringingUp (ChargeState.bringingUp_of_holding hh)] at hv
    cases hv

end Automaton

namespace ChargeSupervisor

variable {F : Type} {s s' : ChargeSupervisor F} {a : Action F}

structure SameWindows (s s' : ChargeSupervisor F) : Prop where
  holds : s'.holds = s.holds
  modbusErr : s'.modbusErr = s.modbusErr
  batteryMissing : s'.batteryMissing = s.batteryMissing
  ov : s'.ov = s.ov
  overcurrent : s'.overcurrent = s.overcurrent
  packTempMissing : s'.packTempMissing = s.packTempMissing

namespace SameWindows

theorem refl (s : ChargeSupervisor F) : s.SameWindows s := ⟨rfl, rfl, rfl, rfl, rfl, rfl⟩

theorem trans {s₁ : ChargeSupervisor F} (h : s.SameWindows s₁) (h' : s₁.SameWindows s') :
    s.SameWindows s' :=
  ⟨h'.1.trans h.1, h'.2.trans h.2, h'.3.trans h.3, h'.4.trans h.4, h'.5.trans h.5,
    h'.6.trans h.6⟩

/-- Only a move into a hold touches them. -/
theorem of_moved {d : ChargeState} (h : s.Moved d s') (hd : d.holding = false) :
    s.SameWindows s' := by
  obtain ⟨tr, rfl⟩ := h
  refine ⟨?_, rfl, rfl, ?_, rfl, rfl⟩ <;> simp [land, hd]

end SameWindows

variable [FloatLike F] {p : PollResult F} {e : Duration} {b : BatterySample F} {i : Input F}

theorem SameWindows.of_onFault {r : FaultReason} (h : s.onFault r = .ok (a, s')) :
    s.SameWindows s' := by
  obtain ⟨d, hm, hd⟩ := onFault_eq_ok h
  have hhold : d.holding = false := by
    rcases hd with ⟨-, -, hn, -⟩ | ⟨-, hn, -⟩
    · obtain ⟨-, rfl | ⟨rfl, -⟩⟩ := ChargeState.next_park hn <;> rfl
    · obtain ⟨rfl, -⟩ := ChargeState.next_fault hn
      rfl
  obtain ⟨h₁, h₂, h₃, h₄, h₅, h₆⟩ := of_moved hm hhold
  exact ⟨h₁, h₂, h₃, h₄, h₅, h₆⟩

theorem SameWindows.of_regulate (h : s.regulate b e = .ok (a, s')) : s.SameWindows s' := by
  cases regulate_cases h with
  | retarget | absorbing | idle => exact ⟨rfl, rfl, rfl, rfl, rfl, rfl⟩
  | rise _ _ _ hm =>
    obtain ⟨h₁, h₂, h₃, h₄, h₅, h₆⟩ := of_moved hm rfl
    exact ⟨h₁, h₂, h₃, h₄, h₅, h₆⟩
  | fall _ _ hm =>
    obtain ⟨h₁, h₂, h₃, h₄, h₅, h₆⟩ := of_moved hm rfl
    exact ⟨h₁, h₂, h₃, h₄, h₅, h₆⟩
  | absorbTimeout _ _ _ hf =>
    obtain ⟨h₁, h₂, h₃, h₄, h₅, h₆⟩ := of_onFault hf
    exact ⟨h₁, h₂, h₃, h₄, h₅, h₆⟩
  | chargeTimeout _ _ _ _ hf =>
    obtain ⟨h₁, h₂, h₃, h₄, h₅, h₆⟩ := of_onFault hf
    exact ⟨h₁, h₂, h₃, h₄, h₅, h₆⟩

theorem SameWindows.of_dispatch {v : Verdict F} (h : s.dispatch v e = .ok (a, s')) :
    s.SameWindows s' := by
  cases dispatch_cases h with
  | latch r hf => exact of_onFault hf
  | inhibit | enable => exact ⟨rfl, rfl, rfl, rfl, rfl, rfl⟩
  | regulate b _ hreg =>
    obtain ⟨h₁, h₂, h₃, h₄, h₅, h₆⟩ := of_regulate hreg
    exact ⟨h₁, h₂, h₃, h₄, h₅, h₆⟩

omit [FloatLike F] in
theorem SameWindows.of_commit (h : s.commit a = .ok s') : s.SameWindows s' := by
  rcases commit_cases h with ⟨-, rfl⟩ | ⟨event, d, hne, hn, hm⟩
  · exact refl s'
  · exact of_moved hm (ChargeState.next_not_holding hne hn)

omit [FloatLike F] in
theorem commit_terminal (h : s.commit a = .ok s') (hs : Terminal s.state) :
    Terminal s'.state := by
  rcases commit_cases h with ⟨-, rfl⟩ | ⟨event, d, -, hn, hm⟩
  · exact hs
  · rw [hm.state]
    exact next_terminal hs hn

omit [FloatLike F] in
theorem commit_fault (h : s.commit a = .ok s') : s'.fault = s.fault := by
  rcases commit_cases h with ⟨-, rfl⟩ | ⟨event, d, -, hn, hm⟩
  · rfl
  · exact congrArg View.fault hm.view

/-- After the gauntlet a turn moves no window. -/
theorem turn_windows (h : s.turn i = .ok (a, s')) :
    (∃ s₁, s.reconcile i.poll = .ok (some a, s₁) ∧ s₁.SameWindows s') ∨
      ∃ s₁ v s₂ s₃, s.reconcile i.poll = .ok (none, s₁) ∧
        s₁.gauntlet i.poll i.elapsed = .ok (v, s₂) ∧
        s₂.dispatch v i.elapsed = .ok (a, s₃) ∧ s₂.SameWindows s' ∧
        (Terminal s₃.state → Terminal s'.state) ∧ s'.fault = s₃.fault := by
  obtain ⟨s₁, s₂, tr, ht, hc, rfl⟩ := turn_eq_ok h
  have hcommit : s₁.SameWindows s₂ ∧ (Terminal s₁.state → Terminal s₂.state) ∧
      s₂.fault = s₁.fault := by
    rcases hc with ⟨-, hc⟩ | ⟨-, rfl⟩
    · exact ⟨.of_commit hc, commit_terminal hc, commit_fault hc⟩
    · exact ⟨.refl _, id, rfl⟩
  have hend : s₁.SameWindows { s₂ with transitions := tr } :=
    hcommit.1.trans ⟨rfl, rfl, rfl, rfl, rfl, rfl⟩
  rcases tick_eq_ok ht with hr | ⟨r, v, g, hr, hg, hd⟩
  · exact .inl ⟨s₁, hr, hend⟩
  · exact .inr ⟨r, v, g, s₁, hr, hg, hd, (SameWindows.of_dispatch hd).trans hend, hcommit.2⟩

theorem dispatch_trips {r : FaultReason} (h : s.dispatch (.latch r) e = .ok (a, s'))
    (hr : r.response = .disable ∨ s.state.isParked = true) : s'.state = .tripping := by
  obtain ⟨d, hm, ⟨hp, hnp, -⟩ | ⟨-, hn, -⟩⟩ := onFault_eq_ok (show s.onFault r = .ok (a, s') from h)
  · rcases hr with hr | hr
    · rw [hp] at hr
      cases hr
    · rw [hnp] at hr
      cases hr
  · rw [hm.state, (ChargeState.next_fault hn).1]

theorem dispatch_fault {r : FaultReason} (h : s.dispatch (.latch r) e = .ok (a, s')) :
    s'.fault = some r := by
  obtain ⟨d, hm, -⟩ := onFault_eq_ok (show s.onFault r = .ok (a, s') from h)
  exact congrArg View.fault hm.view

/-- What a turn that does not trip a sourcing machine has passed, and the windows it leaves. -/
inductive Untripped (s : ChargeSupervisor F) (i : Input F) (s' : ChargeSupervisor F) : Prop
  | noSample : (s.holds.step i.elapsed).1 = false →
      s.setpointsDrift i.poll.setpoints = .ok false →
      (s.modbusErr.step i.poll.setpoints.isNone i.elapsed modbusUnhealthyTimeout).1 = false →
      (s.batteryMissing.step true i.elapsed batteryMissingTimeout).1 = false →
      i.poll.usableBattery = none → (s.sampling i.poll i.elapsed).SameWindows s' → Untripped s i s'
  | parks (b : BatterySample F) : s.Sampled i.poll i.elapsed b → s.OvPasses b i.elapsed →
      s.state.isParked = false →
      (s.overcurrent.step (s.overdraws b) i.elapsed overcurrentDuration).1 = true →
      ({ s.sampling i.poll i.elapsed with
        ov := (s.ov.step (s.overvolts b) i.elapsed ovDuration).2
        overcurrent := (s.overcurrent.step (s.overdraws b) i.elapsed overcurrentDuration).2 } :
        ChargeSupervisor F).SameWindows s' → s'.fault = some .chargeOvercurrent → Untripped s i s'
  | regulates (b : BatterySample F) : s.Sampled i.poll i.elapsed b → s.OvPasses b i.elapsed →
      (s.overcurrent.step (s.overdraws b) i.elapsed overcurrentDuration).1 = false →
      (s.packTemp = .fitted → s.TempPasses i.poll i.elapsed) →
      ((s.sampling i.poll i.elapsed).examined i.poll b i.elapsed).SameWindows s' → Untripped s i s'

section Sourcing

variable (hs : s.state.sourcing = true) (ho : ∀ cause, i.poll.output ≠ some (.off cause))

include hs ho

theorem turn_sourcing (h : s.turn i = .ok (a, s')) :
    s'.state.sourcing = true ∨ Terminal s'.state := by
  obtain ⟨v, act, hb, -, hv⟩ := turn_beat h
  have hw := hb.sourcing hs ho
  rcases hv with hv | ⟨hc, -⟩
  · rw [← hv] at hw
    exact hw.imp_right .inl
  · rcases hw with hw | hw
    · exact .inl (hc.sourcing hw)
    · exact .inr (hc.terminal (.inl hw))

omit ho in
theorem reconcile_sourcing {s₁ : ChargeSupervisor F} {o : Option (Action F)}
    (ho : ∀ cause, p.output ≠ some (.off cause)) (h : s.reconcile p = .ok (o, s₁)) :
    o = none ∧ s₁ = s := by
  have hag : Agrees p.output s.state := by
    unfold Agrees
    split
    · exact .inl hs
    · exact hs
    · rename_i cause hc
      exact absurd hc (ho cause)
  rw [reconcile_agrees hag] at h
  cases h
  exact ⟨rfl, rfl⟩

/-- A turn of a sourcing machine that does not read its output off: the gauntlet on it as it
was, and the windows the gauntlet leaves. -/
theorem turn_gauntlet (h : s.turn i = .ok (a, s')) :
    ∃ v s₂ s₃, s.gauntlet i.poll i.elapsed = .ok (v, s₂) ∧
      s₂.dispatch v i.elapsed = .ok (a, s₃) ∧ s₂.SameWindows s' ∧
      (Terminal s₃.state → Terminal s'.state) ∧ s'.fault = s₃.fault := by
  rcases turn_windows h with ⟨s₁, hr, -⟩ | ⟨s₁, v, s₂, s₃, hr, hg, hd, hw, ht⟩
  · cases (reconcile_sourcing hs ho hr).1
  · obtain ⟨-, rfl⟩ := reconcile_sourcing hs ho hr
    exact ⟨v, s₂, s₃, hg, hd, hw, ht⟩

theorem turn_untripped (h : s.turn i = .ok (a, s')) :
    Terminal s'.state ∨ s.Untripped i s' := by
  obtain ⟨v, s₂, s₃, hg, hd, hw, hterm, hfault⟩ := turn_gauntlet hs ho h
  have htrip : ∀ {r : FaultReason}, v = .latch r →
      (r.response = .disable ∨ s₂.state.isParked = true) → Terminal s'.state := by
    rintro r rfl hr
    exact hterm (.inl (dispatch_trips hd hr))
  rcases gauntlet_cases hg with ⟨b, hsam, hgon⟩ | ⟨hu, -⟩
  · cases gauntletOn_cases hgon with
    | overvoltage v _ hv =>
      rcases hv with ⟨-, hv⟩ | ⟨hn, -⟩
      · exact .inl (htrip hv (.inl rfl))
      · rw [show (s.sampling i.poll i.elapsed).state.sourcing = true from hs] at hn
        cases hn
    | overcurrent hov _ hover =>
      rcases hp : s.state.isParked with _ | _
      · exact .inr (.parks b hsam hov hp hover hw (hfault.trans (dispatch_fault hd)))
      · exact .inl (htrip rfl (.inr hp))
    | temp r v _ _ hr hv =>
      rcases hv with ⟨-, hv⟩ | ⟨hn, -⟩
      · refine .inl (htrip hv (.inl ?_))
        cases hr <;> rfl
      · rw [show (s.sampling i.poll i.elapsed).state.sourcing = true from hs] at hn
        cases hn
    | gate hov hoc ht =>
      exact .inr (.regulates b hsam hov (hoc hs)
        (fun hf => ⟨(ht hf).fresh, (ht hf).inRange⟩) hw)
  · cases hu with
    | flapping => exact .inl (htrip rfl (.inl rfl))
    | latch r _ hr =>
      refine .inl (htrip rfl (.inl ?_))
      cases hr <;> rfl
    | inhibit _ _ hn => rw [hs] at hn; cases hn
    | noSample hf hdr hm hmiss hn =>
      rw [gauntlet_noSample hf hdr hm hmiss hn] at hg
      cases hg
      exact .inr (.noSample hf hdr hm hmiss hn hw)

end Sourcing

end ChargeSupervisor

end Esp32Battery
