import Esp32Battery.Proofs.AbsorbStay

/-!
# What a step-down has been earned with

The move to the float target costs one whole exit window: over some run of the stay's last ticks
with a sample the current was below the tail for that much longer than it was not.
-/

namespace Esp32Battery

open Lib Automaton

namespace ChargeSupervisor

variable {F : Type} [FloatLike F] {s s' : ChargeSupervisor F} {p : PollResult F} {e : Duration}
  {a : Action F} {i : Input F} {is : List (Input F)} {as : List (Action F)}
  {l : List AbsorbSample}

/-- The tick moves the machine into `ToFloat`. -/
def StepsDown (s : ChargeSupervisor F) (p : PollResult F) (e : Duration) : Prop :=
  s.state ≠ .toFloat ∧ ∃ a s', s.tick p e = .ok (a, s') ∧ s'.state = .toFloat

theorem Reconciled.toFloat {output : Option BuckOutput} (h : s.Reconciled output none s')
    (hs : s'.state = .toFloat) : s.state = .toFloat := by
  cases h with
  | agree => exact hs
  | hold _ _ _ _ hn hm =>
    rw [← hm.state, hs] at hn
    cases ChargeState.next_selfDisabled hn
  | resume _ _ hn hm =>
    rw [← hm.state, hs] at hn
    revert hn
    cases s.state <;> intro hn <;> cases hn

theorem onFault_ne_toFloat {r : FaultReason} (h : s.onFault r = .ok (a, s')) :
    s'.state ≠ .toFloat := by
  obtain ⟨d, hm, hd⟩ := onFault_eq_ok h
  rw [show s'.state = d from congrArg View.state hm.view]
  rcases hd with ⟨-, -, hn, -⟩ | ⟨-, hn, -⟩
  · obtain ⟨-, rfl | ⟨rfl, -⟩⟩ := ChargeState.next_park hn <;> simp
  · rw [(ChargeState.next_fault hn).1]
    simp

/-- Only a tick that runs the sourcing arm in Absorb steps down. -/
theorem StepsDown.samples (h : s.StepsDown p e) :
    ∃ x, s.absorbSample p e = some x ∧ x.elapsed = e := by
  obtain ⟨hne, a, s', ht, hto⟩ := h
  rcases tick_eq_ok ht with hr | ⟨s₁, v, s₂, hr, hg, hd⟩
  · have hterm := (reconcile_decides hr).1
    rw [hto] at hterm
    exact absurd hterm (not_terminal (.inl rfl))
  have hst : s₂.state = s₁.state := congrArg View.state (gauntlet_clocked hg).view
  have hstill : s₂.state ≠ .toFloat := fun h => hne ((reconcile_cases hr).toFloat (hst ▸ h))
  cases dispatch_cases hd with
  | latch r hf => exact absurd hto (onFault_ne_toFloat hf)
  | inhibit | enable => exact absurd hto hstill
  | regulate b _ hreg =>
    cases regulate_cases hreg with
    | rise _ _ _ hm =>
      rw [hm.state] at hto
      cases hto
    | fall habs =>
      unfold absorbSample
      simp only [hr, hg]
      exact ⟨_, if_pos habs, rfl⟩
    | absorbTimeout _ _ _ hf => exact absurd hto (onFault_ne_toFloat hf)
    | chargeTimeout _ _ _ _ hf => exact absurd hto (onFault_ne_toFloat hf)
    | retarget | absorbing | idle => exact absurd hto hstill

/-- And only for a whole window of the stay. -/
theorem StepsDown.earned (h : s.StepsDown p e) (hs : s.Meters l) :
    (exitDebounce.nanos : ℤ) ≤ AbsorbSample.tailPeak (s.sampled l p e) := by
  obtain ⟨x, hx, -⟩ := h.samples
  obtain ⟨-, a, s', ht, hto⟩ := h
  have hfollows := (tick_metered ht hs).2 x hx
  unfold absorbVerdict at hfollows
  split_ifs at hfollows with hexit
  · exact hexit
  all_goals
    have hst := hfollows.1
    rw [hto] at hst
    cases hst

/-- The stay after a run that went through `s₁`. -/
theorem sampledBy_append {s₁ : ChargeSupervisor F} {is₁ is₂ : List (Input F)}
    (h : s.run is₁ = .ok (as, s₁)) :
    s.sampledBy l (is₁ ++ is₂) = s₁.sampledBy (s.sampledBy l is₁) is₂ := by
  induction is₁ generalizing s l as with
  | nil =>
    cases h
    rfl
  | cons i is₁ ih =>
    obtain ⟨a, s', as₁, ht, hr, rfl⟩ := run_cons h
    rw [List.cons_append, sampledBy_cons ht, sampledBy_cons ht, ih hr]

theorem sampled_le (s : ChargeSupervisor F) (l : List AbsorbSample) (p : PollResult F)
    (e : Duration) : AbsorbSample.totalNanos (s.sampled l p e) ≤
      AbsorbSample.totalNanos l + e.nanos := by
  have hl : AbsorbSample.totalNanos (if s.state = .absorb then l else []) ≤
      AbsorbSample.totalNanos l := by
    split_ifs
    · exact le_rfl
    · exact Nat.zero_le _
  have he : AbsorbSample.totalNanos (s.absorbSample p e).toList ≤ e.nanos := by
    unfold absorbSample
    split
    · split
      · split_ifs <;> simp [AbsorbSample.totalNanos]
      · exact Nat.zero_le _
    · exact Nat.zero_le _
  unfold sampled
  simp only [AbsorbSample.totalNanos, List.map_append, List.sum_append] at hl he ⊢
  omega

/-- The stay is no longer than the run. -/
theorem sampledBy_le (s : ChargeSupervisor F) (l : List AbsorbSample) (is : List (Input F)) :
    AbsorbSample.totalNanos (s.sampledBy l is) ≤ AbsorbSample.totalNanos l + totalNanos is := by
  induction is generalizing s l with
  | nil => exact Nat.le_add_right _ _
  | cons i is ih =>
    have hi : AbsorbSample.totalNanos (s.sampledAfter l i) ≤
        AbsorbSample.totalNanos l + i.elapsed.nanos := by
      have hseen := s.sampled_le l i.poll i.elapsed
      unfold sampledAfter
      split
      · split_ifs
        · exact hseen
        · exact Nat.zero_le _
      · exact Nat.zero_le _
    unfold sampledBy
    split
    · rename_i a s' _
      have hrest := ih s' (s.sampledAfter l i)
      simp only [totalNanos, List.map_cons, List.sum_cons] at hrest ⊢
      omega
    · exact Nat.zero_le _

/-- Every move from Absorb into `ToFloat` has been earned by the stay it ends: over some run of
the stay's last ticks with a sample the current was below the tail for `EXIT_DEBOUNCE` longer than
it was not. So two such moves are that far apart. -/
theorem stepDown_earned {profile : Profile F} {iSetA : F} {packTemp : PackTemp}
    {s₀ : ChargeSupervisor F} (h₀ : new profile iSetA packTemp = .ok s₀)
    (hrun : s₀.run is = .ok (as, s)) (hdown : s.StepsDown p e) :
    (∃ x, s.absorbSample p e = some x ∧ x.elapsed = e) ∧
    (∃ t, t <:+ (s.sampled (s₀.sampledBy [] is) p e).map AbsorbSample.tail ∧
      (exitDebounce.nanos : ℤ) ≤ Debounce.netNanos t) ∧
    ∀ is₁ i₁ is₂ as₁ s₁, is = is₁ ++ i₁ :: is₂ → s₀.run is₁ = .ok (as₁, s₁) →
      s₁.StepsDown i₁.poll i₁.elapsed → exitDebounce.nanos ≤ totalNanos is₂ + e.nanos := by
  have hpeak := hdown.earned (run_metered hrun (new_meters h₀))
  refine ⟨hdown.samples, Debounce.le_peak_iff.1 hpeak, ?_⟩
  rintro is₁ i₁ is₂ as₁ s₁ rfl hr₁ ⟨-, a₁, s₂, ht₁, hto₁⟩
  obtain ⟨as₂, hr₂, -⟩ := run_append hr₁ hrun
  obtain ⟨a₂, s₃, as₃, hturn, -, -⟩ := run_cons hr₂
  -- the first move ends its stay, and the log starts over
  have hempty : s₁.sampledAfter (s₀.sampledBy [] is₁) i₁ = [] := by
    unfold sampledAfter
    simp only [ht₁]
    rw [if_neg (by rw [hto₁]; simp)]
  rw [sampledBy_append hr₁, sampledBy_cons hturn, hempty] at hpeak
  have htick := s.sampled_le (s₃.sampledBy [] is₂) p e
  have hrest := s₃.sampledBy_le [] is₂
  have hlong := AbsorbSample.tailPeak_le (s.sampled (s₃.sampledBy [] is₂) p e)
  have hzero : AbsorbSample.totalNanos [] = 0 := rfl
  omega

theorem stepDown_earned_tail :
    ∃ t, t <:+ ((after (bootSupervisor .absent) raisedTurns).sampled
        ((bootSupervisor .absent).sampledBy [] raisedTurns) tailPoll (.fromSecs 60)).map
          AbsorbSample.tail ∧
      (exitDebounce.nanos : ℤ) ≤ Debounce.netNanos t := by
  have hrun : ∃ as, (bootSupervisor .absent).run raisedTurns
      = .ok (as, after (bootSupervisor .absent) raisedTurns) :=
    ⟨[.enableOutput ⟨true⟩, .updateVoltage ⟨.absorb, 14.4, false⟩], by decide +kernel⟩
  have hdown : (after (bootSupervisor .absent) raisedTurns).StepsDown tailPoll (.fromSecs 60) :=
    ⟨by decide +kernel, .updateVoltage ⟨.float, 13.5, true⟩, after (bootSupervisor .absent)
      (raisedTurns ++ [⟨tailPoll, .fromSecs 60, false, 0⟩]), by decide +kernel⟩
  obtain ⟨as, hrun⟩ := hrun
  exact (stepDown_earned (new_bootSupervisor .absent) hrun hdown).2.1

end ChargeSupervisor

end Esp32Battery
