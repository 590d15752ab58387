import Esp32Battery.Proofs.ChargeCap
import Esp32Battery.Proofs.LeakyWindow

/-!
# What ends a stay in Absorb

Three windows are empty whenever the machine comes into Absorb, and one tick after another of the
sourcing arm steps them. So what such a tick does is told by what the ticks of the stay have seen:
which of three measures of it has reached its limit, in this order.
-/

namespace Esp32Battery

open Lib Automaton

/-- What a tick of the stay sees: whether the current is below the tail, whether the pack is at
the plateau, and for how long. -/
structure AbsorbSample where
  belowTail : Bool
  atPlateau : Bool
  elapsed : Duration
deriving DecidableEq

namespace AbsorbSample

def tail (x : AbsorbSample) : Bool × Duration := (x.belowTail, x.elapsed)

def plateau (x : AbsorbSample) : Bool × Duration := (x.atPlateau, x.elapsed)

/-- The greatest net time below the tail of a run of last samples. -/
def tailPeak (l : List AbsorbSample) : ℤ := Debounce.peak (l.map tail)

/-- The greatest net time at the plateau. -/
def plateauPeak (l : List AbsorbSample) : ℤ := Debounce.peak (l.map plateau)

def totalNanos (l : List AbsorbSample) : ℕ := (l.map fun x => x.elapsed.nanos).sum

theorem tailPeak_le (l : List AbsorbSample) : tailPeak l ≤ totalNanos l := by
  have htotal : Debounce.totalNanos (l.map tail) = totalNanos l := by
    unfold Debounce.totalNanos totalNanos
    rw [List.map_map]
    rfl
  exact htotal ▸ Debounce.peak_le (l.map tail)

theorem totalNanos_concat (l : List AbsorbSample) (x : AbsorbSample) :
    totalNanos (l ++ [x]) = totalNanos l + x.elapsed.nanos := by simp [totalNanos]

end AbsorbSample

inductive AbsorbVerdict where
  | stepDown
  | park (reason : FaultReason)
  | stay
deriving DecidableEq

/-- What is due once the ticks of a stay have seen `l`. -/
def absorbVerdict (l : List AbsorbSample) : AbsorbVerdict :=
  if (exitDebounce.nanos : ℤ) ≤ AbsorbSample.tailPeak l then .stepDown
  else if (maxAbsorb.nanos : ℤ) ≤ AbsorbSample.plateauPeak l then .park .absorbTimeout
  else if maxCharge.nanos ≤ AbsorbSample.totalNanos l then .park .chargeTimeout
  else .stay

/-- One step of a window that holds the walk of `l`: whether it fires, and that it goes on holding
it if not. An addition that saturates fires. -/
theorem Debounce.stepLeaky_peak {d d' : Debounce} {timeout : Duration} {fired : Bool}
    {l : List (Bool × Duration)} {i : Bool × Duration} (hd : (d.elapsed.nanos : ℤ) = peak l)
    (h : d.stepLeaky i.1 i.2 timeout = .ok (fired, d')) :
    (fired = true ↔ (timeout.nanos : ℤ) ≤ peak (l ++ [i])) ∧
      (fired = false → (d'.elapsed.nanos : ℤ) = peak (l ++ [i])) := by
  rw [stepLeaky_eq_stepLeakyIn, stepLeakyIn_true, require_bind_eq_ok] at h
  obtain ⟨-, h⟩ := h
  cases h
  have hmax := timeout.nanos_le
  have hnonneg : 0 ≤ peak l := peak_nonneg l
  rw [decide_eq_true_eq, decide_eq_false_iff_not, peak_concat, Duration.le_def, ← hd]
  unfold signed
  split_ifs
  · rw [Duration.nanos_saturatingAdd]
    omega
  · rw [Duration.nanos_saturatingSub]
    omega

namespace ChargeSupervisor

variable {F : Type} [FloatLike F] {s s' : ChargeSupervisor F} {p : PollResult F} {e : Duration}
  {a : Action F} {i : Input F} {is : List (Input F)} {as : List (Action F)}
  {l : List AbsorbSample} {x : AbsorbSample}

/-- What a tick that runs `regulate` in Absorb sees. -/
def absorbSample (s : ChargeSupervisor F) (p : PollResult F) (e : Duration) :
    Option AbsorbSample :=
  match s.reconcile p with
  | .ok (none, s₁) =>
    match s₁.gauntlet p e with
    | .ok (.clear b, s₂) =>
      if s₂.state = .absorb then
        some ⟨b.chargingA < s₂.profile.exitAbsorbA, s₂.atCvPlateau b.voltage, e⟩
      else none
    | _ => none
  | _ => none

/-- What the ticks of the stay have seen, this one's included. -/
def sampled (s : ChargeSupervisor F) (l : List AbsorbSample) (p : PollResult F) (e : Duration) :
    List AbsorbSample :=
  (if s.state = .absorb then l else []) ++ (s.absorbSample p e).toList

/-- What they have seen once the turn is over, nothing where its tick ends the stay. -/
def sampledAfter (s : ChargeSupervisor F) (l : List AbsorbSample) (i : Input F) :
    List AbsorbSample :=
  match s.tick i.poll i.elapsed with
  | .ok (_, s') => if s'.state = .absorb then s.sampled l i.poll i.elapsed else []
  | .error _ => []

/-- What they have seen once the run is over. -/
def sampledBy (s : ChargeSupervisor F) (l : List AbsorbSample) :
    List (Input F) → List AbsorbSample
  | [] => l
  | i :: is =>
    match s.turn i with
    | .ok (_, s') => s'.sampledBy (s.sampledAfter l i) is
    | .error _ => []

/-- The windows hold what the stay has seen. -/
structure Metered (l : List AbsorbSample) (s : ChargeSupervisor F) : Prop where
  exit : (s.exit.elapsed.nanos : ℤ) = AbsorbSample.tailPeak l
  absorb : (s.absorb.elapsed.nanos : ℤ) = AbsorbSample.plateauPeak l
  total : s.chargeTotal.elapsed.nanos = AbsorbSample.totalNanos l

/-- In Absorb. -/
def Meters (l : List AbsorbSample) (s : ChargeSupervisor F) : Prop :=
  s.state = .absorb → s.Metered l

/-- The action and the machine are as the verdict on a machine in Absorb has it: it steps down to
the float target, parks there for the reason, or goes on with nothing to ask for. -/
def Follows (fault : Option FaultReason) (a : Action F) (s' : ChargeSupervisor F) :
    AbsorbVerdict → Prop
  | .stepDown => s'.state = .toFloat ∧ s'.fault = fault ∧ s'.updateVoltageFor .float = .ok a
  | .park r => s'.state = .toParked ∧ s'.fault = some r ∧ s'.updateVoltageFor .float = .ok a
  | .stay => s'.state = .absorb ∧ s'.fault = fault ∧ a = .none

omit [FloatLike F] in
/-- Whatever moves into Absorb empties the windows. -/
theorem Moved.meters {d : ChargeState} (h : s.Moved d s') : s'.Meters [] := by
  intro habs
  obtain ⟨tr, rfl⟩ := h
  obtain rfl : d = .absorb := habs
  exact ⟨rfl, rfl, rfl⟩

theorem Reconciled.meters {output : Option BuckOutput} (h : s.Reconciled output none s')
    (hs : s.Meters l) : s'.Meters (if s.state = .absorb then l else []) := by
  intro habs
  cases h with
  | agree =>
    rw [if_pos habs]
    exact hs habs
  | hold _ _ _ _ hn hm =>
    rw [hm.state] at habs
    rw [habs] at hn
    cases ChargeState.next_selfDisabled hn
  | resume _ hhold _ hm =>
    rw [if_neg fun h => by rw [h] at hhold; cases hhold]
    exact hm.meters habs

theorem onFault_parks {r : FaultReason} (h : s.onFault r = .ok (a, s')) (hs : s.state = .absorb)
    (hr : r.response = .park) : Follows s.fault a s' (.park r) := by
  obtain ⟨d, hm, ⟨-, -, hn, hw⟩ | ⟨hpark, -⟩⟩ := onFault_eq_ok h
  · rw [hs] at hn
    cases hn
    rcases hw with ⟨hnone, -⟩ | ⟨next, hnext, hu⟩
    · cases hnone
    · cases hnext
      exact ⟨hm.state, congrArg View.fault hm.view, hu⟩
  · have := hpark hr
    rw [hs] at this
    cases this

/-- The sourcing arm in Absorb does what the verdict on the whole stay is. -/
theorem regulate_metered {b : BatterySample F} (hs : s.state = .absorb) (hl : s.Metered l)
    (hx : x = ⟨b.chargingA < s.profile.exitAbsorbA, s.atCvPlateau b.voltage, e⟩)
    (h : s.regulate b e = .ok (a, s')) :
    Follows s.fault a s' (absorbVerdict (l ++ [x])) ∧ s'.Meters (l ++ [x]) := by
  have hexit : ∀ {fired : Bool} {exit : Debounce},
      s.exit.stepLeaky (b.chargingA < s.profile.exitAbsorbA) e exitDebounce = .ok (fired, exit) →
        (fired = true ↔ (exitDebounce.nanos : ℤ) ≤ AbsorbSample.tailPeak (l ++ [x])) ∧
          (fired = false → (exit.elapsed.nanos : ℤ) = AbsorbSample.tailPeak (l ++ [x])) := by
    intro fired exit h
    subst hx
    unfold AbsorbSample.tailPeak
    rw [List.map_append]
    exact Debounce.stepLeaky_peak hl.exit h
  have habsorb : ∀ {fired : Bool} {absorb : Debounce},
      s.absorb.stepLeaky (s.atCvPlateau b.voltage) e maxAbsorb = .ok (fired, absorb) →
        (fired = true ↔ (maxAbsorb.nanos : ℤ) ≤ AbsorbSample.plateauPeak (l ++ [x])) ∧
          (fired = false →
            (absorb.elapsed.nanos : ℤ) = AbsorbSample.plateauPeak (l ++ [x])) := by
    intro fired absorb h
    subst hx
    unfold AbsorbSample.plateauPeak
    rw [List.map_append]
    exact Debounce.stepLeaky_peak hl.absorb h
  have htotal : ((s.chargeTotal.step true e maxCharge).1 = true ↔
        maxCharge.nanos ≤ AbsorbSample.totalNanos (l ++ [x])) ∧
      ((s.chargeTotal.step true e maxCharge).1 = false →
        (s.chargeTotal.step true e maxCharge).2.elapsed.nanos =
          AbsorbSample.totalNanos (l ++ [x])) := by
    have hmax := maxCharge.nanos_le
    rw [Debounce.step_true, AbsorbSample.totalNanos_concat, ← hl.total, hx]
    simp only [decide_eq_true_eq, decide_eq_false_iff_not, Duration.le_def,
      Duration.nanos_saturatingAdd]
    omega
  cases regulate_cases h with
  | retarget next hn =>
    rw [hs] at hn
    cases hn
  | rise hst => cases hs.symm.trans hst
  | fall _ hfired hm hu =>
    refine ⟨?_, fun habs => ?_⟩
    · unfold absorbVerdict
      rw [if_pos ((hexit hfired).1.1 rfl)]
      exact ⟨hm.state, congrArg View.fault hm.view, hu⟩
    · rw [hm.state] at habs
      cases habs
  | absorbTimeout _ hquiet hfired hf =>
    refine ⟨?_, fun habs => absurd habs (onFault_ne_absorb hf)⟩
    unfold absorbVerdict
    rw [if_neg (mt (hexit hquiet).1.2 (by simp)), if_pos ((habsorb hfired).1.1 rfl)]
    have hpark := onFault_parks hf (by exact hs) rfl
    exact hpark
  | chargeTimeout _ hquiet hquiet' hfired hf =>
    refine ⟨?_, fun habs => absurd habs (onFault_ne_absorb hf)⟩
    unfold absorbVerdict
    rw [if_neg (mt (hexit hquiet).1.2 (by simp)), if_neg (mt (habsorb hquiet').1.2 (by simp)),
      if_pos (htotal.1.1 hfired)]
    have hpark := onFault_parks hf (by exact hs) rfl
    exact hpark
  | absorbing _ hquiet hquiet' hfired =>
    refine ⟨?_, fun _ => ⟨(hexit hquiet).2 rfl, (habsorb hquiet').2 rfl, htotal.2 hfired⟩⟩
    unfold absorbVerdict
    rw [if_neg (mt (hexit hquiet).1.2 (by simp)), if_neg (mt (habsorb hquiet').1.2 (by simp)),
      if_neg (mt htotal.1.2 (by rw [hfired]; simp))]
    exact ⟨hs, rfl, rfl⟩
  | idle _ hne => exact absurd hs hne

/-- One tick: in Absorb, the sourcing arm follows the verdict on the stay, and the windows hold it
until it ends. -/
theorem tick_metered (h : s.tick p e = .ok (a, s')) (hs : s.Meters l) :
    s'.Meters (s.sampled l p e) ∧ (∀ x, s.absorbSample p e = some x →
      Follows s.fault a s' (absorbVerdict (s.sampled l p e))) := by
  rcases tick_eq_ok h with hr | ⟨s₁, v, s₂, hr, hg, hd⟩
  · have hterm := (reconcile_decides hr).1
    refine ⟨fun habs => ?_, fun x hx => ?_⟩
    · rw [habs] at hterm
      exact absurd hterm (not_terminal (.inl rfl))
    · unfold absorbSample at hx
      rw [hr] at hx
      cases hx
  have hrec := reconcile_cases hr
  have hview := (gauntlet_clocked hg).view
  have hs₂ : s₂.Meters (if s.state = .absorb then l else []) := by
    have hs₁ := hrec.meters hs
    obtain ⟨_, _, _, _, _, _, rfl⟩ := gauntlet_clocked hg
    exact fun habs => ⟨(hs₁ habs).1, (hs₁ habs).2, (hs₁ habs).3⟩
  have hfault : s₂.fault = s.fault := by
    rw [show s₂.fault = s₁.fault from congrArg View.fault hview]
    cases hrec with
    | agree => rfl
    | hold _ _ _ _ _ hm | resume _ _ _ hm => exact congrArg View.fault hm.view
  -- a tick that moves nothing adds nothing to the stay
  have hstill : ∀ {i : Option InhibitReason}, s.absorbSample p e = none →
      ({ s₂ with inhibit := i } : ChargeSupervisor F).Meters (s.sampled l p e) := by
    intro i hnone
    unfold sampled
    rw [hnone, Option.toList_none, List.append_nil]
    exact fun habs => ⟨(hs₂ habs).1, (hs₂ habs).2, (hs₂ habs).3⟩
  have hclear : ∀ {b : BatterySample F}, v = .clear b → s.absorbSample p e =
      if s₂.state = .absorb then
        some ⟨b.chargingA < s₂.profile.exitAbsorbA, s₂.atCvPlateau b.voltage, e⟩
      else none := by
    rintro b rfl
    unfold absorbSample
    simp only [hr, hg]
  cases dispatch_cases hd with
  | latch r hf =>
    refine ⟨fun habs => absurd habs (onFault_ne_absorb hf), fun x hx => ?_⟩
    unfold absorbSample at hx
    simp only [hr, hg] at hx
    cases hx
  | inhibit i =>
    have hnone : s.absorbSample p e = none := by
      unfold absorbSample
      simp only [hr, hg]
    exact ⟨hstill hnone, fun x hx => by rw [hnone] at hx; cases hx⟩
  | enable b full hb =>
    have hnone : s.absorbSample p e = none := by
      rw [hclear rfl, if_neg fun habs => by rw [habs] at hb; cases hb]
    exact ⟨hstill hnone, fun x hx => by rw [hnone] at hx; cases hx⟩
  | regulate b _ hreg =>
    by_cases habs : s₂.state = .absorb
    · have hx := hclear rfl
      rw [if_pos habs] at hx
      have hl := hs₂ habs
      obtain ⟨hf, hm⟩ := regulate_metered (s := { s₂ with inhibit := none }) habs
        ⟨hl.1, hl.2, hl.3⟩ rfl hreg
      unfold sampled
      rw [hx, Option.toList_some]
      rw [show ({ s₂ with inhibit := none } : ChargeSupervisor F).fault = s.fault from hfault] at hf
      exact ⟨hm, fun _ _ => hf⟩
    · have hnone : s.absorbSample p e = none := by rw [hclear rfl, if_neg habs]
      refine ⟨fun habs' => ?_, fun x hx => by rw [hnone] at hx; cases hx⟩
      cases regulate_cases hreg with
      | retarget next hn => exact absurd habs' habs
      | rise _ _ _ hm =>
        rw [hm.state] at habs'
        cases habs'
      | fall hst => exact absurd hst habs
      | absorbTimeout hst => exact absurd hst habs
      | chargeTimeout hst => exact absurd hst habs
      | absorbing hst => exact absurd hst habs
      | idle => exact absurd habs' habs

theorem turn_metered (h : s.turn i = .ok (a, s')) (hs : s.Meters l) :
    s'.Meters (s.sampledAfter l i) := by
  obtain ⟨s₁, s₂, tr, ht, hc, rfl⟩ := turn_eq_ok h
  have hseen := (tick_metered ht hs).1
  unfold sampledAfter
  simp only [ht]
  intro habs
  have hs₂ : s₂.Meters (if s₁.state = .absorb then s.sampled l i.poll i.elapsed else []) := by
    rcases hc with ⟨-, hc⟩ | ⟨-, rfl⟩
    · rcases commit_cases hc with ⟨-, rfl⟩ | ⟨event, d, hev, hn, hm⟩
      · intro habs
        rw [if_pos habs]
        exact hseen habs
      · intro habs
        obtain rfl : d = .absorb := hm.state.symm.trans habs
        -- no event leads from Absorb to itself
        rw [if_neg fun hst => by rw [hst] at hn; cases event <;> cases hn]
        exact hm.meters habs
    · intro habs
      rw [if_pos habs]
      exact hseen habs
  have hl := hs₂ habs
  exact ⟨hl.1, hl.2, hl.3⟩

theorem sampledBy_cons (h : s.turn i = .ok (a, s')) :
    s.sampledBy l (i :: is) = s'.sampledBy (s.sampledAfter l i) is := by
  rw [sampledBy]
  simp only [h]

theorem run_metered (h : s.run is = .ok (as, s')) (hs : s.Meters l) :
    s'.Meters (s.sampledBy l is) := by
  induction is generalizing s l as with
  | nil =>
    cases h
    exact hs
  | cons i is ih =>
    obtain ⟨a, s₁, as₁, ht, hr, rfl⟩ := run_cons h
    rw [sampledBy_cons ht]
    exact ih hr (turn_metered ht hs)

theorem new_meters {profile : Profile F} {iSetA : F} {packTemp : PackTemp}
    (h : new profile iSetA packTemp = .ok s) : s.Meters [] := by
  obtain ⟨-, -, rfl⟩ := new_eq_ok h
  exact fun habs => by cases habs

/-- What a tick of the sourcing arm does in Absorb is told by what the ticks of the stay have seen:
it steps down once the current was below the tail for long enough, parks once the pack was at the
plateau for long enough or once the stay has lasted long enough, in this order, and otherwise goes
on. -/
theorem absorb_reference {profile : Profile F} {iSetA : F} {packTemp : PackTemp}
    {s₀ : ChargeSupervisor F} (h₀ : new profile iSetA packTemp = .ok s₀)
    (hrun : s₀.run is = .ok (as, s)) (ht : s.tick p e = .ok (a, s'))
    (hx : s.absorbSample p e = some x) :
    Follows s.fault a s' (absorbVerdict (s.sampled (s₀.sampledBy [] is) p e)) := by
  exact (tick_metered ht (run_metered hrun (new_meters h₀))).2 x hx

/-- Brought up on a pack that is not full, and on to the absorb target. -/
def raisedTurns : List (Input Float32) :=
  seconds 1 (restPoll (some (.off .normal))) ++ seconds 1 (restPoll (some .on))

/-- At the plateau, below the tail. -/
def tailPoll : PollResult Float32 where
  battery := some { voltage := 14.38, current := -1.0 }
  setpoints := some { vSet := 14.4, iSet := 10.0 }
  output := some .on
  packTempC := none

/-- A minute below the tail, the first thing the stay sees. -/
theorem absorb_reference_tail : ∃ a s',
    (after (bootSupervisor .absent) raisedTurns).tick tailPoll (.fromSecs 60) = .ok (a, s') ∧
      Follows none a s' .stepDown := by
  have hrun : (bootSupervisor .absent).run raisedTurns
      = .ok ([.enableOutput ⟨true⟩, .updateVoltage ⟨.absorb, 14.4, false⟩],
        after (bootSupervisor .absent) raisedTurns) := by
    decide +kernel
  have ht : (after (bootSupervisor .absent) raisedTurns).tick tailPoll (.fromSecs 60)
      = .ok (.updateVoltage ⟨.float, 13.5, true⟩, after (bootSupervisor .absent)
        (raisedTurns ++ [⟨tailPoll, .fromSecs 60, false, 0⟩])) := by
    decide +kernel
  have hx : (after (bootSupervisor .absent) raisedTurns).absorbSample tailPoll (.fromSecs 60)
      = some ⟨true, true, .fromSecs 60⟩ := by
    decide +kernel
  have hverdict : absorbVerdict ((after (bootSupervisor .absent) raisedTurns).sampled
      ((bootSupervisor .absent).sampledBy [] raisedTurns) tailPoll (.fromSecs 60))
        = .stepDown := by
    decide +kernel
  have hfault : (after (bootSupervisor .absent) raisedTurns).fault = none := by
    decide +kernel
  refine ⟨_, _, ht, ?_⟩
  rw [← hverdict, ← hfault]
  exact absorb_reference (new_bootSupervisor .absent) hrun ht hx

end ChargeSupervisor

end Esp32Battery
