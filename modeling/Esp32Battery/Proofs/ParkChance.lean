import Esp32Battery.Proofs.Evidence

/-!
# The chance a park is given

The overcurrent window is moved by the ticks that reach its check and by nothing else, so a park
keeps it as full as it was. A machine disables on overcurrent only once the window is full again
where something emptied it in between.
-/

namespace Esp32Battery

open Lib Automaton

namespace ChargeSupervisor

section Window

variable {F : Type} [FloatLike F] {s s' : ChargeSupervisor F} {p : PollResult F} {e : Duration}
  {b : BatterySample F} {v : Verdict F} {i : Input F} {a : Action F}

instance : Decidable (s.OvPasses b e) :=
  inferInstanceAs (Decidable (if s.state.sourcing then
    (s.ov.step (s.overvolts b) e ovDuration).1 = false else s.overvolts b = false))

/-- Whether the tick gets as far as the overcurrent check: with a sample, and past the checks
before. -/
def reachesOvercurrent (s : ChargeSupervisor F) (i : Input F) : Bool :=
  match s.reconcile i.poll, i.poll.usableBattery with
  | .ok (none, s₁), some b => !(s₁.holds.step i.elapsed).1 ∧
      (s₁.setpointsDrift i.poll.setpoints).toOption = some false ∧
      !(s₁.modbusErr.step i.poll.setpoints.isNone i.elapsed modbusUnhealthyTimeout).1 ∧
      (s₁.sampling i.poll i.elapsed).OvPasses b i.elapsed
  | _, _ => false

theorem sampled_of_reaches {s₁ : ChargeSupervisor F} (hr : s.reconcile i.poll = .ok (none, s₁))
    (hb : i.poll.usableBattery = some b) (h : s.reachesOvercurrent i = true) :
    s₁.Sampled i.poll i.elapsed b ∧ (s₁.sampling i.poll i.elapsed).OvPasses b i.elapsed := by
  simp only [reachesOvercurrent, hr, hb, decide_eq_true_eq, Bool.not_eq_true'] at h
  obtain ⟨hflap, hdrift, hmodbus, hov⟩ := h
  refine ⟨⟨hflap, ?_, hmodbus, hb⟩, hov⟩
  rcases hx : s₁.setpointsDrift i.poll.setpoints with x | x <;> rw [hx] at hdrift <;> cases hdrift
  rfl

theorem reconcile_overcurrent {o : Option (Action F)} {s₁ : ChargeSupervisor F}
    (h : s.reconcile p = .ok (o, s₁)) :
    s₁.overcurrent = s.overcurrent ∧ s₁.profile = s.profile := by
  have moved : ∀ {d : ChargeState}, s.Moved d s₁ →
      s₁.overcurrent = s.overcurrent ∧ s₁.profile = s.profile := fun hm => by
    obtain ⟨tr, rfl⟩ := hm
    exact ⟨rfl, rfl⟩
  have faulted : ∀ {r : FaultReason} {a : Action F}, s.onFault r = .ok (a, s₁) →
      s₁.overcurrent = s.overcurrent ∧ s₁.profile = s.profile := fun hf =>
    ⟨(SameWindows.of_onFault hf).overcurrent, (SameBoard.of_onFault hf).profile⟩
  cases reconcile_cases h with
  | tripping | dark | agree => exact ⟨rfl, rfl⟩
  | resurfaced _ _ _ _ hm => exact moved hm
  | lost _ _ _ _ hf => exact faulted hf
  | pending _ _ hf => exact faulted hf
  | hold _ _ _ _ _ hm => exact moved hm
  | resume _ _ _ hm => exact moved hm

/-- The window moves on the ticks that reach the check, and only there. -/
theorem turn_overcurrent (h : s.turn i = .ok (a, s')) :
    (∃ b, i.poll.usableBattery = some b ∧
      s'.overcurrent = (s.overcurrent.step (s.overdraws b) i.elapsed overcurrentDuration).2) ∨
      s.reachesOvercurrent i = false ∧ s'.overcurrent = s.overcurrent := by
  rcases turn_windows h with ⟨s₁, hr, hw⟩ | ⟨s₁, v, s₂, s₃, hr, hg, -, hw, -⟩
  · refine .inr ⟨?_, hw.overcurrent.trans (reconcile_overcurrent hr).1⟩
    rw [reachesOvercurrent, hr]
  obtain ⟨hover, hprof⟩ := reconcile_overcurrent hr
  have hdraws : ∀ b, s₁.overdraws b = s.overdraws b := fun b => by rw [overdraws, hprof, overdraws]
  rw [hw.overcurrent]
  rcases gauntlet_cases hg with ⟨b, hs, hgon⟩ | ⟨hu, _, _, rfl⟩
  · have hstep : (s₁.overcurrent.step (s₁.overdraws b) i.elapsed overcurrentDuration).2
        = (s.overcurrent.step (s.overdraws b) i.elapsed overcurrentDuration).2 := by
      rw [hover, hdraws]
    cases gauntletOn_cases hgon with
    | overvoltage _ hov =>
      refine .inr ⟨?_, hover⟩
      rw [← Bool.not_eq_true]
      exact fun hreach => hov (sampled_of_reaches hr hs.battery hreach).2
    | overcurrent | temp | gate => exact .inl ⟨b, hs.battery, hstep⟩
  · refine .inr ⟨?_, hover⟩
    rcases hb : i.poll.usableBattery with _ | b
    · rw [reachesOvercurrent, hr, hb]
    · rw [← Bool.not_eq_true]
      exact fun hreach => hu.not_sampled (sampled_of_reaches hr hb hreach).1

/-- A machine that has not given up disables on overcurrent when its window is full. -/
theorem turn_disables (h : s.turn i = .ok (.disableOutput ⟨.chargeOvercurrent⟩, s'))
    (hl : ¬ Terminal s.state) : ∃ b, i.poll.usableBattery = some b ∧
      (s.overcurrent.step (s.overdraws b) i.elapsed overcurrentDuration).1 = true := by
  have hraises : Raises .chargeOvercurrent s (.disableOutput ⟨.chargeOvercurrent⟩) s' :=
    .inr ⟨hl, rfl⟩
  rcases turn_watch .chargeOvercurrent h with ⟨-, -, hn⟩ | ⟨s₁, v, s₂, hr, hwatch, -, hv⟩
  · exact absurd hraises hn
  replace hv := hv hraises
  obtain ⟨hover, hprof⟩ := reconcile_overcurrent hr
  by_cases hreach : Watched.Reached s₁ i.poll i.elapsed .chargeOvercurrent
  · obtain ⟨cond, hshows, -, hfired⟩ := hwatch.reached hreach
    obtain ⟨b, hb, rfl⟩ := Option.map_eq_some_iff.1 hshows
    refine ⟨b, hb, ?_⟩
    rw [← hover, overdraws, ← hprof]
    exact hfired hv
  · exact absurd hv (hwatch.skipped hreach).2

end Window

section Chance

variable {s s' s₁ : ChargeSupervisor Float32} {i j : Input Float32} {a : Action Float32}
  {is : List (Input Float32)} {as : List (Action Float32)} {acc : ℕ} {c : Bool}

def overcurrentLimit (s : ChargeSupervisor Float32) : Float32 :=
  s.profile.regulationA * overcurrentTol

/-- The poll shows a charging current at or below `limit`. -/
def showsWithin (limit : Float32) (p : PollResult Float32) : Bool :=
  p.battery.any fun b => b.chargingA ≤ limit

def showsOver (limit : Float32) (p : PollResult Float32) : Bool :=
  p.battery.any fun b => limit < b.chargingA

/-- The time spent over the limit since it was last shown kept, of `acc` before this turn. -/
def tally (limit : Float32) (acc : ℕ) (i : Input Float32) : ℕ :=
  if showsWithin limit i.poll then 0
  else if showsOver limit i.poll then acc + i.elapsed.nanos
  else acc

def overTime (limit : Float32) (is : List (Input Float32)) : ℕ := is.foldl (tally limit) 0

/-- Whether the last turn of the run that shows the limit kept got as far as the check; `c` if
there is none. -/
def emptied (c : Bool) (s : ChargeSupervisor Float32) : List (Input Float32) → Bool
  | [] => c
  | i :: is =>
    match s.turn i with
    | .ok (_, s') =>
      s'.emptied (if showsWithin s.overcurrentLimit i.poll then s.reachesOvercurrent i else c) is
    | .error _ => false

theorem stepped_le {b : BatterySample Float32} (hb : i.poll.usableBattery = some b)
    (hw : showsWithin s.overcurrentLimit i.poll = true ∨ s.overcurrent.elapsed.nanos ≤ acc) :
    (s.overcurrent.step (s.overdraws b) i.elapsed overcurrentDuration).2.elapsed.nanos
      ≤ tally s.overcurrentLimit acc i := by
  have hbat : i.poll.battery = some b := (Option.filter_eq_some_iff.1 hb).1
  rcases hd : s.overdraws b with _ | _
  · exact Nat.zero_le _
  have hover : s.overcurrentLimit < b.chargingA := of_decide_eq_true hd
  have hwithin : showsWithin s.overcurrentLimit i.poll = false := by
    simp only [showsWithin, hbat, Option.any_some, decide_eq_false_iff_not]
    exact fun hle => Float32.not_lt_of_le hle hover
  have hshows : showsOver s.overcurrentLimit i.poll = true := by
    simp only [showsOver, hbat, Option.any_some, decide_eq_true_eq]
    exact hover
  replace hw := hw.resolve_left (by rw [hwithin]; decide)
  simp only [tally, hwithin, hshows, Debounce.step_true, Duration.nanos_saturatingAdd,
    Bool.false_eq_true, if_false, if_true]
  omega

/-- The window holds no more than has been shown over the limit. -/
theorem turn_tally (h : s.turn i = .ok (a, s'))
    (hw : c = true → s.overcurrent.elapsed.nanos ≤ acc)
    (hc : (if showsWithin s.overcurrentLimit i.poll then s.reachesOvercurrent i else c) = true) :
    s'.overcurrent.elapsed.nanos ≤ tally s.overcurrentLimit acc i := by
  rcases turn_overcurrent h with ⟨b, hb, hs⟩ | ⟨hr, hs⟩
  · rw [hs]
    refine stepped_le hb ?_
    split_ifs at hc with hin
    · exact .inl hin
    · exact .inr (hw hc)
  · rw [hs]
    split_ifs at hc with hin
    · rw [hr] at hc
      cases hc
    · have := hw hc
      unfold tally
      split_ifs <;> omega

theorem run_tally (h : s.run is = .ok (as, s'))
    (hw : c = true → s.overcurrent.elapsed.nanos ≤ acc) (hc : s.emptied c is = true) :
    s'.overcurrent.elapsed.nanos ≤ is.foldl (tally s.overcurrentLimit) acc := by
  induction is generalizing s acc c as with
  | nil =>
    cases h
    exact hw hc
  | cons i is ih =>
    obtain ⟨a, s₁, as₁, ht, hr, -⟩ := run_cons h
    simp only [emptied, ht] at hc
    have hlim : s₁.overcurrentLimit = s.overcurrentLimit := by
      rw [overcurrentLimit, (SameBoard.of_turn ht).profile, overcurrentLimit]
    have := ih hr (turn_tally ht hw) hc
    rw [hlim] at this
    exact this

/-- A machine whose window was emptied disables on overcurrent only after a whole window of it. -/
theorem park_chance (h : s.run is = .ok (as, s₁)) (hc : s.emptied false is = true)
    (hl : ¬ Terminal s₁.state)
    (hd : s₁.turn j = .ok (.disableOutput ⟨.chargeOvercurrent⟩, s')) :
    overcurrentDuration.nanos ≤ overTime s.overcurrentLimit (is ++ [j]) := by
  obtain ⟨b, hb, hfired⟩ := turn_disables hd hl
  have hlim : s₁.overcurrentLimit = s.overcurrentLimit := by
    rw [overcurrentLimit, (SameBoard.of_run h).profile, overcurrentLimit]
  have hw : s₁.overcurrent.elapsed.nanos ≤ is.foldl (tally s.overcurrentLimit) 0 :=
    run_tally h (by simp) hc
  have hstep := stepped_le hb (s := s₁) (.inr hw)
  rw [hlim] at hstep
  rw [overTime, List.foldl_append, List.foldl_cons, List.foldl_nil]
  exact (Debounce.le_of_step hfired).trans hstep

/-- A second of a full pack taking 13 A, the buck on at `vSet`. -/
def overTurn (vSet : Float32) (commit : Bool) : Input Float32 where
  poll := { fullPoll .on none with
    battery := some { voltage := 13.5, current := -13.0 }
    setpoints := some { vSet, iSet := 10.0 } }
  elapsed := .fromSecs 1
  commit
  drain := 1

/-- Raised to absorb, four seconds over the limit. -/
def absorbTurns : List (Input Float32) :=
  seconds 1 (fullPoll (.off .normal) none) ++ overTurn 13.5 true ::
    List.replicate 3 (overTurn 14.4 true)

def absorbSupervisor : ChargeSupervisor Float32 := after (bootSupervisor .absent) absorbTurns

def parkedSupervisor : ChargeSupervisor Float32 := after absorbSupervisor [overTurn 14.4 true]

/-- A second within the limit, and five over it. -/
theorem park_chance_given : overcurrentDuration.nanos ≤ overTime parkedSupervisor.overcurrentLimit
    ((seconds 1 (fullPoll .on none) ++ List.replicate 4 (overTurn 13.5 true)) ++
      [overTurn 13.5 true]) := by
  let is := seconds 1 (fullPoll .on none) ++ List.replicate 4 (overTurn 13.5 true)
  have hrun : parkedSupervisor.run is
      = .ok (List.replicate 5 .none, after parkedSupervisor is) := by rfl
  have hlast : (after parkedSupervisor is).turn (overTurn 13.5 true)
      = .ok (.disableOutput ⟨.chargeOvercurrent⟩,
        after parkedSupervisor (is ++ [overTurn 13.5 true])) := by
    decide +kernel
  have hstate : (after parkedSupervisor is).state = .parked := by decide +kernel
  refine park_chance hrun rfl ?_ hlast
  rw [hstate]
  rintro (h | h) <;> cases h

/-- One more second over the limit disables the buck, whether the step-down was written or not. -/
theorem park_denied : absorbSupervisor.Reachable ∧ ∀ written : Bool, ∃ s₁ s₂,
    absorbSupervisor.turn (overTurn 14.4 written)
      = .ok (.updateVoltage ⟨.float, 13.5, true⟩, s₁) ∧
    absorbSupervisor.fault = none ∧ s₁.fault = some .chargeOvercurrent ∧
    s₁.state.isParked = true ∧
    s₁.turn (overTurn (if written then 13.5 else 14.4) true)
      = .ok (.disableOutput ⟨.chargeOvercurrent⟩, s₂) ∧
    overTime s₁.overcurrentLimit [overTurn (if written then 13.5 else 14.4) true]
      < overcurrentDuration.nanos := by
  refine ⟨after_reachable (bootSupervisor_reachable .absent) _, fun written => ?_⟩
  refine ⟨after absorbSupervisor [overTurn 14.4 written], after absorbSupervisor
    [overTurn 14.4 written, overTurn (if written then 13.5 else 14.4) true], ?_⟩
  cases written <;> decide +kernel

end Chance

end ChargeSupervisor

end Esp32Battery
