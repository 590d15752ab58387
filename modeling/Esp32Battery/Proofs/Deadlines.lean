import Esp32Battery.Board
import Esp32Battery.Proofs.FaultFinal
import Esp32Battery.Proofs.Windows

/-!
# The deadlines of a sourcing machine

A tick that finds a condition still there and does not give up leaves the window of that condition
charged with its whole time and short of the timeout. So a run that finds it on every tick gives
up before its time comes to the timeout, whatever the machine regulates to meanwhile.
-/

namespace Esp32Battery

open Lib Automaton

namespace ChargeSupervisor

variable {F : Type} [FloatLike F] {s s' : ChargeSupervisor F} {i : Input F} {a : Action F}
  {is : List (Input F)} {as : List (Action F)} {b : BatterySample F}

/-- The time the ticks of a run took. -/
def totalNanos (is : List (Input F)) : ℕ := (is.map fun i => i.elapsed.nanos).sum

/-- The turn gives up, or leaves the window charged with its time, and short of the timeout. -/
def Charges (window : ChargeSupervisor F → Debounce) (timeout : Duration)
    (done : ChargeSupervisor F → Prop) (s : ChargeSupervisor F) (i : Input F)
    (s' : ChargeSupervisor F) : Prop :=
  done s' ∨ s'.state.sourcing = true ∧
    (window s).step true i.elapsed timeout = (false, window s')

omit [FloatLike F] in
theorem Charges.le {window : ChargeSupervisor F → Debounce} {timeout : Duration}
    {done : ChargeSupervisor F → Prop} {acc : ℕ} (h : Charges window timeout done s i s')
    (hacc : acc ≤ (window s).elapsed.nanos) : done s' ∨ s'.state.sourcing = true ∧
      acc + i.elapsed.nanos < timeout.nanos ∧
      acc + i.elapsed.nanos ≤ (window s').elapsed.nanos := by
  refine h.imp_right fun ⟨hs, hstep⟩ => ⟨hs, ?_⟩
  rw [Debounce.step_true, Prod.mk.injEq, decide_eq_false_iff_not, Duration.le_def] at hstep
  obtain ⟨hshort, hwin⟩ := hstep
  have hmax := timeout.nanos_le
  rw [← hwin]
  simp only [Duration.nanos_saturatingAdd] at hshort ⊢
  omega

/-- Turns that each charge the window give up by the time it would be full. -/
theorem run_charges (window : ChargeSupervisor F → Debounce) {timeout : Duration}
    {done : ChargeSupervisor F → Prop} {acc : ℕ}
    (hdone : ∀ s i a s', done s → s.turn i = .ok (a, s') → done s')
    (hturn : ∀ s₁ a s', ∀ i ∈ is, s₁.profile = s.profile → s₁.state.sourcing = true →
      s₁.turn i = .ok (a, s') → Charges window timeout done s₁ i s')
    (hs : s.state.sourcing = true) (hshort : acc < timeout.nanos)
    (hacc : acc ≤ (window s).elapsed.nanos) (hover : timeout.nanos ≤ totalNanos is + acc)
    (h : s.run is = .ok (as, s')) : done s' := by
  induction is generalizing s acc as with
  | nil =>
    simp only [totalNanos, List.map_nil, List.sum_nil] at hover
    omega
  | cons i is ih =>
    obtain ⟨a, s₁, as₁, ht, hr, -⟩ := run_cons h
    have hprof := (SameBoard.of_turn ht).profile
    rcases (hturn s a s₁ i (by simp) rfl hs ht).le hacc with hd | ⟨hs₁, hshort₁, hacc₁⟩
    · exact (run_induction (P := done) (Q := fun _ => True)
        (fun _ _ _ _ hd h => ⟨hdone _ _ _ _ hd h, trivial⟩) hd hr).1
    · refine ih (fun s₂ a s' j hj hp => hturn s₂ a s' j (by simp [hj]) (hp.trans hprof)) hs₁
        hshort₁ hacc₁ ?_ hr
      simp only [totalNanos, List.map_cons, List.sum_cons] at hover ⊢
      omega

section Turn

variable (hs : s.state.sourcing = true) (ho : ∀ cause, i.poll.output ≠ some (.off cause))

include hs ho

theorem turn_charges {window : ChargeSupervisor F → Debounce} {timeout : Duration}
    (h : s.turn i = .ok (a, s'))
    (hw : s.Untripped i s' → (window s).step true i.elapsed timeout = (false, window s')) :
    Charges window timeout (fun s => Terminal s.state) s i s' := by
  rcases turn_untripped hs ho h with ht | hu
  · exact .inl ht
  · exact (turn_sourcing hs ho h).symm.imp_right fun hs' => ⟨hs', hw hu⟩

theorem turn_batteryMissing (hb : i.poll.usableBattery = none) (h : s.turn i = .ok (a, s')) :
    Charges batteryMissing batteryMissingTimeout (fun s => Terminal s.state) s i s' := by
  refine turn_charges hs ho h fun hu => ?_
  cases hu with
  | noSample _ _ _ hmiss _ hw =>
    refine Prod.ext hmiss ?_
    rw [hw.batteryMissing, sampling, hb]
    rfl
  | parks b hsam | regulates b hsam => cases hb.symm.trans hsam.battery

theorem turn_modbusErr (hp : i.poll.setpoints = none) (h : s.turn i = .ok (a, s')) :
    Charges modbusErr modbusUnhealthyTimeout (fun s => Terminal s.state) s i s' := by
  refine turn_charges hs ho h fun hu => ?_
  have hend : (s.modbusErr.step i.poll.setpoints.isNone i.elapsed modbusUnhealthyTimeout).1 = false
      ∧ s'.modbusErr
        = (s.modbusErr.step i.poll.setpoints.isNone i.elapsed modbusUnhealthyTimeout).2 := by
    cases hu with
    | noSample _ _ hm _ _ hw => exact ⟨hm, hw.modbusErr⟩
    | parks b hsam _ _ _ hw => exact ⟨hsam.modbus, hw.modbusErr⟩
    | regulates b hsam _ _ _ hw => exact ⟨hsam.modbus, hw.modbusErr⟩
  rw [hp] at hend
  exact Prod.ext hend.1 hend.2.symm

theorem turn_ov (hb : i.poll.usableBattery = some b) (hov : s.overvolts b = true)
    (h : s.turn i = .ok (a, s')) : Charges ov ovDuration (fun s => Terminal s.state) s i s' := by
  refine turn_charges hs ho h fun hu => ?_
  have hend : ∀ {b'}, s.Sampled i.poll i.elapsed b' → s.OvPasses b' i.elapsed →
      s'.ov = (s.ov.step (s.overvolts b') i.elapsed ovDuration).2 →
      s.ov.step true i.elapsed ovDuration = (false, s'.ov) := by
    intro b' hsam hpass hw
    cases hb.symm.trans hsam.battery
    rw [OvPasses, if_pos hs] at hpass
    rw [hov] at hpass hw
    exact Prod.ext hpass hw.symm
  cases hu with
  | noSample _ _ _ _ hn => cases hb.symm.trans hn
  | parks b' hsam hpass _ _ hw => exact hend hsam hpass hw.ov
  | regulates b' hsam hpass _ _ hw => exact hend hsam hpass hw.ov

theorem turn_overcurrent_charges (hb : i.poll.usableBattery = some b)
    (hover : s.overdraws b = true) (h : s.turn i = .ok (a, s')) :
    Charges overcurrent overcurrentDuration
      (fun s => Terminal s.state ∨ s.fault.isSome = true) s i s' := by
  rcases turn_untripped hs ho h with ht | hu
  · exact .inl (.inl ht)
  cases hu with
  | noSample _ _ _ _ hn => cases hb.symm.trans hn
  | parks _ _ _ _ _ _ hf =>
    exact .inl (.inr (by rw [hf]; rfl))
  | regulates b' hsam _ hoc _ hw =>
    cases hb.symm.trans hsam.battery
    refine (turn_sourcing hs ho h).symm.imp .inl fun hs' => ⟨hs', Prod.ext ?_ ?_⟩
    · rw [hover] at hoc
      exact hoc
    · rw [hw.overcurrent]
      change _ = (s.overcurrent.step (s.overdraws b) i.elapsed overcurrentDuration).2
      rw [hover]

end Turn

/-- A sourcing machine whose output does not read off gives up on a lost sensor, a lost link and
an overvoltage in their time, and raises a fault on an overcurrent in its own. -/
theorem run_deadlines (hreach : s.Reachable) (hs : s.state.sourcing = true)
    (ho : ∀ i ∈ is, ∀ cause, i.poll.output ≠ some (.off cause)) (h : s.run is = .ok (as, s')) :
    ((∀ i ∈ is, i.poll.usableBattery = none) → batteryMissingTimeout.nanos ≤ totalNanos is →
      s'.state = .tripping ∨ s'.state = .latched) ∧
    ((∀ i ∈ is, i.poll.setpoints = none) → modbusUnhealthyTimeout.nanos ≤ totalNanos is →
      s'.state = .tripping ∨ s'.state = .latched) ∧
    ((∀ i ∈ is, ∃ b, i.poll.usableBattery = some b ∧ s.profile.absorbV + ovMarginV < b.voltage) →
      ovDuration.nanos ≤ totalNanos is → s'.state = .tripping ∨ s'.state = .latched) ∧
    ((∀ i ∈ is, ∃ b, i.poll.usableBattery = some b ∧
        s.profile.regulationA * overcurrentTol < b.chargingA) →
      overcurrentDuration.nanos ≤ totalNanos is → s'.fault.isSome = true) := by
  have hterm : ∀ (s : ChargeSupervisor F) i a s', Terminal s.state → s.turn i = .ok (a, s') →
      Terminal s'.state := fun _ _ _ _ ht h => (turn_terminal h ht).1
  refine ⟨fun hb hover => ?_, fun hp hover => ?_, fun hov hover => ?_, fun hoc hover => ?_⟩
  · exact run_charges batteryMissing hterm
      (fun s₁ a s' i hi _ hs₁ => turn_batteryMissing hs₁ (ho i hi) (hb i hi)) hs (by decide)
      (Nat.zero_le _) hover h
  · exact run_charges modbusErr hterm
      (fun s₁ a s' i hi _ hs₁ => turn_modbusErr hs₁ (ho i hi) (hp i hi)) hs (by decide)
      (Nat.zero_le _) hover h
  · refine run_charges ov hterm (fun s₁ a s' i hi hprof hs₁ => ?_) hs (by decide)
      (Nat.zero_le _) hover h
    obtain ⟨b, hb, hv⟩ := hov i hi
    exact turn_ov hs₁ (ho i hi) hb (by rw [overvolts, hprof]; exact decide_eq_true hv)
  · have hfaulted : ∀ (s : ChargeSupervisor F) i a s', Terminal s.state ∨ s.fault.isSome = true →
        s.turn i = .ok (a, s') → Terminal s'.state ∨ s'.fault.isSome = true :=
      fun s i a s' hd h => hd.imp (fun ht => hterm s i a s' ht h) (turn_faulted h)
    have hend : Terminal s'.state ∨ s'.fault.isSome = true := by
      refine run_charges overcurrent hfaulted (fun s₁ a s' i hi hprof hs₁ => ?_) hs (by decide)
        (Nat.zero_le _) hover h
      obtain ⟨b, hb, hc⟩ := hoc i hi
      exact turn_overcurrent_charges hs₁ (ho i hi) hb
        (by rw [overdraws, hprof]; exact decide_eq_true hc)
    rcases hend with ht | hf
    · rw [(hreach.of_run h).fault_iff]
      rcases ht with ht | ht <;> rw [ht] <;> decide
    · exact hf

theorem run_deadlines_sensor :
    (after floatSupervisor (seconds 10 { fullPoll .on none with battery := none })).state
        = .tripping ∨
      (after floatSupervisor (seconds 10 { fullPoll .on none with battery := none })).state
        = .latched := by
  have hrun : floatSupervisor.run (seconds 10 { fullPoll .on none with battery := none })
      = .ok (List.replicate 9 .none ++ [.disableOutput ⟨.batterySensorStale⟩],
        after floatSupervisor (seconds 10 { fullPoll .on none with battery := none })) := rfl
  refine (run_deadlines (after_reachable (bootSupervisor_reachable .absent) _) rfl ?_ hrun).1 ?_ ?_
  · intro i hi cause
    rw [List.eq_of_mem_replicate hi]
    simp [fullPoll, restPoll]
  · intro i hi
    rw [List.eq_of_mem_replicate hi]
    rfl
  · decide

end ChargeSupervisor

end Esp32Battery
