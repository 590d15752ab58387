import Esp32Battery.Board
import Esp32Battery.Proofs.FaultFinal
import Esp32Battery.Proofs.Windows

/-!
# The pack-temperature deadline

A fitted sensor's window is stepped by the seventh check, so only a tick that gets that far
charges it, and a reading that is no number empties it. What a sourcing machine is held to is the
time of the ticks that get there, since the last such reading.
-/

namespace Esp32Battery

open Lib Automaton

namespace ChargeSupervisor

section Unread

variable {F : Type} [FloatLike F] {s s' : ChargeSupervisor F} {i : Input F} {a : Action F}

/-- A tick that does not get as far as the temperature: it has no sample, or parks on the
charging current first. -/
def skipsTemp (s : ChargeSupervisor F) (i : Input F) : Bool :=
  match i.poll.usableBattery with
  | none => true
  | some b => !s.state.isParked &&
      (s.overcurrent.step (s.overdraws b) i.elapsed overcurrentDuration).1

/-- How long the sensor has gone unread once a sourcing machine has ticked, of `acc` before. -/
def unread (acc : ℕ) (s : ChargeSupervisor F) (i : Input F) : ℕ :=
  if s.skipsTemp i then acc
  else if i.poll.packTempC.isSome then 0
  else acc + i.elapsed.nanos

/-- At some point of the run the sensor has gone unread for the whole window. -/
def overdue (acc : ℕ) (s : ChargeSupervisor F) : List (Input F) → Bool
  | [] => packTempStaleTimeout.nanos ≤ acc
  | i :: is => packTempStaleTimeout.nanos ≤ acc ||
      match s.turn i with
      | .ok (_, s') => s'.overdue (s.unread acc i) is
      | .error _ => false

/-- A sourcing turn that does not trip keeps the window at what has gone unread, or beyond. -/
theorem turn_unread {acc : ℕ} (hs : s.state.sourcing = true) (hf : s.packTemp = .fitted)
    (ho : ∀ cause, i.poll.output ≠ some (.off cause))
    (hacc : acc < packTempStaleTimeout.nanos) (hw : acc ≤ s.packTempMissing.elapsed.nanos)
    (h : s.turn i = .ok (a, s')) :
    Terminal s'.state ∨ (s.unread acc i < packTempStaleTimeout.nanos ∧
      s.unread acc i ≤ s'.packTempMissing.elapsed.nanos) := by
  have hskipped : s.skipsTemp i = true → s'.packTempMissing = s.packTempMissing →
      s.unread acc i < packTempStaleTimeout.nanos ∧
        s.unread acc i ≤ s'.packTempMissing.elapsed.nanos := by
    intro hk hsame
    rw [unread, if_pos hk, hsame]
    exact ⟨hacc, hw⟩
  have hskip : ∀ b, s.Sampled i.poll i.elapsed b → s.skipsTemp i = (!s.state.isParked &&
      (s.overcurrent.step (s.overdraws b) i.elapsed overcurrentDuration).1) := fun b hsam => by
    rw [skipsTemp, hsam.battery]
  rcases turn_untripped hs ho h with hterm | hu
  · exact .inl hterm
  refine .inr ?_
  cases hu with
  | noSample _ _ _ _ hn hwin => exact hskipped (by rw [skipsTemp, hn]) hwin.packTempMissing
  | parks b hsam _ hp hover hwin =>
    refine hskipped ?_ hwin.packTempMissing
    rw [hskip b hsam, hp, hover]
    rfl
  | regulates b hsam _ hoc ht hwin =>
    have hnotSkipped : s.skipsTemp i = false := by
      rw [hskip b hsam, hoc, Bool.and_false]
    have hfresh := (ht hf).fresh
    have hmissing : s'.packTempMissing
        = (s.packTempMissing.step i.poll.packTempC.isNone i.elapsed packTempStaleTimeout).2 := by
      rw [hwin.packTempMissing, examined]
      exact if_pos hf
    rw [hmissing, unread, if_neg (by rw [hnotSkipped]; decide)]
    rcases hc : i.poll.packTempC with _ | c
    · rw [hc] at hfresh
      simp only [Option.isNone_none, Option.isSome_none, Bool.false_eq_true, if_false,
        Debounce.step_true, decide_eq_false_iff_not, Duration.le_def,
        Duration.nanos_saturatingAdd] at hfresh ⊢
      have := packTempStaleTimeout.nanos_le
      omega
    · simp only [Option.isSome_some, if_true]
      exact ⟨by decide, Nat.zero_le _⟩

/-- A machine that has gone unread for the whole window has given up. -/
theorem run_overdue {acc : ℕ} {is : List (Input F)} {as : List (Action F)}
    (hs : s.state.sourcing = true) (hf : s.packTemp = .fitted)
    (ho : ∀ i ∈ is, ∀ cause, i.poll.output ≠ some (.off cause))
    (hacc : acc < packTempStaleTimeout.nanos) (hw : acc ≤ s.packTempMissing.elapsed.nanos)
    (hover : s.overdue acc is = true) (h : s.run is = .ok (as, s')) : Terminal s'.state := by
  induction is generalizing s acc as with
  | nil =>
    simp only [overdue, decide_eq_true_eq] at hover
    omega
  | cons i is ih =>
    obtain ⟨a, s₁, as₁, ht, hr, -⟩ := run_cons h
    simp only [overdue, ht, Bool.or_eq_true, decide_eq_true_eq] at hover
    replace hover := hover.resolve_left (Nat.not_le.2 hacc)
    have hterm : Terminal s₁.state → Terminal s'.state := fun hs₁ =>
      (run_induction (P := fun s => Terminal s.state) (Q := fun _ => True)
        (fun _ _ _ _ hs h => ⟨(turn_terminal h hs).1, trivial⟩) hs₁ hr).1
    have hoi := ho i (by simp)
    rcases turn_unread hs hf hoi hacc hw ht with h₁ | ⟨hacc', hw'⟩
    · exact hterm h₁
    · rcases turn_sourcing hs hoi ht with hs₁ | h₁
      · exact ih hs₁ ((SameBoard.of_turn ht).packTemp.trans hf)
          (fun j hj => ho j (by simp [hj])) hacc' hw' hover hr
      · exact hterm h₁

end Unread

section Deadline

variable {s s' : ChargeSupervisor Float32} {is : List (Input Float32)}
  {as : List (Action Float32)}

/-- The deadline is met by a run whose ticks get to the check for that long with nothing read. -/
theorem packTemp_deadline (hf : s.packTemp = .fitted)
    (hs : s.state.sourcing = true) (ho : ∀ i ∈ is, ∀ cause, i.poll.output ≠ some (.off cause))
    (hover : s.overdue 0 is = true) (h : s.run is = .ok (as, s')) :
    s'.state = .tripping ∨ s'.state = .latched :=
  run_overdue hs hf ho (by decide) (Nat.zero_le _) hover h

/-- Brought up on a warm pack. -/
def warmSupervisor : ChargeSupervisor Float32 :=
  after (bootSupervisor .fitted) [⟨fullPoll (.off .normal) (some 20.0), .fromSecs 1, true, 1⟩]

theorem packTemp_deadline_unread :
    (after warmSupervisor (seconds 10 (fullPoll .on none))).state = .tripping ∨
      (after warmSupervisor (seconds 10 (fullPoll .on none))).state = .latched := by
  have hrun : warmSupervisor.run (seconds 10 (fullPoll .on none)) =
      .ok (List.replicate 9 .none ++ [.disableOutput ⟨.packTempStale⟩],
        after warmSupervisor (seconds 10 (fullPoll .on none))) := rfl
  refine packTemp_deadline rfl rfl ?_ rfl hrun
  intro i hi cause
  rw [List.eq_of_mem_replicate hi]
  simp [fullPoll, restPoll]

/-- Thirty seconds of no number, or eighteen with first the temperature and then the battery gone
as well, leave the buck sourcing. -/
theorem packTemp_overlooked : warmSupervisor.Reachable ∧ warmSupervisor.packTemp = .fitted ∧
    warmSupervisor.state = .float ∧
    (∃ as s', warmSupervisor.run (seconds 30 (fullPoll .on (some .nan))) = .ok (as, s') ∧
      s'.state = .float) ∧
    ∃ as s', warmSupervisor.run (seconds 9 (fullPoll .on none) ++
      seconds 9 { fullPoll .on none with battery := none }) = .ok (as, s') ∧ s'.state = .float := by
  refine ⟨after_reachable (bootSupervisor_reachable .fitted) _, rfl, rfl, ?_, ?_⟩
  · exact ⟨List.replicate 30 .none, after warmSupervisor (seconds 30 (fullPoll .on (some .nan))),
      by decide +kernel, by decide +kernel⟩
  · exact ⟨List.replicate 18 .none, after warmSupervisor (seconds 9 (fullPoll .on none) ++
      seconds 9 { fullPoll .on none with battery := none }), rfl, rfl⟩

end Deadline

end ChargeSupervisor

end Esp32Battery
