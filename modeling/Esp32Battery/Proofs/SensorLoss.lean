import Esp32Battery.Board
import Esp32Battery.Proofs.FaultFinal
import Esp32Battery.Proofs.Windows
import Esp32Battery.Threads

/-!
# Losing the battery sensor

Two windows in two threads stand between the last reading and a latched buck. The store's
staleness is charged by the main loop alone, so the supervisor starts its own window when a
main-loop tick has found the reading stale, and not before.
-/

namespace Esp32Battery

open Lib Automaton

section Missing

variable {F : Type} [FloatLike F]

namespace ChargeSupervisor

variable {s s' : ChargeSupervisor F} {i : Input F} {a : Action F}

/-- A sourcing turn without a sample trips, or its window takes the whole turn and stays open. -/
theorem turn_missing (hs : s.state.sourcing = true)
    (ho : ∀ cause, i.poll.output ≠ some (.off cause)) (hb : i.poll.usableBattery = none)
    (h : s.turn i = .ok (a, s')) :
    Terminal s'.state ∨ (s.batteryMissing.elapsed.saturatingAdd i.elapsed < batteryMissingTimeout ∧
      s'.batteryMissing.elapsed = s.batteryMissing.elapsed.saturatingAdd i.elapsed) := by
  rcases turn_untripped hs ho h with hterm | hu
  · exact .inl hterm
  cases hu with
  | noSample _ _ _ hmiss hn hw =>
    refine .inr ⟨?_, ?_⟩
    · rw [Debounce.step_true] at hmiss
      exact Nat.not_le.1 (of_decide_eq_false hmiss)
    · rw [hw.batteryMissing, sampling, hn]
      rfl
  | parks b hsam | regulates b hsam =>
    rw [hsam.battery] at hb
    cases hb

end ChargeSupervisor

namespace Threads

variable {x y : Threads F} {e : Timed F} {es : List (Timed F)}

/-- No event of the list refreshes the battery. -/
def Unrefreshed (es : List (Timed F)) : Prop :=
  ∀ e ∈ es, ∀ bat, e.event = .updateBattery bat → bat.isFinite = false

/-- No poll of the list reads the output off. -/
def StaysOn (es : List (Timed F)) : Prop :=
  ∀ e ∈ es, ∀ i, e.event = .iteration i → ∀ cause, i.output ≠ some (.off cause)

/-- When the supervisor last ticked, `t` if it does not tick in `es`. -/
def lastLap (t : Duration) (es : List (Timed F)) : Duration :=
  es.foldl (fun t e => match e.event with | .iteration i => i.lap | _ => t) t

/-- The reading is as old as the main loop has counted since `m`. -/
def Unheard (m : Duration) (x : Threads F) : Prop :=
  x.mainTimer.last.nanos ≤ m.nanos + x.data.batteryStale.nanos

theorem step_unheard {m : Duration} (h : x.step e = .ok y) (hx : Unheard m x)
    (he : Unrefreshed [e]) : Unheard m y ∧ x.data.batteryStale ≤ y.data.batteryStale := by
  unfold Unheard at hx ⊢
  obtain ⟨bat, hbat, rfl⟩ | ⟨ps, -, rfl⟩ | ⟨nowEpoch, history, -, rfl⟩ |
    ⟨i, a, supervisor, -, -, rfl⟩ := step_cases h
  · have hfin := he e (by simp) bat hbat
    simp only [SensorData.updateBattery, hfin, Bool.false_eq_true, if_false]
    exact ⟨hx, le_refl x.data.batteryStale.nanos⟩
  · unfold SensorData.updatePs
    split_ifs <;> exact ⟨hx, le_refl x.data.batteryStale.nanos⟩
  · have ht := e.time.nanos_le
    have hs := x.data.batteryStale.nanos_le
    simp only [Duration.le_def, Duration.nanos_saturatingAdd, LoopTimer.nanos_lap]
    omega
  · exact ⟨hx, le_refl x.data.batteryStale.nanos⟩

/-- The supervisor sources or has given up. -/
def Live (x : Threads F) : Prop :=
  x.supervisor.state.sourcing = true ∨ Terminal x.supervisor.state

theorem step_live (h : x.step e = .ok y) (hx : x.Live) (he : StaysOn [e]) : y.Live := by
  obtain ⟨_, -, rfl⟩ | ⟨_, -, rfl⟩ | ⟨_, _, -, rfl⟩ | ⟨i, a, supervisor, hi, ht, rfl⟩ :=
    step_cases h
  · exact hx
  · exact hx
  · exact hx
  · rcases hx with hs | hs
    · exact ChargeSupervisor.turn_sourcing hs (he e (by simp) i hi) ht
    · exact .inr (ChargeSupervisor.turn_terminal ht hs).1

/-- Its window holds at least the time since `t`. -/
def Waiting (t : Duration) (x : Threads F) : Prop :=
  Terminal x.supervisor.state ∨ x.supervisor.state.sourcing = true ∧
    x.xyTimer.last.nanos ≤ t.nanos + x.supervisor.batteryMissing.elapsed.nanos

/-- A stale reading keeps the supervisor waiting, and trips it when the wait is over. -/
theorem step_waiting {t : Duration} (h : x.step e = .ok y) (hx : x.Waiting t)
    (hstale : staleWindow < x.data.batteryStale) (he : StaysOn [e]) :
    y.Waiting t ∧ ∀ i, e.event = .iteration i →
      t.nanos + batteryMissingTimeout.nanos ≤ i.lap.nanos → Terminal y.supervisor.state := by
  obtain ⟨_, hev, rfl⟩ | ⟨_, hev, rfl⟩ | ⟨_, _, hev, rfl⟩ | ⟨i, a, supervisor, hi, ht, rfl⟩ :=
    step_cases h
  · exact ⟨hx, fun i hi => by rw [hev] at hi; cases hi⟩
  · exact ⟨hx, fun i hi => by rw [hev] at hi; cases hi⟩
  · exact ⟨hx, fun i hi => by rw [hev] at hi; cases hi⟩
  rcases hx with hs | ⟨hs, hw⟩
  · have hterm := (ChargeSupervisor.turn_terminal ht hs).1
    exact ⟨.inl hterm, fun _ _ _ => hterm⟩
  have ho := he e (by simp) i hi
  have hb : (x.input i).poll.usableBattery = none := by
    simp [PollResult.usableBattery, input, SensorData.snapshot, SensorData.batteryReading, hstale]
  rcases ChargeSupervisor.turn_missing hs ho hb ht with hterm | ⟨hlt, heq⟩
  · exact ⟨.inl hterm, fun _ _ _ => hterm⟩
  have hlap := i.lap.nanos_le
  simp only [input, Duration.lt_def, Duration.nanos_saturatingAdd, LoopTimer.nanos_lap] at hlt
  refine ⟨?_, ?_⟩
  · rcases ChargeSupervisor.turn_sourcing hs ho ht with hsrc | hterm
    · refine .inr ⟨hsrc, ?_⟩
      simp only [heq, input, Duration.nanos_saturatingAdd, LoopTimer.nanos_lap]
      omega
    · exact .inl hterm
  · intro j hj hle
    rw [hi] at hj
    cases hj
    omega

omit [FloatLike F] in
theorem lastLap_cons (t : Duration) :
    lastLap t (e :: es) = lastLap (match e.event with | .iteration i => i.lap | _ => t) es := rfl

theorem step_xyTimer (h : x.step e = .ok y) :
    y.xyTimer.last = match e.event with | .iteration i => i.lap | _ => x.xyTimer.last := by
  obtain ⟨_, he, rfl⟩ | ⟨_, he, rfl⟩ | ⟨_, _, he, rfl⟩ | ⟨i, _, _, he, -, rfl⟩ := step_cases h <;>
    rw [he]

theorem run_unheard {m : Duration} (h : x.run es = .ok y) (hx : Unheard m x) (hl : x.Live)
    (hno : Unrefreshed es) (hon : StaysOn es) :
    Unheard m y ∧ y.Live ∧ y.xyTimer.last = lastLap x.xyTimer.last es := by
  induction es generalizing x with
  | nil =>
    cases h
    exact ⟨hx, hl, rfl⟩
  | cons e es ih =>
    simp only [run, bind_eq_ok] at h
    obtain ⟨x₁, h₁, h⟩ := h
    have hx₁ := (step_unheard h₁ hx fun e' he' => hno e' (by simp_all)).1
    have hl₁ := step_live h₁ hl fun e' he' => hon e' (by simp_all)
    rw [lastLap_cons, ← step_xyTimer h₁]
    exact ih h hx₁ hl₁ (fun e' he' => hno e' (by simp [he'])) fun e' he' => hon e' (by simp [he'])

theorem run_waiting {m t : Duration} (h : x.run es = .ok y) (hx : Unheard m x) (hw : x.Waiting t)
    (hstale : staleWindow < x.data.batteryStale) (hno : Unrefreshed es) (hon : StaysOn es) :
    y.Waiting t ∧ staleWindow < y.data.batteryStale := by
  induction es generalizing x with
  | nil =>
    cases h
    exact ⟨hw, hstale⟩
  | cons e es ih =>
    simp only [run, bind_eq_ok] at h
    obtain ⟨x₁, h₁, h⟩ := h
    obtain ⟨hx₁, hle⟩ := step_unheard h₁ hx fun e' he' => hno e' (by simp_all)
    have hw₁ := (step_waiting h₁ hw hstale fun e' he' => hon e' (by simp_all)).1
    exact ih h hx₁ hw₁ (lt_of_lt_of_le (show staleWindow.nanos < _ from hstale) hle)
      (fun e' he' => hno e' (by simp [he'])) fun e' he' => hon e' (by simp [he'])

/-- The main loop notices in time for a supervisor tick at `lap`: it ticks more than the stale
window after its last tick before the reading, and the supervisor's last tick before that one is a
whole missing-window earlier than `lap`. -/
def Noticed (x : Threads F) (es : List (Timed F)) (lap : Duration) : Prop :=
  ∃ pre u nowEpoch post, es = pre ++ ⟨u, .mainTick nowEpoch⟩ :: post ∧
    x.mainTimer.last.nanos + staleWindow.nanos < u.nanos ∧
    (lastLap x.xyTimer.last pre).nanos + batteryMissingTimeout.nanos ≤ lap.nanos

/-- After its last update the sensor is missed by the first tick the main loop noticed for. -/
theorem sensorLoss_deadline {time last : Duration} {bat : Ina228Reading F} {i : Iteration F}
    (hs : x.supervisor.state.sourcing = true) (hno : Unrefreshed es)
    (hon : StaysOn (es ++ [⟨time, .iteration i⟩])) (hn : x.Noticed es i.lap)
    (h : x.run (⟨last, .updateBattery bat⟩ :: (es ++ [⟨time, .iteration i⟩])) = .ok y) :
    y.supervisor.state = .tripping ∨ y.supervisor.state = .latched := by
  obtain ⟨pre, u, nowEpoch, post, rfl, hu, hlap⟩ := hn
  simp only [run, step, ok_bind] at h
  obtain ⟨z, hz, h⟩ := run_append h
  obtain ⟨x₁, h₁, hz⟩ := run_append hz
  simp only [run, bind_eq_ok] at hz
  obtain ⟨x₂, h₂, hz⟩ := hz
  have hheard : Unheard x.mainTimer.last { x with data := x.data.updateBattery bat } :=
    Nat.le_add_right _ _
  obtain ⟨hx₁, hl₁, ht₁⟩ := run_unheard h₁ hheard (.inl hs)
    (fun e he => hno e (by simp [he])) fun e he => hon e (by simp [he])
  have hmain : Unrefreshed [⟨u, .mainTick nowEpoch⟩] := fun e he => hno e (by simp_all)
  obtain ⟨hx₂, -⟩ := step_unheard h₂ hx₁ hmain
  obtain ⟨_, he, -⟩ | ⟨_, he, -⟩ | ⟨_, history, -, rfl⟩ | ⟨_, _, _, he, -⟩ := step_cases h₂
  · cases he
  · cases he
  · have hstale := Nat.lt_of_add_lt_add_left (hu.trans_le hx₂)
    have hlast : x₁.xyTimer.last.nanos ≤ (lastLap x.xyTimer.last pre).nanos :=
      (congrArg Duration.nanos ht₁).le
    have hw := hl₁.symm.imp_right fun hs₁ =>
      And.intro hs₁ (hlast.trans (Nat.le_add_right _ x₁.supervisor.batteryMissing.elapsed.nanos))
    obtain ⟨hwz, hstalez⟩ := run_waiting hz hx₂ hw hstale
      (fun e he => hno e (by simp [he])) fun e he => hon e (by simp [he])
    simp only [run, bind_eq_ok] at h
    obtain ⟨y', hy, h⟩ := h
    cases h
    exact (step_waiting hy hwz hstalez fun e he => hon e (by simp_all)).2 i rfl hlap
  · cases he

/-- The events come in order, the supervisor's snapshots before their laps, and its laps at most
`d` apart. -/
def timely (d now xy : ℕ) : List (Timed F) → Bool
  | [] => true
  | e :: es => now ≤ e.time.nanos &&
      match e.event with
      | .iteration i => xy ≤ e.time.nanos && e.time.nanos ≤ i.lap.nanos &&
          i.lap.nanos ≤ xy + d && timely d e.time.nanos i.lap.nanos es
      | _ => timely d e.time.nanos xy es

omit [FloatLike F] in
theorem lastLap_le {d now : ℕ} {xy : Duration} {pre post : List (Timed F)}
    (h : timely d now xy.nanos (pre ++ e :: post) = true) (hxy : xy.nanos ≤ now + d) :
    (lastLap xy pre).nanos ≤ e.time.nanos + d := by
  induction pre generalizing now xy with
  | nil =>
    simp only [List.nil_append, timely, Bool.and_eq_true, decide_eq_true_eq] at h
    have := h.1
    simp only [lastLap, List.foldl_nil]
    omega
  | cons e' pre ih =>
    simp only [List.cons_append, timely, Bool.and_eq_true, decide_eq_true_eq] at h
    obtain ⟨hnow, h⟩ := h
    rw [lastLap_cons]
    rcases he : e'.event with _ | _ | _ | i <;> rw [he] at h
    · exact ih h (hxy.trans (by omega))
    · exact ih h (hxy.trans (by omega))
    · exact ih h (hxy.trans (by omega))
    · simp only [Bool.and_eq_true, decide_eq_true_eq] at h
      exact ih h.2 (h.1.2.trans (by omega))

omit [FloatLike F] in
/-- A main loop that ticks soon after the reading went stale notices in time for every supervisor
tick past the two windows and two of its periods. -/
theorem noticed_of_prompt {d : ℕ} {last u lap : Duration} {nowEpoch : Option ℕ}
    (ht : timely d last.nanos x.xyTimer.last.nanos es = true)
    (hxy : x.xyTimer.last.nanos ≤ last.nanos + d) (hu : ⟨u, .mainTick nowEpoch⟩ ∈ es)
    (hstale : x.mainTimer.last.nanos + staleWindow.nanos < u.nanos)
    (hprompt : u.nanos ≤ last.nanos + staleWindow.nanos + d)
    (hlap : last.nanos + staleWindow.nanos + batteryMissingTimeout.nanos + 2 * d ≤ lap.nanos) :
    x.Noticed es lap := by
  obtain ⟨pre, post, rfl⟩ := List.append_of_mem hu
  have := lastLap_le ht hxy
  exact ⟨pre, u, nowEpoch, post, rfl, hstale, by simp only [] at this; omega⟩

end Threads

end Missing

section Stall

namespace Threads

/-- A healthy poll of a buck on at the float target. -/
def onIteration (lap : Duration) : Iteration Float32 where
  setpoints := some { vSet := 13.5, iSet := 10.0 }
  output := some .on
  packTempC := none
  lap
  commit := true
  drain := 1

/-- Supervisor iterations after `t`, a second apart. -/
def iterations (t : Duration) : ℕ → List (Timed Float32)
  | 0 => []
  | n + 1 =>
    ⟨t.saturatingAdd (.fromSecs 1), .iteration (onIteration (t.saturatingAdd (.fromSecs 1)))⟩ ::
      iterations (t.saturatingAdd (.fromSecs 1)) n

theorem event_of_mem_iterations {t : Duration} {n : ℕ} {e : Timed Float32}
    (h : e ∈ iterations t n) : ∃ lap, e.event = .iteration (onIteration lap) := by
  induction n generalizing t with
  | zero => cases h
  | succ n ih =>
    rcases List.mem_cons.1 h with rfl | h
    · exact ⟨_, rfl⟩
    · exact ih h

theorem unrefreshed_iterations (t : Duration) (n : ℕ) : Unrefreshed (iterations t n) := by
  intro e he bat hbat
  obtain ⟨lap, hlap⟩ := event_of_mem_iterations he
  rw [hlap] at hbat
  cases hbat

theorem staysOn_iterations (t : Duration) (n : ℕ) : StaysOn (iterations t n) := by
  intro e he i hi cause
  obtain ⟨lap, hlap⟩ := event_of_mem_iterations he
  rw [hlap] at hi
  cases hi
  simp [onIteration]

def bootThreads : Threads Float32 where
  data := .new
  supervisor := bootSupervisor .absent
  mainTimer := ⟨.zero⟩
  xyTimer := ⟨.zero⟩

/-- A full pack at rest. -/
def fullReading : Ina228Reading Float32 := ⟨13.5, -0.1, 1.35⟩

/-- The buck brought up on a first reading. -/
def bringUp : List (Timed Float32) :=
  [⟨.zero, .updateBattery fullReading⟩,
    ⟨.fromSecs 1, .iteration { onIteration (.fromSecs 1) with output := some (.off .normal) }⟩]

def liveThreads : Threads Float32 := (bootThreads.run bringUp).toOption.getD bootThreads

/-- The supervisor iterates each second, and the main loop ticks at seven. -/
def promptEvents : List (Timed Float32) :=
  iterations (.fromSecs 1) 6 ++ ⟨.fromSecs 7, .mainTick none⟩ :: iterations (.fromSecs 7) 10

theorem mem_promptEvents {e : Timed Float32} (h : e ∈ promptEvents) :
    e = ⟨.fromSecs 7, .mainTick none⟩ ∨ ∃ lap, e.event = .iteration (onIteration lap) := by
  rcases List.mem_append.1 h with h | h
  · exact .inr (event_of_mem_iterations h)
  · rcases List.mem_cons.1 h with h | h
    · exact .inl h
    · exact .inr (event_of_mem_iterations h)

theorem sensorLoss_noticed : ∃ y,
    liveThreads.run (⟨.fromSecs 1, .updateBattery fullReading⟩ :: (promptEvents ++
      [⟨.fromSecs 18, .iteration (onIteration (.fromSecs 18))⟩])) = .ok y ∧
    (y.supervisor.state = .tripping ∨ y.supervisor.state = .latched) := by
  let run := liveThreads.run (⟨.fromSecs 1, .updateBattery fullReading⟩ :: (promptEvents ++
    [⟨.fromSecs 18, .iteration (onIteration (.fromSecs 18))⟩]))
  have hrun : run = .ok (run.toOption.getD liveThreads) := rfl
  have htimely : timely 1000000000 (Duration.fromSecs 1).nanos liveThreads.xyTimer.last.nanos
      promptEvents = true := rfl
  have hmain : ⟨.fromSecs 7, .mainTick none⟩ ∈ promptEvents :=
    List.mem_append_right _ List.mem_cons_self
  refine ⟨_, hrun, sensorLoss_deadline rfl ?_ ?_ ?_ hrun⟩
  · intro e he bat hbat
    rcases mem_promptEvents he with rfl | ⟨lap, hlap⟩
    · cases hbat
    · rw [hlap] at hbat
      cases hbat
  · intro e he i hi cause
    rcases List.mem_append.1 he with he | he
    · rcases mem_promptEvents he with rfl | ⟨lap, hlap⟩
      · cases hi
      · rw [hlap] at hi
        cases hi
        simp [onIteration]
    · rw [List.mem_singleton.1 he] at hi
      cases hi
      simp [onIteration]
  · exact noticed_of_prompt htimely (by decide) hmain (by decide)
      (by decide) (by decide)

/-- While the main loop is held up the supervisor goes on sourcing on the last reading, a minute
after it here. -/
theorem sensorLoss_stalled : ∃ y, bootThreads.run bringUp = .ok liveThreads ∧
    liveThreads.supervisor.state = .float ∧ fullReading.isFinite = true ∧
    timely 1000000000 (Duration.fromSecs 1).nanos liveThreads.xyTimer.last.nanos
      (iterations (.fromSecs 1) 60) = true ∧
    Unrefreshed (iterations (.fromSecs 1) 60) ∧ StaysOn (iterations (.fromSecs 1) 60) ∧
    liveThreads.run (⟨.fromSecs 1, .updateBattery fullReading⟩ :: iterations (.fromSecs 1) 60)
      = .ok y ∧
    y.xyTimer.last = .fromSecs 61 ∧ y.supervisor.state = .float := by
  let run := liveThreads.run (⟨.fromSecs 1, .updateBattery fullReading⟩ ::
    iterations (.fromSecs 1) 60)
  exact ⟨run.toOption.getD liveThreads, rfl, rfl, rfl,
    by decide +kernel, unrefreshed_iterations _ _, staysOn_iterations _ _, by decide +kernel,
    by decide +kernel, by decide +kernel⟩

end Threads

end Stall

end Esp32Battery
