import Esp32Battery.Proofs.Deadlines
import Esp32Battery.Proofs.SensorLoss

/-!
# Hazards across the threads

What the sensor goes on showing is acted on however long the main loop is held up. A main-loop
iteration that took too long makes a fresh reading stale, and the supervisor ticks without one
until the next is published. Its window then stands still for a bounded time, and that cannot
happen twice within the staleness window.
-/

namespace Esp32Battery

open Lib Automaton

section Hazard

variable {F : Type} [FloatLike F]

namespace ChargeSupervisor

/-- A window that a sourcing turn charges on a `bad` sample and keeps over a missing one, until it
is `done`. -/
structure Guards (window : ChargeSupervisor F → Debounce) (timeout : Duration)
    (bad : Profile F → BatterySample F → Prop) (done : ChargeSupervisor F → Prop) : Prop where
  stays : ∀ {s i a s'}, done s → s.turn i = .ok (a, s') → done s'
  charges : ∀ {s i a s' b}, s.state.sourcing = true →
    (∀ cause, i.poll.output ≠ some (.off cause)) → i.poll.usableBattery = some b →
    bad s.profile b → s.turn i = .ok (a, s') → Charges window timeout done s i s'
  waits : ∀ {s i a s'}, s.state.sourcing = true → (∀ cause, i.poll.output ≠ some (.off cause)) →
    i.poll.usableBattery = none → s.turn i = .ok (a, s') →
    done s' ∨ s'.state.sourcing = true ∧ window s' = window s

def Overvolts (profile : Profile F) (b : BatterySample F) : Prop :=
  profile.absorbV + ovMarginV < b.voltage

def Overdraws (profile : Profile F) (b : BatterySample F) : Prop :=
  profile.regulationA * overcurrentTol < b.chargingA

theorem turn_unsampled {s s' : ChargeSupervisor F} {i : Input F} {a : Action F}
    (hs : s.state.sourcing = true) (ho : ∀ cause, i.poll.output ≠ some (.off cause))
    (hb : i.poll.usableBattery = none) (h : s.turn i = .ok (a, s')) :
    Terminal s'.state ∨
      s'.state.sourcing = true ∧ s'.ov = s.ov ∧ s'.overcurrent = s.overcurrent := by
  rcases turn_untripped hs ho h with ht | hu
  · exact .inl ht
  cases hu with
  | noSample _ _ _ _ _ hw =>
    exact (turn_sourcing hs ho h).symm.imp_right fun hs' => ⟨hs', hw.ov, hw.overcurrent⟩
  | parks b hsam | regulates b hsam => cases hb.symm.trans hsam.battery

theorem guards_ov : Guards (F := F) ov ovDuration Overvolts fun s => Terminal s.state where
  stays ht h := (turn_terminal h ht).1
  charges hs ho hb hv h := turn_ov hs ho hb (decide_eq_true hv) h
  waits hs ho hb h := (turn_unsampled hs ho hb h).imp_right fun ⟨hs', hov, _⟩ => ⟨hs', hov⟩

theorem guards_overcurrent : Guards (F := F) overcurrent overcurrentDuration Overdraws
    fun s => Terminal s.state ∨ s.fault.isSome = true where
  stays hd h := hd.imp (fun ht => (turn_terminal h ht).1) (turn_faulted h)
  charges hs ho hb hc h := turn_overcurrent_charges hs ho hb (decide_eq_true hc) h
  waits hs ho hb h := (turn_unsampled hs ho hb h).imp .inl fun ⟨hs', _, hoc⟩ => ⟨hs', hoc⟩

end ChargeSupervisor

namespace Threads

open ChargeSupervisor

variable {x y : Threads F} {e : Timed F} {es : List (Timed F)} {p d m : ℕ}

/-- The events come in order, none more than `p` after the last reading that was accepted or `d`
after the supervisor's last lap, and its laps are at most `d` apart. -/
def paced (p d now accepted xy : ℕ) : List (Timed F) → Bool
  | [] => true
  | e :: es => now ≤ e.time.nanos && e.time.nanos ≤ accepted + p && e.time.nanos ≤ xy + d &&
      match e.event with
      | .updateBattery bat =>
        paced p d e.time.nanos (if bat.isFinite then e.time.nanos else accepted) xy es
      | .iteration i => xy ≤ e.time.nanos && e.time.nanos ≤ i.lap.nanos &&
          i.lap.nanos ≤ xy + d && paced p d e.time.nanos accepted i.lap.nanos es
      | _ => paced p d e.time.nanos accepted xy es

/-- What every turn of the supervisor keeps, every run of the threads keeps. -/
theorem run_supervisor {P : ChargeSupervisor F → Prop}
    (hP : ∀ {s i a s'}, P s → s.turn i = .ok (a, s') → P s') (hx : P x.supervisor)
    (h : x.run es = .ok y) : P y.supervisor := by
  induction es generalizing x with
  | nil =>
    cases h
    exact hx
  | cons e es ih =>
    simp only [run, bind_eq_ok] at h
    obtain ⟨x₁, h₁, h⟩ := h
    refine ih ?_ h
    obtain ⟨_, -, rfl⟩ | ⟨_, -, rfl⟩ | ⟨_, _, -, rfl⟩ | ⟨i, a, supervisor, -, ht, rfl⟩ :=
      step_cases h₁
    · exact hx
    · exact hx
    · exact hx
    · exact hP hx ht

/-- Every reading of the list that is accepted is `bad`. -/
def ShowsOnly (bad : BatterySample F → Prop) (es : List (Timed F)) : Prop :=
  ∀ e ∈ es, ∀ bat, e.event = .updateBattery bat → bat.isFinite = true →
    bad ⟨bat.voltage, bat.current⟩

theorem input_battery {bat : Ina228Reading F} (i : Iteration F)
    (hlatest : x.data.latestBattery = some bat) (hfin : bat.isFinite = true)
    (hfresh : x.data.batteryStale.nanos ≤ staleWindow.nanos) :
    (x.input i).poll.usableBattery = some ⟨bat.voltage, bat.current⟩ := by
  have hread : x.data.batteryReading = some bat := by
    rw [SensorData.batteryReading, hlatest]
    exact if_neg (Nat.not_lt.2 hfresh)
  unfold Ina228Reading.isFinite at hfin
  simp only [Bool.and_eq_true] at hfin
  simp only [input, SensorData.snapshot, hread, PollResult.usableBattery, Option.map_some]
  exact Option.filter_eq_some_iff.2 ⟨rfl, by simp [hfin.1.1, hfin.1.2]⟩

theorem input_unsampled (i : Iteration F)
    (hstale : staleWindow.nanos < x.data.batteryStale.nanos) :
    (x.input i).poll.usableBattery = none := by
  have hread : x.data.batteryReading = none := if_pos hstale
  simp only [input, SensorData.snapshot, hread, PollResult.usableBattery]
  rfl

section Ledger

variable {window : ChargeSupervisor F → Debounce} {timeout : Duration}
  {bad : Profile F → BatterySample F → Prop} {done : ChargeSupervisor F → Prop}
  {start since now accepted acc gaps : ℕ}

/-- How a reading of this age stands at a main-loop tick: fresh, with a staleness window since each
gap before it; or in a gap, begun when no more than is left to it was not charged. -/
inductive Standing (p d start since acc accepted age tick : ℕ) : ℕ → Prop
  | fresh (n : ℕ) : age ≤ staleWindow.nanos →
      (n = 0 ∨ since + n * staleWindow.nanos + age ≤ tick + staleWindow.nanos) →
      Standing p d start since acc accepted age tick n
  | stale (n began : ℕ) : staleWindow.nanos < age → accepted ≤ began →
      since + n * staleWindow.nanos ≤ began → began ≤ tick →
      began ≤ start + acc + n * (p + 2 * d) + d →
      Standing p d start since acc accepted age tick (n + 1)

/-- Of the supervisor's time since `start`, all but `gaps` has charged the window. -/
structure Ledger (window : ChargeSupervisor F → Debounce) (timeout : Duration)
    (bad : Profile F → BatterySample F → Prop) (p d m start since now accepted acc gaps : ℕ)
    (x : Threads F) : Prop where
  sourcing : x.supervisor.state.sourcing = true
  latest : ∃ bat, x.data.latestBattery = some bat ∧ bat.isFinite = true ∧
    bad x.supervisor.profile ⟨bat.voltage, bat.current⟩
  main_le : x.mainTimer.last.nanos ≤ now
  since_le : since ≤ now
  accepted_le : accepted ≤ now
  short : acc < timeout.nanos
  charged : acc ≤ (window x.supervisor).elapsed.nanos
  lap_le : x.xyTimer.last.nanos ≤ start + acc + gaps * (p + 2 * d)
  gaps_le : gaps ≤ m
  standing : Standing p d start since acc accepted x.data.batteryStale.nanos
    x.mainTimer.last.nanos gaps

variable (hx : Ledger window timeout bad p d m start since now accepted acc gaps x)

include hx

theorem Ledger.later {t : ℕ} (ht : now ≤ t) :
    Ledger window timeout bad p d m start since t accepted acc gaps x :=
  { hx with
    main_le := hx.main_le.trans ht
    since_le := hx.since_le.trans ht
    accepted_le := hx.accepted_le.trans ht }

/-- A reading that is accepted ends a gap. -/
theorem Ledger.update {bat : Ina228Reading F} {t : ℕ} (ht : now ≤ t)
    (hb : bat.isFinite = true → bad x.supervisor.profile ⟨bat.voltage, bat.current⟩) :
    Ledger window timeout bad p d m start since t (if bat.isFinite then t else accepted) acc gaps
      { x with data := x.data.updateBattery bat } := by
  unfold SensorData.updateBattery
  split_ifs with hfin
  · refine { hx.later ht with
      latest := ⟨bat, rfl, hfin, hb hfin⟩
      accepted_le := le_rfl
      standing := .fresh _ (Nat.zero_le _) ?_ }
    cases hx.standing with
    | fresh n _ hn => exact hn.imp_right fun hn => (Nat.add_le_add_left (Nat.zero_le _) _).trans hn
    | stale n began _ _ hsince hmain =>
      refine .inr ?_
      change since + (n + 1) * staleWindow.nanos + 0 ≤ x.mainTimer.last.nanos + staleWindow.nanos
      rw [Nat.succ_mul]
      omega
  · exact hx.later ht

/-- A main-loop iteration may begin a gap: the next one, and in time for it. -/
theorem Ledger.tick {t : Duration} {history : History F} (ht : now ≤ t.nanos)
    (hxy : t.nanos ≤ x.xyTimer.last.nanos + d)
    (hm : timeout.nanos + d + m * (p + 2 * d) ≤ m * staleWindow.nanos) (hstart : start ≤ since) :
    ∃ gaps', Ledger window timeout bad p d m start since t.nanos accepted acc gaps' { x with
      data := { x.data with
        batteryStale := x.data.batteryStale.saturatingAdd (x.mainTimer.lap t).1
        psStale := x.data.psStale.saturatingAdd (x.mainTimer.lap t).1
        history }
      mainTimer := ⟨t⟩ } := by
  have hmain := hx.main_le
  have hsince := hx.since_le
  have haccepted := hx.accepted_le
  have hshort := hx.short
  have hlap := hx.lap_le
  have hgaps := hx.gaps_le
  have haged := Duration.nanos_saturatingAdd x.data.batteryStale (x.mainTimer.lap t).1
  rw [LoopTimer.nanos_lap] at haged
  cases hx.standing with
  | fresh _ _ hn =>
    by_cases hfresh : (x.data.batteryStale.saturatingAdd (x.mainTimer.lap t).1).nanos
        ≤ staleWindow.nanos
    · refine ⟨gaps, { hx.later ht with
        main_le := le_rfl
        standing := .fresh _ hfresh (hn.imp_right fun hn => ?_) }⟩
      change _ + _ + (x.data.batteryStale.saturatingAdd (x.mainTimer.lap t).1).nanos ≤ t.nanos + _
      omega
    · have hspaced : since + gaps * staleWindow.nanos ≤ t.nanos := by
        rcases hn with rfl | hn
        · rw [Nat.zero_mul]
          exact hsince.trans ht
        · omega
      have hnext : gaps < m := by
        rcases hgaps.lt_or_eq with h | rfl
        · exact h
        · omega
      refine ⟨gaps + 1, { hx.later ht with
        main_le := le_rfl
        lap_le := hlap.trans (Nat.add_le_add_left (Nat.mul_le_mul_right _ (Nat.le_succ _)) _)
        gaps_le := hnext
        standing := .stale _ t.nanos (not_le.1 hfresh) (haccepted.trans ht) hspaced le_rfl
          (by omega) }⟩
  | stale n began hstale hacc hspaced htick hleft =>
    refine ⟨n + 1, { hx.later ht with
      main_le := le_rfl
      standing := .stale n began ?_ hacc hspaced (by simp only []; omega) hleft }⟩
    have hmax := staleWindow.nanos_le
    have := x.data.batteryStale.nanos_le
    change _ < (x.data.batteryStale.saturatingAdd (x.mainTimer.lap t).1).nanos
    omega

/-- A tick of the supervisor charges its window, or counts into the gap it falls in. -/
theorem Ledger.iteration {i : Iteration F} {a : Action F} {supervisor : ChargeSupervisor F} {t : ℕ}
    (hG : Guards window timeout bad done) (ht : now ≤ t) (hread : t ≤ accepted + p)
    (hfrom : x.xyTimer.last.nanos ≤ t) (hlap : t ≤ i.lap.nanos)
    (hd : i.lap.nanos ≤ x.xyTimer.last.nanos + d)
    (hon : ∀ cause, i.output ≠ some (.off cause))
    (h : x.supervisor.turn (x.input i) = .ok (a, supervisor)) :
    done supervisor ∨ ∃ acc', Ledger window timeout bad p d m start since t accepted acc' gaps
      { x with supervisor, xyTimer := ⟨i.lap⟩ } := by
  have hprof := (SameBoard.of_turn h).profile
  have hle := hx.lap_le
  obtain ⟨bat, hlatest, hfin, hbad⟩ := hx.latest
  cases hx.standing with
  | fresh _ hfresh hn =>
    have hb := input_battery i hlatest hfin hfresh
    rcases (hG.charges hx.sourcing hon hb hbad h).le hx.charged with hdone | ⟨hs, hshort, hcharged⟩
    · exact .inl hdone
    have he : (x.input i).elapsed.nanos = i.lap.nanos - x.xyTimer.last.nanos := rfl
    refine .inr ⟨acc + (x.input i).elapsed.nanos, { hx.later ht with
      sourcing := hs
      latest := ⟨bat, hlatest, hfin, by rw [hprof]; exact hbad⟩
      short := hshort
      charged := hcharged
      lap_le := by simp only []; omega
      standing := .fresh _ hfresh hn }⟩
  | stale n began hstale hacc hspaced htick hleft =>
    have hb := input_unsampled i hstale
    refine (hG.waits hx.sourcing hon hb h).imp_right fun ⟨hs, hw⟩ => ⟨acc, { hx.later ht with
      sourcing := hs
      latest := ⟨bat, hlatest, hfin, by rw [hprof]; exact hbad⟩
      charged := by rw [hw]; exact hx.charged
      lap_le := by rw [Nat.succ_mul n (p + 2 * d)]; simp only []; omega
      standing := .stale n began hstale hacc hspaced htick hleft }⟩

theorem Ledger.step (hG : Guards window timeout bad done) (hp : paced p d now accepted
      x.xyTimer.last.nanos (e :: es) = true) (hb : ShowsOnly (bad x.supervisor.profile) [e])
    (hon : StaysOn [e]) (hm : timeout.nanos + d + m * (p + 2 * d) ≤ m * staleWindow.nanos)
    (hstart : start ≤ since) (h : x.step e = .ok y) :
    done y.supervisor ∨ ∃ accepted acc gaps,
      paced p d e.time.nanos accepted y.xyTimer.last.nanos es = true ∧
      y.supervisor.profile = x.supervisor.profile ∧
      Ledger window timeout bad p d m start since e.time.nanos accepted acc gaps y := by
  simp only [paced, Bool.and_eq_true, decide_eq_true_eq] at hp
  obtain ⟨⟨⟨hnow, hread⟩, hxy⟩, hp⟩ := hp
  obtain ⟨bat, he, rfl⟩ | ⟨ps, he, rfl⟩ | ⟨nowEpoch, history, he, rfl⟩ |
    ⟨i, a, supervisor, he, ht, rfl⟩ := step_cases h <;> rw [he] at hp
  · exact .inr ⟨_, acc, gaps, hp, rfl, hx.update hnow (hb e (List.mem_singleton_self e) bat he)⟩
  · refine .inr ⟨accepted, acc, gaps, hp, rfl, ?_⟩
    unfold SensorData.updatePs
    split_ifs
    · exact { hx.later hnow with }
    · exact hx.later hnow
  · obtain ⟨gaps', hy⟩ := hx.tick hnow hxy hm hstart
    exact .inr ⟨accepted, acc, gaps', hp, rfl, hy⟩
  · simp only [Bool.and_eq_true, decide_eq_true_eq] at hp
    obtain ⟨⟨⟨hfrom, hlap⟩, hd⟩, hp⟩ := hp
    refine (hx.iteration hG hnow hread hfrom hlap hd
      (hon e (List.mem_singleton_self e) i he) ht).imp_right fun ⟨acc', hy⟩ =>
        ⟨accepted, acc', gaps, hp, (SameBoard.of_turn ht).profile, hy⟩

theorem Ledger.run (hG : Guards window timeout bad done)
    (hp : paced p d now accepted x.xyTimer.last.nanos es = true)
    (hb : ShowsOnly (bad x.supervisor.profile) es) (hon : StaysOn es)
    (hm : timeout.nanos + d + m * (p + 2 * d) ≤ m * staleWindow.nanos) (hstart : start ≤ since)
    (h : x.run es = .ok y) :
    done y.supervisor ∨ y.xyTimer.last.nanos < start + timeout.nanos + m * (p + 2 * d) := by
  induction es generalizing x now accepted acc gaps with
  | nil =>
    cases h
    have := Nat.mul_le_mul_right (p + 2 * d) hx.gaps_le
    have := hx.lap_le
    have := hx.short
    exact .inr (by omega)
  | cons e es ih =>
    simp only [Threads.run, bind_eq_ok] at h
    obtain ⟨x₁, h₁, h⟩ := h
    rcases hx.step hG hp (fun e' he => hb e' (by simp_all)) (fun e' he => hon e' (by simp_all)) hm
      hstart h₁ with hd | ⟨accepted', acc', gaps', hp', hprof, hx₁⟩
    · exact .inl (run_supervisor hG.stays hd h)
    · exact ih hx₁ hp' (fun e' he => by rw [hprof]; exact hb e' (List.mem_cons_of_mem _ he))
        (fun e' he => hon e' (List.mem_cons_of_mem _ he)) h

end Ledger

theorem hazard_noticed {window : ChargeSupervisor F → Debounce} {timeout : Duration}
    {bad : Profile F → BatterySample F → Prop} {done : ChargeSupervisor F → Prop} {u : Duration}
    {bat : Ina228Reading F} (hG : Guards window timeout bad done) (hpos : 0 < timeout.nanos)
    (hs : x.supervisor.state.sourcing = true) (hfin : bat.isFinite = true)
    (hmain : x.mainTimer.last ≤ u) (hxy : x.xyTimer.last ≤ u)
    (hp : paced p d u.nanos u.nanos x.xyTimer.last.nanos es = true) (hon : StaysOn es)
    (hb : ShowsOnly (bad x.supervisor.profile) (⟨u, .updateBattery bat⟩ :: es))
    (h : x.run (⟨u, .updateBattery bat⟩ :: es) = .ok y)
    (hm : timeout.nanos + d + m * (p + 2 * d) ≤ m * staleWindow.nanos)
    (hlap : x.xyTimer.last.nanos + timeout.nanos + m * (p + 2 * d) ≤ y.xyTimer.last.nanos) :
    done y.supervisor := by
  simp only [run, step, ok_bind] at h
  have hx : Ledger window timeout bad p d m x.xyTimer.last.nanos u.nanos u.nanos u.nanos 0 0
      { x with data := x.data.updateBattery bat } := by
    rw [SensorData.updateBattery, if_pos hfin]
    exact {
      sourcing := hs
      latest := ⟨bat, rfl, hfin, hb _ List.mem_cons_self bat rfl hfin⟩
      main_le := hmain
      since_le := le_rfl
      accepted_le := le_rfl
      short := hpos
      charged := Nat.zero_le _
      lap_le := Nat.le_add_right _ _
      gaps_le := Nat.zero_le _
      standing := .fresh 0 (Nat.zero_le _) (.inl rfl) }
  exact (hx.run hG hp (fun e he => hb e (List.mem_cons_of_mem _ he)) hon hm hxy h).resolve_right
    (Nat.not_lt.2 hlap)

/-- However long the iterations of the main loop take, a pack that every reading shows over the
voltage line has the buck given up on, and one that every reading shows over the current line has a
fault raised. -/
theorem hazards_noticed {u : Duration} {bat : Ina228Reading F} (hreach : x.supervisor.Reachable)
    (hs : x.supervisor.state.sourcing = true) (hfin : bat.isFinite = true)
    (hmain : x.mainTimer.last ≤ u) (hxy : x.xyTimer.last ≤ u)
    (hp : paced p d u.nanos u.nanos x.xyTimer.last.nanos es = true) (hon : StaysOn es)
    (h : x.run (⟨u, .updateBattery bat⟩ :: es) = .ok y) :
    (ShowsOnly (Overvolts x.supervisor.profile) (⟨u, .updateBattery bat⟩ :: es) →
      ∀ m, ovDuration.nanos + d + m * (p + 2 * d) ≤ m * staleWindow.nanos →
        x.xyTimer.last.nanos + ovDuration.nanos + m * (p + 2 * d) ≤ y.xyTimer.last.nanos →
        y.supervisor.state = .tripping ∨ y.supervisor.state = .latched) ∧
    (ShowsOnly (Overdraws x.supervisor.profile) (⟨u, .updateBattery bat⟩ :: es) →
      ∀ m, overcurrentDuration.nanos + d + m * (p + 2 * d) ≤ m * staleWindow.nanos →
        x.xyTimer.last.nanos + overcurrentDuration.nanos + m * (p + 2 * d) ≤
          y.xyTimer.last.nanos →
        y.supervisor.fault.isSome = true) := by
  refine ⟨fun hb m hm hlap => ?_, fun hb m hm hlap => ?_⟩
  · exact hazard_noticed guards_ov (by decide) hs hfin hmain hxy hp hon hb h hm hlap
  · rcases hazard_noticed guards_overcurrent (by decide) hs hfin hmain hxy hp hon hb h hm hlap
      with ht | hf
    · rw [(run_supervisor .turn hreach h).fault_iff]
      rcases ht with ht | ht <;> rw [ht] <;> decide
    · exact hf

end Threads

end Hazard

namespace Threads

/-- An overvoltage that is read each second, the main loop held up for the first seven. -/
def highReading : Ina228Reading Float32 := ⟨15.0, -0.1, 1.5⟩

def heldUp : List (Timed Float32) :=
  [2, 3, 4, 5, 6, 7].flatMap (fun t =>
    [⟨.fromSecs t, .updateBattery highReading⟩,
      ⟨.fromSecs t, .iteration (onIteration (.fromSecs t))⟩]) ++
    [⟨.fromSecs 7, .mainTick none⟩] ++
    [8, 9, 10].flatMap fun t =>
      [⟨.fromSecs t, .updateBattery highReading⟩,
        ⟨.fromSecs t, .iteration (onIteration (.fromSecs t))⟩]

theorem event_of_mem_heldUp {e : Timed Float32} (h : e ∈ heldUp) :
    e.event = .updateBattery highReading ∨ (∃ lap, e.event = .iteration (onIteration lap)) ∨
      e.event = .mainTick none := by
  have heach : ∀ {ts : List UInt64}, e ∈ ts.flatMap (fun t =>
      [⟨.fromSecs t, .updateBattery highReading⟩,
        ⟨.fromSecs t, .iteration (onIteration (.fromSecs t))⟩]) →
      e.event = .updateBattery highReading ∨ ∃ lap, e.event = .iteration (onIteration lap) := by
    intro ts he
    obtain ⟨t, -, he⟩ := List.mem_flatMap.1 he
    rcases List.mem_cons.1 he with rfl | he
    · exact .inl rfl
    · rw [List.mem_singleton.1 he]
      exact .inr ⟨_, rfl⟩
  rcases List.mem_append.1 h with h | h
  · rcases List.mem_append.1 h with h | h
    · exact (heach h).imp_right .inl
    · rw [List.mem_singleton.1 h]
      exact .inr (.inr rfl)
  · exact (heach h).imp_right .inl

theorem hazards_noticed_heldUp : ∃ y,
    liveThreads.run (⟨.fromSecs 1, .updateBattery highReading⟩ :: heldUp) = .ok y ∧
      (y.supervisor.state = .tripping ∨ y.supervisor.state = .latched) := by
  let run := liveThreads.run (⟨.fromSecs 1, .updateBattery highReading⟩ :: heldUp)
  have hrun : run = .ok (run.toOption.getD liveThreads) := by decide +kernel
  have hlive : bootThreads.run bringUp = .ok liveThreads := rfl
  have hpaced : paced 1000000000 1000000000 (Duration.fromSecs 1).nanos (Duration.fromSecs 1).nanos
      liveThreads.xyTimer.last.nanos heldUp = true := by decide +kernel
  have hon : StaysOn heldUp := by
    intro e he i hi cause
    obtain h | ⟨lap, h⟩ | h := event_of_mem_heldUp he <;> rw [hi] at h <;> cases h
    simp [onIteration]
  have hhigh : ChargeSupervisor.Overvolts liveThreads.supervisor.profile
      ⟨highReading.voltage, highReading.current⟩ := by
    unfold ChargeSupervisor.Overvolts
    decide +kernel
  refine ⟨_, hrun, (hazards_noticed (run_supervisor .turn (bootSupervisor_reachable .absent) hlive)
    rfl (by decide +kernel) (by decide +kernel) (by decide +kernel) hpaced hon hrun).1 ?_ 2
    (by decide) (by decide +kernel)⟩
  intro e he bat hbat _
  rcases List.mem_cons.1 he with rfl | he
  · cases hbat
    exact hhigh
  · obtain h | ⟨lap, h⟩ | h := event_of_mem_heldUp he <;> rw [hbat] at h <;> cases h
    exact hhigh

end Threads

end Esp32Battery
