import Esp32Battery.Proofs.SensorLoss

/-!
# How fresh a committed reading is

Accepting a reading empties its clock, and the next tick charges it with the whole time since the
tick before, the part that lies before the acceptance included. So a reading is as old as the last
tick that came before it, and a tick that comes late makes readings stale that are not.
-/

namespace Esp32Battery

open Lib

/-- A reading the store accepted: when, and when the store was last ticked before it. -/
structure Accepted (R : Type) where
  reading : R
  time : Duration
  ticked : Duration

namespace Accepted

variable {R : Type}

def fresh (a : Accepted R) (t : Duration) : Bool := t.nanos - a.time.nanos ≤ staleWindow.nanos

/-- What the store takes for fresh. -/
def counted (a : Accepted R) (t : Duration) : Bool := t.nanos - a.ticked.nanos ≤ staleWindow.nanos

/-- A fresh reading at `t` that the store takes for stale. -/
def Outcounted (a : Accepted R) (t : Duration) : Prop := a.fresh t = true ∧ a.counted t = false

end Accepted

/-- What the calls on the store so far come to. -/
structure Ledger (F : Type) where
  lastTick : Duration
  battery : Option (Accepted (Ina228Reading F))
  ps : Option (Accepted (PsReading F))

section Follows

variable {R : Type} {lastTick now t : Duration} {o : Option (Accepted R)} {latest : Option R}
  {stale : Duration}

/-- A reading of the store and its clock, against the reading last accepted. -/
structure Follows (lastTick now : Duration) (o : Option (Accepted R)) (latest : Option R)
    (stale : Duration) : Prop where
  latest : latest = o.map Accepted.reading
  ticked : ∀ a ∈ o, a.ticked.nanos ≤ a.time.nanos ∧ a.time.nanos ≤ now.nanos ∧
    a.ticked.nanos ≤ lastTick.nanos
  stale : ∀ a ∈ o, stale.nanos = lastTick.nanos - a.ticked.nanos

theorem Follows.later (h : Follows lastTick now o latest stale) (hle : now.nanos ≤ t.nanos) :
    Follows lastTick t o latest stale :=
  ⟨h.latest, fun a ha => ⟨(h.ticked a ha).1, (h.ticked a ha).2.1.trans hle, (h.ticked a ha).2.2⟩,
    h.stale⟩

theorem Follows.accept {r : R} (hle : lastTick.nanos ≤ t.nanos) :
    Follows lastTick t (some ⟨r, t, lastTick⟩) (some r) .zero := by
  refine ⟨rfl, ?_, ?_⟩
  · rintro a ⟨⟩
    exact ⟨hle, le_rfl, le_rfl⟩
  · rintro a ⟨⟩
    simp

theorem Follows.tick (h : Follows lastTick now o latest stale)
    (htick : lastTick.nanos ≤ now.nanos) (hle : now.nanos ≤ t.nanos) :
    Follows t t o latest (stale.saturatingAdd (LoopTimer.lap ⟨lastTick⟩ t).1) := by
  have ht := t.nanos_le
  refine ⟨h.latest, fun a ha => ?_, fun a ha => ?_⟩
  · obtain ⟨h₁, h₂, h₃⟩ := h.ticked a ha
    exact ⟨h₁, h₂.trans hle, h₃.trans (htick.trans hle)⟩
  · have hticked := (h.ticked a ha).2.2
    rw [Duration.nanos_saturatingAdd, LoopTimer.nanos_lap, h.stale a ha]
    show min (lastTick.nanos - a.ticked.nanos + (t.nanos - lastTick.nanos)) maxNanos = _
    omega

theorem Follows.reading (h : Follows t t o latest stale) :
    (if staleWindow < stale then none else latest)
      = (o.filter fun a => a.counted t).map Accepted.reading := by
  rcases o with _ | a
  · simp [h.latest]
  · have hs := h.stale a rfl
    rw [h.latest, Option.filter_some]
    unfold Accepted.counted
    rw [← hs]
    by_cases hw : staleWindow < stale
    · have hnot : ¬ stale.nanos ≤ staleWindow.nanos := Nat.not_le.2 hw
      simp [hw, hnot]
    · have hle : stale.nanos ≤ staleWindow.nanos := Nat.not_lt.1 hw
      simp [hw, hle]

theorem Follows.fresh (h : Follows lastTick now o latest stale) :
    ∀ a ∈ o, a.counted t = true → a.fresh t = true := by
  intro a ha hcounted
  have hticked := (h.ticked a ha).1
  unfold Accepted.counted at hcounted
  unfold Accepted.fresh
  rw [decide_eq_true_eq] at hcounted ⊢
  omega

/-- A field that falls back to `zero` shows the fresh reading unless the reading is outcounted, and
not `zero` there. -/
theorem elim_counted_iff {α : Type} {zero : α} {f : R → α}
    (h : ∀ a ∈ o, a.counted t = true → a.fresh t = true) :
    ((o.filter fun a => a.counted t).map Accepted.reading).elim zero f
        = ((o.filter fun a => a.fresh t).map Accepted.reading).elim zero f ↔
      ∀ a ∈ o, a.Outcounted t → f a.reading = zero := by
  rcases o with _ | a
  · simp
  · have hsub := h a rfl
    unfold Accepted.Outcounted
    rcases hc : a.counted t with _ | _ <;> rcases hf : a.fresh t with _ | _
    · simp [Option.filter_some, hc, hf]
    · simp only [Option.filter_some, hc, hf, Bool.false_eq_true, if_false, if_true, Option.map_none,
        Option.map_some, Option.elim_none, Option.elim_some]
      constructor
      · rintro h a' ⟨⟩ -
        exact h.symm
      · intro h
        exact (h a rfl ⟨hf, hc⟩).symm
    · rw [hsub hc] at hf
      cases hf
    · simp [Option.filter_some, hc, hf]

end Follows

section Run

variable {F : Type} [FloatLike F]

namespace Ledger

/-- What one event adds. -/
def note (l : Ledger F) (e : Timed F) : Ledger F :=
  match e.event with
  | .updateBattery bat =>
    if bat.isFinite then { l with battery := some ⟨bat, e.time, l.lastTick⟩ } else l
  | .updatePs ps => if ps.isFinite then { l with ps := some ⟨ps, e.time, l.lastTick⟩ } else l
  | .mainTick _ => { l with lastTick := e.time }
  | .iteration _ => l

/-- The ledger of a run whose main loop started its timer at `start`. -/
def ofRun (start : Duration) (es : List (Timed F)) : Ledger F := es.foldl note ⟨start, none, none⟩

def freshBattery (l : Ledger F) (t : Duration) : Option (Ina228Reading F) :=
  (l.battery.filter fun a => a.fresh t).map Accepted.reading

def freshPs (l : Ledger F) (t : Duration) : Option (PsReading F) :=
  (l.ps.filter fun a => a.fresh t).map Accepted.reading

/-- The sample a commit at `t` should make: the readings that are fresh, and zeros. -/
def sample (l : Ledger F) (t : Duration) (timeS : ℕ) : Sample F where
  timeS
  voltage := (l.freshBattery t).elim 0.0 Ina228Reading.voltage
  batteryCurrent := (l.freshBattery t).elim 0.0 Ina228Reading.current
  psCurrent := (l.freshPs t).elim 0.0 PsReading.current
  powerOnline := (l.freshPs t).elim 0.0 fun ps =>
    if powerOnlineVoltageThreshold < ps.voltage then 1.0 else 0.0

/-- No reading with anything to show is taken for stale while it is fresh. -/
def Told (l : Ledger F) (t : Duration) : Prop :=
  (∀ a ∈ l.battery, a.Outcounted t → a.reading.voltage = 0.0 ∧ a.reading.current = 0.0) ∧
    ∀ a ∈ l.ps, a.Outcounted t →
      a.reading.current = 0.0 ∧ ¬ powerOnlineVoltageThreshold < a.reading.voltage

end Ledger

/-- The events come in the order of their times, none before `now`. -/
def Chronological : Duration → List (Timed F) → Prop
  | _, [] => True
  | now, e :: es => now.nanos ≤ e.time.nanos ∧ Chronological e.time es

instance Chronological.decide : ∀ (now : Duration) (es : List (Timed F)),
    Decidable (Chronological now es)
  | _, [] => inferInstanceAs (Decidable True)
  | now, e :: es =>
    have := Chronological.decide e.time es
    inferInstanceAs (Decidable (now.nanos ≤ e.time.nanos ∧ Chronological e.time es))

namespace SensorData

theorem sample_eq (d : SensorData F) (timeS : ℕ) : d.sample timeS = {
    timeS
    voltage := d.batteryReading.elim 0.0 Ina228Reading.voltage
    batteryCurrent := d.batteryReading.elim 0.0 Ina228Reading.current
    psCurrent := d.psReading.elim 0.0 PsReading.current
    powerOnline := d.psReading.elim 0.0 fun ps =>
      if powerOnlineVoltageThreshold < ps.voltage then 1.0 else 0.0 } := by
  unfold sample powerOnline
  rcases d.batteryReading with _ | bat <;> rcases d.psReading with _ | ps <;> rfl

end SensorData

namespace Threads

/-- The store and its timer, against the ledger. -/
structure Tracks (now : Duration) (l : Ledger F) (x : Threads F) : Prop where
  timer : x.mainTimer = ⟨l.lastTick⟩
  lastTick : l.lastTick.nanos ≤ now.nanos
  battery : Follows l.lastTick now l.battery x.data.latestBattery x.data.batteryStale
  ps : Follows l.lastTick now l.ps x.data.latestPs x.data.psStale

variable {now : Duration} {l : Ledger F} {x y : Threads F} {e : Timed F} {es : List (Timed F)}

omit [FloatLike F] in
theorem Tracks.later {t : Duration} (h : Tracks now l x) (hle : now.nanos ≤ t.nanos) :
    Tracks t l x :=
  ⟨h.timer, h.lastTick.trans hle, h.battery.later hle, h.ps.later hle⟩

theorem Tracks.step (h : Tracks now l x) (hle : now.nanos ≤ e.time.nanos) (hs : x.step e = .ok y) :
    Tracks e.time (l.note e) y := by
  have hlater := h.later hle
  unfold Ledger.note
  obtain ⟨bat, he, rfl⟩ | ⟨ps, he, rfl⟩ | ⟨nowEpoch, history, he, rfl⟩ |
    ⟨i, a, supervisor, he, -, rfl⟩ := step_cases hs <;> rw [he] <;> simp only []
  · unfold SensorData.updateBattery
    split_ifs
    · exact ⟨h.timer, hlater.lastTick, .accept hlater.lastTick, hlater.ps⟩
    · exact hlater
  · unfold SensorData.updatePs
    split_ifs
    · exact ⟨h.timer, hlater.lastTick, hlater.battery, .accept hlater.lastTick⟩
    · exact hlater
  · refine ⟨rfl, le_rfl, ?_, ?_⟩
    · rw [h.timer]
      exact h.battery.tick h.lastTick hle
    · rw [h.timer]
      exact h.ps.tick h.lastTick hle
  · exact ⟨h.timer, hlater.lastTick, hlater.battery, hlater.ps⟩

theorem Tracks.run {t : Duration} (h : Tracks now l x)
    {last : ThreadEvent F} (hc : Chronological now (es ++ [⟨t, last⟩])) (hr : x.run es = .ok y) :
    ∃ now' : Duration, now'.nanos ≤ t.nanos ∧ Tracks now' (es.foldl Ledger.note l) y := by
  induction es generalizing now l x with
  | nil =>
    cases hr
    exact ⟨now, hc.1, h⟩
  | cons e es ih =>
    simp only [Threads.run, bind_eq_ok] at hr
    obtain ⟨x₁, hs, hr⟩ := hr
    exact ih (h.step hc.1 hs) hc.2 hr

theorem Tracks.start {start : Duration} (hdata : x.data = .new) (htimer : x.mainTimer = ⟨start⟩) :
    Tracks start ⟨start, none, none⟩ x := by
  refine ⟨htimer, le_rfl, ⟨?_, by simp, by simp⟩, ⟨?_, by simp, by simp⟩⟩
  · rw [hdata]
    rfl
  · rw [hdata]
    rfl

end Threads

end Run

section Committed

/-- A supply that is online is not shown as offline. -/
theorem online_eq_zero (v : Float32) :
    (if powerOnlineVoltageThreshold < v then (1.0 : Float32) else 0.0) = 0.0 ↔
      ¬ powerOnlineVoltageThreshold < v := by
  have hne : (1.0 : Float32) ≠ 0.0 := by decide +kernel
  split_ifs with h <;> simp [h, hne]

namespace Threads

/-- A tick commits the readings that are fresh, and zeros, exactly where no reading that is fresh
is taken for stale. -/
theorem committed_told_iff {start t : Duration} {es : List (Timed Float32)}
    {x₀ x : Threads Float32} {nowEpoch : Option ℕ} {s : Sample Float32} (hdata : x₀.data = .new)
    (htimer : x₀.mainTimer = ⟨start⟩)
    (hc : Chronological start (es ++ [⟨t, .mainTick nowEpoch⟩])) (hr : x₀.run es = .ok x)
    (hs : x.data.committed nowEpoch (x.mainTimer.lap t).1 = some s) :
    (∀ y, x.step ⟨t, .mainTick nowEpoch⟩ = .ok y →
      x.data.history.commit s = .ok y.data.history) ∧
    (s = (Ledger.ofRun start es).sample t s.timeS ↔ (Ledger.ofRun start es).Told t) := by
  obtain ⟨now, hnow, htracks⟩ := (Tracks.start hdata htimer).run hc hr
  have hlap : x.mainTimer.lap t = LoopTimer.lap ⟨(Ledger.ofRun start es).lastTick⟩ t := by
    rw [htracks.timer]
    rfl
  have hbattery := htracks.battery.tick htracks.lastTick hnow
  have hps := htracks.ps.tick htracks.lastTick hnow
  refine ⟨fun y hy => ?_, ?_⟩
  · simp only [step, SensorData.tick_eq, hs, bind_eq_ok] at hy
    obtain ⟨data, ⟨history, hh, hd⟩, hy⟩ := hy
    cases hd
    cases hy
    exact hh
  obtain ⟨timeS, -, hs⟩ := Option.bind_eq_some_iff.1 hs
  split_ifs at hs with hlast
  cases hs
  rw [hlap]
  set d := x.data.aged (LoopTimer.lap ⟨(Ledger.ofRun start es).lastTick⟩ t).1 with hd
  set l := Ledger.ofRun start es with hl
  have hread : d.batteryReading = (l.battery.filter fun a => a.counted t).map Accepted.reading :=
    hbattery.reading
  have hreadPs : d.psReading = (l.ps.filter fun a => a.counted t).map Accepted.reading :=
    hps.reading
  have hfresh : ∀ a ∈ l.battery, a.counted t = true → a.fresh t = true := hbattery.fresh
  have hfreshPs : ∀ a ∈ l.ps, a.counted t = true → a.fresh t = true := hps.fresh
  rw [SensorData.sample_eq, hread, hreadPs]
  unfold Ledger.sample Ledger.freshBattery Ledger.freshPs
  simp only [Sample.mk.injEq, true_and, elim_counted_iff hfresh, elim_counted_iff hfreshPs,
    online_eq_zero]
  constructor
  · rintro ⟨hv, hi, hp, ho⟩
    exact ⟨fun a ha hout => ⟨hv a ha hout, hi a ha hout⟩,
      fun a ha hout => ⟨hp a ha hout, ho a ha hout⟩⟩
  · rintro ⟨hb, hp⟩
    exact ⟨fun a ha hout => (hb a ha hout).1, fun a ha hout => (hb a ha hout).2,
      fun a ha hout => (hp a ha hout).1, fun a ha hout => (hp a ha hout).2⟩

/-- The supply on, charging the pack. -/
def onReading : PsReading Float32 := ⟨13.5, 1.0, 13.5, 13.5, 10.0⟩

/-- Both producers write at each of `n` seconds from `second` on. -/
def produce (second n : ℕ) : List (Timed Float32) :=
  (List.range n).flatMap fun k =>
    [⟨.fromSecs (.ofNat (second + k)), .updateBattery fullReading⟩,
      ⟨.fromSecs (.ofNat (second + k)), .updatePs onReading⟩]

def ranThreads (es : List (Timed Float32)) : Threads Float32 :=
  (bootThreads.run es).toOption.getD bootThreads

theorem committed_told_prompt : ∃ x s, bootThreads.run (produce 1 1) = .ok x ∧
    x.data.committed (some 100) (x.mainTimer.lap (.fromSecs 2)).1 = some s ∧
    s = (Ledger.ofRun .zero (produce 1 1)).sample (.fromSecs 2) s.timeS ∧ s.voltage = 13.5 := by
  have hrun : bootThreads.run (produce 1 1) = .ok (ranThreads (produce 1 1)) := rfl
  have hs : (ranThreads (produce 1 1)).data.committed (some 100)
      ((ranThreads (produce 1 1)).mainTimer.lap (.fromSecs 2)).1
        = some ⟨100, 13.5, -0.1, 1.0, 1.0⟩ := by
    decide +kernel
  have hc : Chronological .zero (produce 1 1 ++
      [(⟨.fromSecs 2, .mainTick (some 100)⟩ : Timed Float32)]) := by
    decide
  refine ⟨_, _, hrun, hs, (committed_told_iff rfl rfl hc hrun hs).2.2 ⟨?_, ?_⟩, rfl⟩
  · rintro a ⟨⟩ ⟨-, hcounted⟩
    exact absurd hcounted (by decide)
  · rintro a ⟨⟩ ⟨-, hcounted⟩
    exact absurd hcounted (by decide)

/-- Seven seconds between two ticks, in which both producers write every second, the last time as
the tick comes. -/
def stalled : List (Timed Float32) := ⟨.fromSecs 1, .mainTick (some 99)⟩ :: produce 2 7

/-- The tick at the end of a stall commits a zero row. -/
theorem committed_zeros : ∃ x, bootThreads.run stalled = .ok x ∧
    Chronological .zero (stalled ++ [⟨.fromSecs 8, .mainTick (some 106)⟩]) ∧
    x.data.committed (some 106) (x.mainTimer.lap (.fromSecs 8)).1
      = some ⟨106, 0.0, 0.0, 0.0, 0.0⟩ ∧
    (Ledger.ofRun .zero stalled).sample (.fromSecs 8) 106 = ⟨106, 13.5, -0.1, 1.0, 1.0⟩ := by
  have h : Chronological .zero (stalled ++ [⟨.fromSecs 8, .mainTick (some 106)⟩]) ∧
      (ranThreads stalled).data.committed (some 106)
        ((ranThreads stalled).mainTimer.lap (.fromSecs 8)).1 = some ⟨106, 0.0, 0.0, 0.0, 0.0⟩ ∧
      (Ledger.ofRun .zero stalled).sample (.fromSecs 8) 106 = ⟨106, 13.5, -0.1, 1.0, 1.0⟩ := by
    decide +kernel
  exact ⟨ranThreads stalled, rfl, h⟩

end Threads

end Committed

end Esp32Battery
