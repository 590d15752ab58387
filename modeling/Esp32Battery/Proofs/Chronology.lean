import Esp32Battery.Data.SensorData
import Esp32Battery.Lib.Extended
import Esp32Battery.Proofs.HistorySpans

/-!
# Chronology under any clock

Whatever the clock does, the entries of the history stay in order: a commit is stamped past the
last entry, and making room only drops stamps.
-/

namespace Esp32Battery

open Lib

variable {F : Type} [FloatLike F]

def Sample.isFinite (s : Sample F) : Bool :=
  FloatLike.isFinite s.voltage && FloatLike.isFinite s.batteryCurrent &&
    FloatLike.isFinite s.psCurrent && FloatLike.isFinite s.powerOnline

def SampleAccum.isFinite (a : SampleAccum F) : Bool :=
  FloatLike.isFinite a.voltage && FloatLike.isFinite a.batteryCurrent &&
    FloatLike.isFinite a.psCurrent && FloatLike.isFinite a.powerOnline

inductive StoreOp (F : Type) where
  | updateBattery (bat : Ina228Reading F)
  | updatePs (ps : PsReading F)
  | tick (nowEpoch : Option ℕ) (elapsed : Duration)

namespace SensorData

def apply (d : SensorData F) : StoreOp F → Except Panic (SensorData F)
  | .updateBattery bat => .ok (d.updateBattery bat)
  | .updatePs ps => .ok (d.updatePs ps)
  | .tick nowEpoch elapsed => d.tick nowEpoch elapsed

def run (ops : List (StoreOp F)) : Except Panic (SensorData F) := ops.foldlM apply .new

/-- The clock is unset, or has not moved past the last entry. -/
def Late (d : SensorData F) (nowEpoch : Option ℕ) : Prop :=
  ∀ timeS ∈ nowEpoch, ∃ last ∈ d.history.lastTime, timeS ≤ last

theorem tick_late {d : SensorData F} {nowEpoch : Option ℕ} (h : d.Late nowEpoch)
    (elapsed : Duration) : d.tick nowEpoch elapsed = .ok (d.aged elapsed) := by
  unfold tick
  rcases nowEpoch with _ | timeS
  · rfl
  · obtain ⟨last, hlast, hle⟩ := h timeS rfl
    have hany : d.history.lastTime.any (timeS ≤ ·) = true := by
      rw [hlast]
      simpa using hle
    exact if_pos hany

/-- What one operation does to the history. -/
theorem apply_cases {d d' : SensorData F} {op : StoreOp F} (h : d.apply op = .ok d') :
    d'.history = d.history ∨ ∃ elapsed timeS, d.history.lastTime.any (timeS ≤ ·) = false ∧
      d.history.commit ((d.aged elapsed).sample timeS) = .ok d'.history := by
  rcases op with bat | ps | ⟨nowEpoch, elapsed⟩
  · cases h
    unfold updateBattery
    split_ifs <;> exact .inl rfl
  · cases h
    unfold updatePs
    split_ifs <;> exact .inl rfl
  · simp only [apply, tick] at h
    rcases nowEpoch with _ | timeS
    · cases h
      exact .inl rfl
    · simp only [] at h
      split_ifs at h with hlate
      · cases h
        exact .inl rfl
      · simp only [bind_eq_ok] at h
        obtain ⟨history, hcommit, h⟩ := h
        cases h
        exact .inr ⟨elapsed, timeS, by simpa using hlate, hcommit⟩

/-- What one operation does to the readings held. -/
theorem apply_latest {d d' : SensorData F} {op : StoreOp F} (h : d.apply op = .ok d') :
    (d'.latestBattery = d.latestBattery ∨
      ∃ bat, bat.isFinite = true ∧ d'.latestBattery = some bat) ∧
      (d'.latestPs = d.latestPs ∨ ∃ ps, ps.isFinite = true ∧ d'.latestPs = some ps) := by
  rcases op with bat | ps | ⟨nowEpoch, elapsed⟩
  · cases h
    unfold updateBattery
    split_ifs with hf
    · exact ⟨.inr ⟨bat, hf, rfl⟩, .inl rfl⟩
    · exact ⟨.inl rfl, .inl rfl⟩
  · cases h
    unfold updatePs
    split_ifs with hf
    · exact ⟨.inl rfl, .inr ⟨ps, hf, rfl⟩⟩
    · exact ⟨.inl rfl, .inl rfl⟩
  · obtain ⟨history, ht⟩ := d.tick_ok nowEpoch elapsed
    rw [apply, ht] at h
    cases h
    exact ⟨.inl rfl, .inl rfl⟩

theorem apply_ok (d : SensorData F) (op : StoreOp F) : ∃ d', d.apply op = .ok d' := by
  rcases op with bat | ps | ⟨nowEpoch, elapsed⟩
  · exact ⟨_, rfl⟩
  · exact ⟨_, rfl⟩
  · obtain ⟨history, ht⟩ := d.tick_ok nowEpoch elapsed
    exact ⟨_, ht⟩

end SensorData

namespace History

variable {h h' : History F} {raw : Sample F}

/-- What making room leaves of the entries. -/
inductive Room (items : List (Sample F)) : List (Sample F) → Prop
  | all : Room items items
  | slid : Room items items.tail
  | coarse : Room items (foldPairs Sample.merge items)

theorem makeRoom_room (hroom : h.makeRoom = .ok h') :
    Room h.samples.items h'.samples.items ∧ h'.acc = h.acc := by
  unfold makeRoom at hroom
  split_ifs at hroom
  · obtain ⟨hhalf, hpairs⟩ := pairAverages_eq h.samples.items
    simp only [compact, hpairs, ok_bind] at hroom
    cases hroom
    exact ⟨.coarse, rfl⟩
  · cases hroom
    exact ⟨.slid, rfl⟩
  · cases hroom
    exact ⟨.all, rfl⟩

/-- A commit gathers the sample, or makes room and appends the mean of what was gathered. -/
theorem commit_cases (hc : h.commit raw = .ok h') :
    (h'.samples = h.samples ∧ h'.acc = h.acc.add raw) ∨
      ∃ kept, Room h.samples.items kept ∧ h'.acc = .zero ∧
        h'.samples.items = kept ++ [(h.acc.add raw).mean (h.accCount + 1) raw.timeS] := by
  unfold commit at hc
  simp only [] at hc
  split_ifs at hc with hgather
  · cases hc
    exact .inl ⟨rfl, rfl⟩
  · rw [SampleAccum.average_eq _ _ (Nat.succ_pos _)] at hc
    simp only [ok_bind, bind_eq_ok] at hc
    obtain ⟨h₁, hroom, samples, hpush, hc⟩ := hc
    cases hc
    obtain ⟨hr, hacc⟩ := makeRoom_room hroom
    refine .inr ⟨h₁.samples.items, hr, hacc, ?_⟩
    rw [expect_eq_ok] at hpush
    unfold Deque.pushBack at hpush
    split_ifs at hpush
    cases hpush
    rfl

/-- Making room drops stamps and keeps the others in order. -/
theorem Room.times {items kept : List (Sample F)} (hr : Room items kept) :
    (kept.map Sample.timeS).Sublist (items.map Sample.timeS) := by
  cases hr with
  | all => exact .refl _
  | slid => exact (List.tail_sublist items).map _
  | coarse => exact foldPairs_sublist (f := Sample.merge) (fun _ _ => rfl) items

def times (h : History F) : List ℕ := h.samples.items.map Sample.timeS

omit [FloatLike F] in
theorem le_lastTime (hs : h.times.Pairwise (· < ·)) {t : ℕ} (ht : t ∈ h.times) :
    ∃ last, h.lastTime = some last ∧ t ≤ last := by
  have hlast : h.lastTime = h.times.getLast? := List.getLast?_map.symm
  rw [hlast]
  rcases List.eq_nil_or_concat h.times with hnil | ⟨init, last, hconcat⟩
  · rw [hnil] at ht
    cases ht
  · rw [hconcat, List.concat_eq_append] at hs ht ⊢
    refine ⟨last, by simp, ?_⟩
    rcases List.mem_append.1 ht with ht | ht
    · exact ((List.pairwise_append.1 hs).2.2 t ht last (by simp)).le
    · exact (List.mem_singleton.1 ht).le

theorem commit_times (hs : h.times.Pairwise (· < ·))
    (hnew : h.lastTime.any (raw.timeS ≤ ·) = false) (hc : h.commit raw = .ok h') :
    h'.times.Pairwise (· < ·) := by
  rcases commit_cases hc with ⟨hsamples, -⟩ | ⟨kept, hr, -, hitems⟩
  · unfold times
    rw [hsamples]
    exact hs
  · unfold times
    rw [hitems, List.map_append]
    refine List.pairwise_append.2 ⟨hs.sublist hr.times, List.pairwise_singleton _ _, ?_⟩
    intro t ht u hu
    obtain ⟨last, hlast, hle⟩ := le_lastTime hs (hr.times.subset ht)
    rw [List.map_singleton, List.mem_singleton] at hu
    subst hu
    rw [hlast] at hnew
    simp only [Option.any_some, decide_eq_false_iff_not] at hnew
    show t < raw.timeS
    omega

end History

section exact

variable (hexact : FloatLike.Exact F)
include hexact

theorem SampleAccum.isFinite_zero : (SampleAccum.zero : SampleAccum F).isFinite = true := by
  unfold isFinite zero
  simp only [hexact.finite_literal, Bool.and_true]

theorem SampleAccum.isFinite_add {a : SampleAccum F} {s : Sample F} (ha : a.isFinite = true)
    (hs : s.isFinite = true) : (a.add s).isFinite = true := by
  unfold isFinite Sample.isFinite at *
  simp only [Bool.and_eq_true] at ha hs ⊢
  exact ⟨⟨⟨hexact.finite_add _ _ ha.1.1.1 hs.1.1.1, hexact.finite_add _ _ ha.1.1.2 hs.1.1.2⟩,
    hexact.finite_add _ _ ha.1.2 hs.1.2⟩, hexact.finite_add _ _ ha.2 hs.2⟩

theorem SampleAccum.isFinite_mean {a : SampleAccum F} (ha : a.isFinite = true) {n : ℕ}
    (hn : 0 < n) (timeS : ℕ) : (a.mean n timeS).isFinite = true := by
  unfold isFinite at ha
  unfold Sample.isFinite mean
  simp only [Bool.and_eq_true] at ha ⊢
  exact ⟨⟨⟨hexact.finite_div _ _ ha.1.1.1 hn, hexact.finite_div _ _ ha.1.1.2 hn⟩,
    hexact.finite_div _ _ ha.1.2 hn⟩, hexact.finite_div _ _ ha.2 hn⟩

theorem Sample.isFinite_merge {a b : Sample F} (ha : a.isFinite = true) (hb : b.isFinite = true) :
    (a.merge b).isFinite = true := by
  unfold merge
  refine SampleAccum.isFinite_mean hexact ?_ (by decide) _
  exact SampleAccum.isFinite_add hexact
    (SampleAccum.isFinite_add hexact (SampleAccum.isFinite_zero hexact) ha) hb

/-- A history of finite entries, gathering finite samples. -/
structure History.Finite (h : History F) : Prop where
  items : ∀ s ∈ h.samples.items, s.isFinite = true
  acc : h.acc.isFinite = true

theorem History.Finite.commit {h h' : History F} {raw : Sample F} (hf : h.Finite)
    (hraw : raw.isFinite = true) (hc : h.commit raw = .ok h') : h'.Finite := by
  have hacc := SampleAccum.isFinite_add hexact hf.acc hraw
  rcases commit_cases hc with ⟨hsamples, hadd⟩ | ⟨kept, hr, hzero, hitems⟩
  · refine ⟨?_, by rw [hadd]; exact hacc⟩
    rw [hsamples]
    exact hf.items
  · refine ⟨?_, by rw [hzero]; exact SampleAccum.isFinite_zero hexact⟩
    rw [hitems]
    intro s hs
    rcases List.mem_append.1 hs with hs | hs
    · cases hr with
      | all => exact hf.items s hs
      | slid => exact hf.items s (List.mem_of_mem_tail hs)
      | coarse =>
        obtain ⟨a, ha, b, hb, rfl⟩ := mem_foldPairs hs
        exact Sample.isFinite_merge hexact (hf.items a ha) (hf.items b hb)
    · rw [List.mem_singleton.1 hs]
      exact SampleAccum.isFinite_mean hexact hacc (Nat.succ_pos _) _

namespace SensorData

/-- Only finite readings are ever held, and so only finite ones are recorded. -/
structure Finite (d : SensorData F) : Prop where
  battery : ∀ bat ∈ d.latestBattery, bat.isFinite = true
  ps : ∀ ps ∈ d.latestPs, ps.isFinite = true
  history : d.history.Finite

theorem Finite.batteryReading {d : SensorData F} (hd : d.Finite) :
    (d.batteryReading.getD ⟨0.0, 0.0, 0.0⟩).isFinite = true := by
  unfold SensorData.batteryReading
  have hzero : (⟨0.0, 0.0, 0.0⟩ : Ina228Reading F).isFinite = true := by
    simp only [Ina228Reading.isFinite, hexact.finite_literal, Bool.and_true]
  split_ifs
  · exact hzero
  · rcases hb : d.latestBattery with _ | bat
    · exact hzero
    · exact hd.battery bat hb

theorem Finite.psReading {d : SensorData F} (hd : d.Finite) :
    (d.psReading.getD ⟨0.0, 0.0, 0.0, 0.0, 0.0⟩).isFinite = true := by
  unfold SensorData.psReading
  have hzero : (⟨0.0, 0.0, 0.0, 0.0, 0.0⟩ : PsReading F).isFinite = true := by
    simp only [PsReading.isFinite, hexact.finite_literal, Bool.and_true]
  split_ifs
  · exact hzero
  · rcases hps : d.latestPs with _ | ps
    · exact hzero
    · exact hd.ps ps hps

theorem isFinite_powerOnline (d : SensorData F) : FloatLike.isFinite d.powerOnline = true := by
  unfold powerOnline
  split
  · split_ifs <;> exact hexact.finite_literal ..
  · exact hexact.finite_literal ..

theorem Finite.sample {d : SensorData F} (hd : d.Finite) (timeS : ℕ) :
    (d.sample timeS).isFinite = true := by
  have hbat := hd.batteryReading hexact
  have hps := hd.psReading hexact
  unfold Ina228Reading.isFinite at hbat
  unfold PsReading.isFinite at hps
  unfold SensorData.sample Sample.isFinite
  simp only [Bool.and_eq_true] at hbat hps ⊢
  exact ⟨⟨⟨hbat.1.1, hbat.1.2⟩, hps.1.1.1.2⟩, isFinite_powerOnline hexact d⟩

theorem Finite.apply {d d' : SensorData F} (hd : d.Finite) {op : StoreOp F}
    (h : d.apply op = .ok d') : d'.Finite := by
  obtain ⟨hbat, hps⟩ := apply_latest h
  refine ⟨?_, ?_, ?_⟩
  · intro bat hb
    rcases hbat with hsame | ⟨bat', hf, hnew⟩
    · exact hd.battery bat (hsame ▸ hb)
    · rw [hnew] at hb
      cases hb
      exact hf
  · intro ps hp
    rcases hps with hsame | ⟨ps', hf, hnew⟩
    · exact hd.ps ps (hsame ▸ hp)
    · rw [hnew] at hp
      cases hp
      exact hf
  · rcases apply_cases h with hsame | ⟨elapsed, timeS, -, hcommit⟩
    · rw [hsame]
      exact hd.history
    · have haged : (d.aged elapsed).Finite := ⟨hd.battery, hd.ps, hd.history⟩
      exact hd.history.commit hexact (haged.sample hexact timeS) hcommit

theorem finite_new : (new : SensorData F).Finite where
  battery _ h := by cases h
  ps _ h := by cases h
  history := ⟨fun _ h => (by cases h), SampleAccum.isFinite_zero hexact⟩

end SensorData

end exact

namespace SensorData

theorem apply_times {d d' : SensorData F} {op : StoreOp F} (h : d.apply op = .ok d')
    (hs : d.history.times.Pairwise (· < ·)) : d'.history.times.Pairwise (· < ·) := by
  rcases apply_cases h with hsame | ⟨elapsed, timeS, hnew, hcommit⟩
  · rw [hsame]
    exact hs
  · exact History.commit_times hs hnew hcommit

theorem run_concat (ops : List (StoreOp F)) (op : StoreOp F) :
    run (ops ++ [op]) = (run ops >>= fun d => d.apply op) := by
  simp [run]

/-- A property that every operation keeps holds of every store reached, and one is. -/
theorem run_keeps {P : SensorData F → Prop} (hnew : P new)
    (hstep : ∀ d d' op, d.apply op = .ok d' → P d → P d') (ops : List (StoreOp F)) :
    ∃ d, run ops = .ok d ∧ P d := by
  induction ops using List.reverseRecOn with
  | nil => exact ⟨new, rfl, hnew⟩
  | append_singleton ops op ih =>
    obtain ⟨d, hrun, hd⟩ := ih
    obtain ⟨d', happly⟩ := d.apply_ok op
    exact ⟨d', by rw [run_concat, hrun, ok_bind, happly], hstep d d' op happly hd⟩

/-- Whatever is written and whatever the clock says, the history is in strict order, within its
capacity, and finite where nothing overflows; and a tick on a clock that has not moved on changes
nothing but the two ages. -/
theorem chronology (ops : List (StoreOp F)) : ∃ d, run ops = .ok d ∧
    (d.history.samples.items.map Sample.timeS).Pairwise (· < ·) ∧
    d.history.samples.items.length ≤ historyCapacity ∧
    (FloatLike.Exact F → ∀ s ∈ d.history.samples.items, s.isFinite = true) ∧
    ∀ nowEpoch elapsed, d.Late nowEpoch → d.tick nowEpoch elapsed = .ok { d with
      batteryStale := d.batteryStale.saturatingAdd elapsed
      psStale := d.psStale.saturatingAdd elapsed } := by
  have hstep : ∀ (d d' : SensorData F) (op : StoreOp F), d.apply op = .ok d' →
      (d.history.times.Pairwise (· < ·) ∧ (FloatLike.Exact F → d.Finite)) →
      d'.history.times.Pairwise (· < ·) ∧ (FloatLike.Exact F → d'.Finite) :=
    fun d d' op h hd => ⟨apply_times h hd.1, fun he => (hd.2 he).apply he h⟩
  obtain ⟨d, hrun, htimes, hfinite⟩ := run_keeps ⟨.nil, finite_new⟩ hstep ops
  exact ⟨d, hrun, htimes, d.history.samples.length_le, fun he => (hfinite he).history.items,
    fun nowEpoch elapsed h => tick_late h elapsed⟩

/-- A broken sensor and a clock that steps back. -/
def stepBack : List (StoreOp Extended) :=
  [.updateBattery ⟨.nan, .inf true, .finite 1⟩, .tick (some 2000) (.fromSecs 1),
    .tick (some 1500) (.fromSecs 1)]

theorem chronology_stepBack : ∃ d, run stepBack = .ok d ∧
    d.history.samples.items.map Sample.timeS = [2000] ∧
    ∀ s ∈ d.history.samples.items, s.isFinite = true := by
  obtain ⟨d, hrun, -, -, hfinite, -⟩ := chronology stepBack
  refine ⟨d, hrun, ?_, hfinite Extended.exact⟩
  have htimes : (run stepBack).toOption.map (fun d => d.history.samples.items.map Sample.timeS) =
      some [2000] := by decide +kernel
  rw [hrun] at htimes
  simpa [Except.toOption] using htimes

end SensorData

end Esp32Battery
