import Esp32Battery.Proofs.Chronology
import Esp32Battery.Proofs.EventTotals
import Esp32Battery.WallClock

/-!
# Only plausible stamps

Whatever the system time does and whatever SNTP replies come in, the log is stamped with a plausible
system time or none, and the history with nothing else.
-/

namespace Esp32Battery

open Lib

variable {F : Type} [FloatLike F]

/-- A plausible SNTP reply has come in. -/
def synced (past : List (StampOp F)) : Bool :=
  past.any fun
    | .sntp secs => validEpochS secs
    | _ => false

/-- What there is to stamp with. -/
def stamp (past : List (StampOp F)) (now : UInt64) : Option ℕ :=
  if synced past && validEpochS now then some now.toNat else none

/-- The events recorded, and their stamps. -/
def recorded (past : List (StampOp F)) : List (StampOp F) → List (ℕ × Event)
  | [] => []
  | op :: ops => (match op with
      | .record now event => [((stamp past now).getD 0, event)]
      | _ => []) ++ recorded (past ++ [op]) ops

/-- The stamps the store was ticked with. -/
def ticked (past : List (StampOp F)) : List (StampOp F) → List ℕ
  | [] => []
  | op :: ops => (match op with
      | .tick now _ => (stamp past now).toList
      | _ => []) ++ ticked (past ++ [op]) ops

omit [FloatLike F] in
theorem synced_concat (past : List (StampOp F)) (op : StampOp F) :
    synced (past ++ [op]) = (synced past || synced [op]) := List.any_append ..

omit [FloatLike F] in
theorem stamp_eq_some {past : List (StampOp F)} {now : UInt64} {t : ℕ}
    (h : stamp past now = some t) : synced past = true ∧ 1700000000 ≤ t ∧ t < 4102444800 := by
  unfold stamp at h
  split_ifs at h with hv
  cases h
  simp only [validEpochS, Bool.and_eq_true, decide_eq_true_eq, UInt64.le_iff_toNat_le,
    UInt64.lt_iff_toNat_lt] at hv
  exact ⟨hv.1, hv.2⟩

omit [FloatLike F] in
/-- The cast to a `u32` loses nothing of a plausible time. -/
theorem epochS_stamp {c : EspClock} {past : List (StampOp F)} (hc : c.ntpSynced = synced past)
    (now : UInt64) : (c.epochS now).map UInt32.toNat = stamp past now := by
  unfold EspClock.epochS stamp
  rw [hc]
  rcases hs : synced past
  · rfl
  · rcases hv : validEpochS now
    · rfl
    · simp only [validEpochS, Bool.and_eq_true, decide_eq_true_eq, UInt64.le_iff_toNat_le,
        UInt64.lt_iff_toNat_lt] at hv
      have hlt : now.toNat < 2 ^ 32 := hv.2.trans (by decide)
      simpa using hlt

/-- A commit adds its stamp, if any, after those it keeps. -/
theorem History.commit_sublist {h h' : History F} {raw : Sample F} (hc : h.commit raw = .ok h') :
    h'.times.Sublist (h.times ++ [raw.timeS]) := by
  rcases commit_cases hc with ⟨hsamples, -⟩ | ⟨kept, hr, -, hitems⟩
  · unfold times
    rw [hsamples]
    exact List.sublist_append_left _ _
  · unfold times
    rw [hitems, List.map_append]
    exact hr.times.append (.refl _)

theorem SensorData.tick_sublist {d d' : SensorData F} {nowEpoch : Option ℕ} {elapsed : Duration}
    (hs : d.history.times.Pairwise (· < ·)) (h : d.tick nowEpoch elapsed = .ok d') :
    d'.history.times.Pairwise (· < ·) ∧
      d'.history.times.Sublist (d.history.times ++ nowEpoch.toList) := by
  unfold tick at h
  rcases nowEpoch with _ | timeS
  · cases h
    exact ⟨hs, List.sublist_append_left _ _⟩
  · simp only [] at h
    split_ifs at h with hlate
    · cases h
      exact ⟨hs, List.sublist_append_left _ _⟩
    · obtain ⟨history, hcommit, hret⟩ := bind_eq_ok.1 h
      cases hret
      have hnew : d.history.lastTime.any (timeS ≤ ·) = false := by simpa using hlate
      exact ⟨History.commit_times hs hnew hcommit, History.commit_sublist hcommit⟩

namespace Stamped

/-- What the log and the history hold after `past`. -/
structure Sound (past : List (StampOp F)) (events : List (ℕ × Event)) (stamps : List ℕ)
    (x : Stamped F) : Prop where
  clock : x.clock.ntpSynced = synced past
  log : ∃ es, x.log.Records es ∧ es.map (fun e => (e.ts.toNat, e.event)) = events
  ordered : x.data.history.times.Pairwise (· < ·)
  times : x.data.history.times.Sublist stamps

variable {past : List (StampOp F)} {events : List (ℕ × Event)} {stamps : List ℕ} {x : Stamped F}

omit [FloatLike F] in
/-- A reading stamps nothing. -/
theorem Sound.still {x' : Stamped F} {op : StampOp F} (h : x.Sound past events stamps)
    (hsync : synced [op] = false) (hrec : recorded past [op] = []) (htick : ticked past [op] = [])
    (hclock : x'.clock = x.clock) (hlog : x'.log = x.log)
    (hhist : x'.data.history = x.data.history) :
    x'.Sound (past ++ [op]) (events ++ recorded past [op]) (stamps ++ ticked past [op]) where
  clock := by rw [synced_concat, hsync, Bool.or_false, hclock, h.clock]
  log := by rw [hlog, hrec, List.append_nil]; exact h.log
  ordered := by rw [hhist]; exact h.ordered
  times := by rw [hhist, htick, List.append_nil]; exact h.times

theorem Sound.step (h : x.Sound past events stamps) (op : StampOp F) : ∃ x', x.step op = .ok x' ∧
    x'.Sound (past ++ [op]) (events ++ recorded past [op]) (stamps ++ ticked past [op]) := by
  cases op with
  | sntp secs =>
    refine ⟨_, rfl, ?_, by simpa [recorded] using h.log, h.ordered, by simpa [ticked] using h.times⟩
    rw [synced_concat, ← h.clock]
    simp only [EspClock.syncedAt, synced, List.any_cons, List.any_nil, Bool.or_false]
    split_ifs with hv
    · rw [hv, Bool.or_true]
      rfl
    · simp [hv]
  | record now event =>
    obtain ⟨es, hes, hmap⟩ := h.log
    obtain ⟨log, hlog, hrec⟩ := hes.record ⟨(x.clock.epochS now).getD 0, event⟩
    refine ⟨{ x with log }, by simp only [Stamped.step, EventLog.recordAt, hlog]; rfl, ?_,
      ⟨_, hrec, ?_⟩, h.ordered, by simpa [ticked] using h.times⟩
    · rw [synced_concat, h.clock]
      simp [synced]
    · rw [List.map_append, hmap, recorded, ← epochS_stamp h.clock]
      cases x.clock.epochS now <;> rfl
  | tick now elapsed =>
    obtain ⟨history, htick⟩ := x.data.tick_ok ((x.clock.epochS now).map UInt32.toNat) elapsed
    obtain ⟨hordered, htimes⟩ := SensorData.tick_sublist h.ordered htick
    refine ⟨_, by simp only [Stamped.step, htick]; rfl, ?_, by simpa [recorded] using h.log,
      hordered, htimes.trans ?_⟩
    · rw [synced_concat, h.clock]
      simp [synced]
    · rw [epochS_stamp h.clock]
      simpa [ticked] using h.times
  | updateBattery bat => exact ⟨_, rfl, h.still rfl rfl rfl rfl rfl (by
      simp only [SensorData.updateBattery]
      split_ifs <;> rfl)⟩
  | updatePs ps => exact ⟨_, rfl, h.still rfl rfl rfl rfl rfl (by
      simp only [SensorData.updatePs]
      split_ifs <;> rfl)⟩

theorem Sound.run (h : x.Sound past events stamps) (ops : List (StampOp F)) :
    ∃ x', x.run ops = .ok x' ∧
      x'.Sound (past ++ ops) (events ++ recorded past ops) (stamps ++ ticked past ops) := by
  induction ops generalizing x past events stamps with
  | nil => exact ⟨x, rfl, by simpa [recorded, ticked] using h⟩
  | cons op ops ih =>
    obtain ⟨x₁, hstep, h₁⟩ := h.step op
    obtain ⟨x', hrun, h'⟩ := ih h₁
    refine ⟨x', by simp only [Stamped.run, hstep, ok_bind, hrun], ?_⟩
    simpa [recorded, ticked] using h'

omit [FloatLike F] in
theorem mem_ticked {ops : List (StampOp F)} {t : ℕ} (h : t ∈ ticked past ops) :
    synced (past ++ ops) = true ∧ 1700000000 ≤ t ∧ t < 4102444800 := by
  induction ops generalizing past with
  | nil => cases h
  | cons op ops ih =>
    rcases List.mem_append.1 h with h | h
    · cases op with
      | tick now elapsed =>
        obtain ⟨hs, hv⟩ := stamp_eq_some (Option.mem_toList.1 h)
        exact ⟨by rw [synced, List.any_append]; exact Bool.or_eq_true_iff.2 (.inl hs), hv⟩
      | _ => cases h
    · have := ih h
      rwa [List.append_assoc] at this

omit [FloatLike F] in
theorem mem_recorded {ops : List (StampOp F)} {t : ℕ} {event : Event}
    (h : (t, event) ∈ recorded past ops) :
    t = 0 ∨ synced (past ++ ops) = true ∧ 1700000000 ≤ t ∧ t < 4102444800 := by
  induction ops generalizing past with
  | nil => cases h
  | cons op ops ih =>
    rcases List.mem_append.1 h with h | h
    · cases op with
      | record now event' =>
        obtain ⟨rfl, -⟩ := Prod.mk.inj (List.mem_singleton.1 h)
        rcases hst : stamp past now with _ | t
        · exact .inl rfl
        · obtain ⟨hs, hv⟩ := stamp_eq_some hst
          exact .inr ⟨by rw [synced, List.any_append]; exact Bool.or_eq_true_iff.2 (.inl hs), hv⟩
      | _ => cases h
    · have := ih h
      rwa [List.append_assoc] at this

/-- Whatever is recorded, ticked, read and replied in whatever order, and whatever the system time
says: the log holds the last events with their stamps, the history nothing but stamps it was ticked
with, in order; those of the history are plausible, those of the log plausible or none, and there
are none until a plausible SNTP reply. -/
theorem stamps_plausible (ops : List (StampOp F)) : ∃ x, (new : Stamped F).run ops = .ok x ∧
    x.log.recent.items.map (fun e => (e.ts.toNat, e.event)) =
      (recorded [] ops).rtake EventLog.capacity ∧
    x.data.history.times.Pairwise (· < ·) ∧ x.data.history.times.Sublist (ticked [] ops) ∧
    (∀ t ∈ x.data.history.times, 1700000000 ≤ t ∧ t < 4102444800) ∧
    (∀ e ∈ x.log.recent.items,
      e.ts.toNat = 0 ∨ 1700000000 ≤ e.ts.toNat ∧ e.ts.toNat < 4102444800) ∧
    (synced ops = false →
      x.data.history.times = [] ∧ ∀ e ∈ x.log.recent.items, e.ts.toNat = 0) := by
  have hnew : (new : Stamped F).Sound [] [] [] :=
    ⟨rfl, ⟨[], EventLog.records_new, rfl⟩, .nil, .slnil⟩
  obtain ⟨x, hrun, h⟩ := hnew.run ops
  obtain ⟨es, hes, hmap⟩ := h.log
  rw [List.nil_append] at hmap
  have hrecent : x.log.recent.items.map (fun e => (e.ts.toNat, e.event)) =
      (recorded [] ops).rtake EventLog.capacity := by
    rw [hes.recent, ← hmap, List.rtake, List.rtake, List.map_drop, List.length_map]
  have hticked : ∀ t ∈ x.data.history.times, t ∈ ticked [] ops := fun t ht => h.times.subset ht
  have hrecorded : ∀ e ∈ x.log.recent.items, (e.ts.toNat, e.event) ∈ recorded [] ops := by
    intro e he
    have hmem := List.mem_map_of_mem (f := fun e : TimedEvent => (e.ts.toNat, e.event)) he
    rw [hrecent] at hmem
    exact List.mem_of_mem_drop hmem
  refine ⟨x, hrun, hrecent, h.ordered, h.times, fun t ht => (mem_ticked (hticked t ht)).2,
    fun e he => (mem_recorded (hrecorded e he)).imp_right And.right, fun hno => ⟨?_, ?_⟩⟩
  · refine List.eq_nil_iff_forall_not_mem.2 fun t ht => ?_
    have hyes := (mem_ticked (hticked t ht)).1
    rw [List.nil_append, hno] at hyes
    cases hyes
  · intro e he
    rcases mem_recorded (hrecorded e he) with hzero | ⟨hyes, -⟩
    · exact hzero
    · rw [List.nil_append, hno] at hyes
      cases hyes

end Stamped

end Esp32Battery
