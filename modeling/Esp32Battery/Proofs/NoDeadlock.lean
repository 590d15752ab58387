import Esp32Battery.Locking

/-!
# No task waits forever

Every task takes a mutex above those it holds, and the main task, which waits for the servers it
drops, holds none then. So whatever the interleaving, what is under way comes to its end.
-/

namespace Esp32Battery

open Lib Locks

/-- Of the mutexes that are waited for, only the reply buffer is held on the way to another. -/
def Mutex.rank : Mutex → Fin 2
  | .jsonBuf => 0
  | _ => 1

/-- Only the main task waits for others. -/
def Task.level : Task → Fin 2
  | .main => 1
  | _ => 0

def Locking.Ordered (t : Task) (held : List Mutex) (c : Locking) : Prop :=
  Code.Ordered Mutex.rank Task.level t held c

section Ordered

variable {t : Task} {held : List Mutex} {c c' : Locking}

theorem ordered_lock {l : Mutex} {k : Locking} (hl : ∀ m ∈ held, m.rank < l.rank)
    (h : Locking.Ordered t held k) : Locking.Ordered t held (.lock l .done k) := ⟨hl, trivial, h⟩

/-- Logging a line waits for nothing. -/
theorem Locking.Logged.ordered (h : Locking.Logged c c') (hc : Locking.Ordered t held c) :
    Locking.Ordered t held c' := by
  induction h generalizing held with
  | done => trivial
  | lock _ _ ihb ihk => exact ⟨hc.1, ihb hc.2.1, ihk hc.2.2⟩
  | await _ ih => exact ⟨hc.1, hc.2.1, ih hc.2.2⟩
  | line _ ih => exact ⟨trivial, ih hc⟩

theorem ordered_lockingOf {Op : Type} {Reply : Op → Type} {locking : Op → Locking → Locking}
    (h : ∀ op k, Locking.Ordered t [] k → Locking.Ordered t [] (locking op k))
    (c : List (Answered Op Reply)) : Locking.Ordered t [] (lockingOf locking c) := by
  induction c with
  | nil => trivial
  | cons x c ih => exact h x.op _ ih

theorem XyOp.ordered_locking {F : Type} (op : XyOp F) {k : Locking}
    (h : Locking.Ordered t [] k) : Locking.Ordered t [] (op.locking k) := by
  cases op with
  | record | batteryReading | publishModel | publish => exact ordered_lock (by simp) h
  | _ => exact h

theorem NetOp.ordered_locking (stale : Duration → Bool) (op : NetOp) {k : Locking}
    (h : Locking.Ordered .main [] k) : Locking.Ordered .main [] (op.locking stale k) := by
  cases op with
  | tickSensors | takeCreds | setStaCreds | clearStaCreds | intoMixed =>
    exact ordered_lock (by simp) h
  | refreshScan now =>
    refine ordered_lock (by simp) ?_
    by_cases hs : stale now = true
    · rw [if_pos hs]
      exact ordered_lock (by simp) h
    · rw [if_neg hs]
      exact h
  | dropBundle => exact ⟨rfl, by decide, rfl, by decide, h⟩
  | dropServer => exact ⟨rfl, by decide, h⟩
  | _ => exact h

theorem ordered_jsonGet {build : Locking → Locking}
    (h : Locking.Ordered t [.jsonBuf] (build .done)) :
    Locking.Ordered t [] (Locking.jsonGet build) := ⟨by simp, h, trivial⟩

theorem Locking.Runs.ordered (h : Locking.Runs t c) : Locking.Ordered t [] c := by
  have above : ∀ {l : Mutex}, l.rank = 1 → ∀ m ∈ [Mutex.jsonBuf], m.rank < l.rank := by
    intro l hl m hm
    rw [List.mem_singleton.1 hm, hl]
    decide
  cases h with
  | main _ => exact ordered_lockingOf (fun op _ => op.ordered_locking _) _
  | xy _ => exact ordered_lockingOf (fun op _ => op.ordered_locking) _
  | readFailed | update | log | save => exact ordered_lock (by simp) trivial
  | refresh portal =>
    refine ordered_lock (by simp) (ordered_lock (by simp) (ordered_lock (by simp) ?_))
    cases portal
    · trivial
    · exact ordered_lock (by simp) trivial
  | api => exact ordered_jsonGet (ordered_lock (above rfl) (ordered_lock (above rfl) trivial))
  | errors | scan => exact ordered_jsonGet (ordered_lock (above rfl) trivial)
  | status => exact ordered_jsonGet trivial
  | quiet => trivial

theorem Locking.Firmware.ordered (h : Locking.Firmware t c) : Locking.Ordered t [] c := by
  obtain ⟨c', hruns, hlogged⟩ := h
  exact hlogged.ordered hruns.ordered

end Ordered

/-- In any interleaving of the tasks, a mutex is held by at most one of them, and what is under way
comes to its end: the moves left are bounded, however they are chosen, and there is one to make
until every task is at rest. -/
theorem no_deadlock {s : Task → Thread Mutex Task} (h : Reachable Locking.Firmware s) :
    (∀ t u l, l ∈ (s t).held → l ∈ (s u).held → t = u) ∧
      ∃ bound, ∀ n s', Moves s n s' →
        n ≤ bound ∧ ((∀ s'', ¬ Move s' s'') → ∀ t, (s' t).Idle) :=
  h.progress fun _ _ hc => hc.ordered

/-- `/api` has the buffer and the store, and the sensor thread has a reading for the store. -/
theorem no_deadlock_api : ∃ s : Task → Thread Mutex Task, Reachable Locking.Firmware s ∧
    (s .dashboard).held = [.sensorData, .jsonBuf] ∧ (s .ina).code = .lock .sensorData .done .done ∧
      ∃ bound, ∀ n s', Moves s n s' →
        n ≤ bound ∧ ((∀ s'', ¬ Move s' s'') → ∀ t, (s' t).Idle) := by
  have plain : ∀ {t c}, Locking.Runs t c → Locking.Logged c c → Locking.Firmware t c :=
    fun h hl => ⟨_, h, hl⟩
  have hreach := Reachable.rest
    |>.begins (t := .dashboard) ⟨rfl, rfl⟩
      (plain .api (.lock (.lock .done (.lock .done .done)) .done))
    |>.move (t := .dashboard) rfl (.lock fun t => by cases t <;> decide)
    |>.move (t := .dashboard) rfl (.lock fun t => by cases t <;> decide)
    |>.move (t := .dashboard) rfl .unlock
    |>.move (t := .dashboard) rfl (.lock fun t => by cases t <;> decide)
    |>.begins (t := .ina) ⟨rfl, rfl⟩ (plain .update (.lock .done .done))
  exact ⟨_, hreach, rfl, rfl, (no_deadlock hreach).2⟩

end Esp32Battery
