import Esp32Battery.ErrorLog
import Esp32Battery.Lib.Slice

/-!
# What the event log adds up to

The sources' blocks lie end to end, so each kind has a slot of its own and a recorded event moves
no counter but its kind's. The ring drops its oldest entry for each one past its capacity, which
the counters do not see.
-/

namespace Esp32Battery

open Lib

/-- A source: its kinds are listed in the order of their indices, under names of their own, and
`event` makes an event of one. -/
class Source (K : Type) extends EventKind K where
  event : K → Event
  slot_event : ∀ k, (event k).slot = EventKind.slot k
  mem_iter : ∀ k, k ∈ iter
  map_index : iter.map index = List.range count
  nodup_name : (iter.map name).Nodup

namespace Source

variable {K : Type} [Source K]

theorem index_lt (k : K) : EventKind.index k < EventKind.count K := by
  rw [← List.mem_range, ← map_index]
  exact List.mem_map_of_mem (mem_iter k)

theorem index_injective : Function.Injective (EventKind.index : K → ℕ) := by
  intro k k' h
  refine List.inj_on_of_nodup_map ?_ (mem_iter k) (mem_iter k') h
  rw [map_index]
  exact List.nodup_range

theorem name_injective : Function.Injective (EventKind.name : K → String) := fun k k' h =>
  List.inj_on_of_nodup_map nodup_name (mem_iter k) (mem_iter k') h

theorem nodup_iter : (EventKind.iter : List K).Nodup := nodup_name.of_map

theorem length_iter : (EventKind.iter : List K).length = EventKind.count K := by
  rw [← List.length_map (EventKind.index (K := K)), map_index, List.length_range]

end Source

instance : Source InaError where
  event := .ina
  slot_event _ := rfl
  mem_iter k := by cases k <;> decide
  map_index := by decide
  nodup_name := by decide

instance : Source XyError where
  event := .xy
  slot_event _ := rfl
  mem_iter k := by cases k <;> decide
  map_index := by decide
  nodup_name := by decide

instance : Source ChargeTransition where
  event := .charge
  slot_event _ := rfl
  mem_iter k := by cases k <;> decide
  map_index := by decide
  nodup_name := by decide

theorem offsets : EventKind.offset InaError = 0 ∧
    EventKind.offset XyError = EventKind.count InaError ∧
    EventKind.offset ChargeTransition = EventKind.offset XyError + EventKind.count XyError ∧
    totalKinds = EventKind.offset ChargeTransition + EventKind.count ChargeTransition :=
  ⟨rfl, rfl, rfl, rfl⟩

namespace Event

theorem slot_lt (e : Event) : e.slot < totalKinds := by
  obtain ⟨h₁, h₂, h₃, h₄⟩ := offsets
  rcases e with k | k | k
  all_goals
    have := Source.index_lt k
    simp only [slot, EventKind.slot]
    omega

/-- No two events share a counter, whatever their sources. -/
theorem slot_injective : Function.Injective slot := by
  obtain ⟨h₁, h₂, h₃, h₄⟩ := offsets
  rintro (k | k | k) (k' | k' | k') h
  all_goals
    have hk := Source.index_lt k
    have hk' := Source.index_lt k'
    simp only [slot, EventKind.slot] at h
  case ina.ina | xy.xy | charge.charge => rw [Source.index_injective (Nat.add_left_cancel h)]
  all_goals omega

end Event

theorem toNat_saturatingSucc (n : UInt32) :
    (saturatingSucc n).toNat = min (n.toNat + 1) (2 ^ 32 - 1) := by
  have hlt := n.toNat_lt
  unfold saturatingSucc
  split_ifs with h
  · subst h
    rfl
  · have hne : n.toNat ≠ 2 ^ 32 - 1 := fun he => h (UInt32.toNat_inj.1 he)
    rw [UInt32.toNat_add]
    simp only [UInt32.toNat_one]
    omega

namespace EventLog

/-- What the log holds of everything recorded: the last entries, and for each slot how many events
had it, as far as a `u32` goes. -/
structure Records (log : EventLog) (es : List TimedEvent) : Prop where
  recent : log.recent.items = es.rtake capacity
  counts : ∀ slot < totalKinds, ∃ c, log.counter slot = .ok c ∧
    c.toNat = min (es.countP fun e => e.event.slot = slot) (2 ^ 32 - 1)

theorem records_new : new.Records [] where
  recent := rfl
  counts slot hslot := by
    refine ⟨0, ?_, rfl⟩
    unfold counter new
    rw [Vector.getElem?_replicate, if_pos hslot, expect_some]

/-- One event: the ring ends with it, its own counter moves and no other. -/
theorem Records.record {log : EventLog} {es : List TimedEvent} (h : log.Records es)
    (e : TimedEvent) : ∃ log', log.record e.ts e.event = .ok log' ∧ log'.Records (es ++ [e]) := by
  obtain ⟨recent, hpush⟩ := log.recent.pushBack_evict e (by decide)
  obtain ⟨c, hc, hcount⟩ := h.counts e.event.slot e.event.slot_lt
  refine ⟨⟨recent, log.counts.setIfInBounds e.event.slot (saturatingSucc c)⟩, ?_, ?_, ?_⟩
  · unfold EventLog.record
    simp only [hpush, expect_some, ok_bind, hc]
    rfl
  · rw [Deque.items_pushBack_evict (by decide) hpush, h.recent, rtake_rtake_append]
  · intro slot hslot
    obtain ⟨n, hn, hnat⟩ := h.counts slot hslot
    by_cases heq : e.event.slot = slot
    · subst heq
      refine ⟨saturatingSucc c, ?_, ?_⟩
      · unfold counter
        rw [Vector.getElem?_setIfInBounds_self_of_lt hslot, expect_some]
      · rw [toNat_saturatingSucc, hcount, List.countP_append, List.countP_singleton,
          if_pos (by simp)]
        omega
    · refine ⟨n, ?_, ?_⟩
      · rw [← hn]
        unfold counter
        rw [Vector.getElem?_setIfInBounds_ne heq]
      · rw [hnat, List.countP_append]
        simp [heq]

theorem Records.recordAll {log : EventLog} {es : List TimedEvent} (h : log.Records es)
    (es' : List TimedEvent) :
    ∃ log', log.recordAll es' = .ok log' ∧ log'.Records (es ++ es') := by
  induction es' generalizing log es with
  | nil => exact ⟨log, rfl, by rwa [List.append_nil]⟩
  | cons e es' ih =>
    obtain ⟨log₁, hlog₁, h₁⟩ := h.record e
    obtain ⟨log', hlog', h'⟩ := ih h₁
    refine ⟨log', ?_, by rwa [List.append_assoc] at h'⟩
    unfold EventLog.recordAll
    rw [hlog₁, ok_bind, hlog']

/-- How many of the events are of this kind, as far as a `u32` goes. -/
def total {K : Type} [Source K] (es : List TimedEvent) (k : K) : ℕ :=
  min (es.countP fun e => e.event = Source.event k) (2 ^ 32 - 1)

/-- What the log answers about one source: the total of every kind, and each kind listed once
under its name with that total. -/
structure Totals (K : Type) [Source K] (log : EventLog) (es : List TimedEvent) : Prop where
  count : ∀ k : K, ∃ c, log.count k = .ok c ∧ c.toNat = total es k
  countsIter : ∃ pairs, log.countsIter K = .ok pairs ∧ pairs.length = EventKind.count K ∧
    ∀ k : K, ∃ c, pairs.filter (fun x => x.1 = EventKind.name k) = [(EventKind.name k, c)] ∧
      c.toNat = total es k

section Totals

variable {K : Type} [Source K] {log : EventLog} {es : List TimedEvent}

theorem Records.count (h : log.Records es) (k : K) :
    ∃ c, log.count k = .ok c ∧ c.toNat = total es k := by
  obtain ⟨c, hc, hcount⟩ := h.counts (Source.event k).slot (Source.event k).slot_lt
  refine ⟨c, ?_, ?_⟩
  · unfold EventLog.count
    rw [← Source.slot_event, hc]
  · rw [hcount, total]
    simp only [Event.slot_injective.eq_iff]

theorem Records.totals (h : log.Records es) : Totals K log es := by
  refine ⟨h.count, ?_⟩
  choose c hc hcount using h.count (K := K)
  refine ⟨EventKind.iter.map fun k => (EventKind.name k, c k), ?_, ?_, fun k => ⟨c k, ?_, hcount k⟩⟩
  · unfold EventLog.countsIter
    simp only [hc, ok_bind]
    exact List.mapM_pure
  · rw [List.length_map, Source.length_iter]
  · classical
    have hself : (fun k' : K => decide (EventKind.name k' = EventKind.name k))
        = fun k' => decide (k' = k) := by
      funext k'
      simp only [Source.name_injective.eq_iff]
    rw [List.filter_map]
    simp only [Function.comp_def]
    rw [hself, List.filter_eq, List.count_eq_one_of_mem Source.nodup_iter (Source.mem_iter k)]
    rfl

end Totals

/-- However many events of the three sources have been recorded, and in whatever order: the ring
holds the last `CAPACITY` of them, oldest first, every kind's counter its own total, and nothing
indexes outside the array. -/
theorem totals_and_window (es : List TimedEvent) : ∃ log, new.recordAll es = .ok log ∧
    log.recent.items = es.drop (es.length - capacity) ∧
    log.len = min capacity es.length ∧
    Totals InaError log es ∧ Totals XyError log es ∧ Totals ChargeTransition log es := by
  obtain ⟨log, hlog, h⟩ := records_new.recordAll es
  rw [List.nil_append] at h
  refine ⟨log, hlog, h.recent, ?_, h.totals, h.totals, h.totals⟩
  unfold len
  rw [h.recent, List.rtake, List.length_drop]
  omega

end EventLog

end Esp32Battery
